import CrmQuery.Text.Case
import CrmQuery.Validation.Lenient

/-!
# Settings

`Settings.read` takes the settings from an `Environment` of named texts; a setting without a text
has its default.  `logLevel` is the number of the level that a text names.
-/

namespace CrmQuery

/-- The texts of named settings.  The case of letters in a name does not matter. -/
structure Environment where
  entries : List (String × String)
  deriving DecidableEq, Repr

namespace Environment

/-- An environment without settings. -/
def empty : Environment := ⟨[]⟩

/-- The spelling under which a name is kept. -/
def canonical (name : String) : String := String.ofList (name.toList.map Text.capital)

/-- Give a setting a text. -/
def set (env : Environment) (name value : String) : Environment :=
  ⟨(canonical name, value) :: env.entries⟩

/-- Give several settings their texts. -/
def setAll (env : Environment) (values : List (String × String)) : Environment :=
  values.foldl (fun e v => e.set v.1 v.2) env

/-- The text of a setting. -/
def get? (env : Environment) (name : String) : Option String := env.entries.lookup (canonical name)

end Environment

/-- The settings of the engine. -/
structure Settings where
  minQueryLength : Int
  maxQueryLength : Int
  /-- A confidence below it calls for a warning. -/
  lowConfidenceThreshold : Float
  /-- Only a confidence above it lets a user see the statement. -/
  sqlExposureConfidence : Float
  timezone : String
  /-- The greatest number of rows of a list. -/
  resultLimit : Int
  apiPort : Int
  logLevel : String

namespace Settings

/-- The settings of an empty environment. -/
def default : Settings :=
  { minQueryLength := 3
    maxQueryLength := 500
    lowConfidenceThreshold := 0.5
    sqlExposureConfidence := 0.7
    timezone := "Europe/Berlin"
    resultLimit := 50
    apiPort := 8000
    logLevel := "INFO" }

/-- One setting of an environment. -/
def readOne {α : Type} (env : Environment) (name : String) (default : α)
    (check : Json → Checked α) : Checked α :=
  Checked.under (.key name) (match env.get? name with
    | none => .ok default
    | some text => check (.string text))

/-- The settings of an environment. -/
def read (env : Environment) : Checked Settings := do
  let (((min, max), low, exposure), (zone, limit), port, level) ←
    Checked.both
      (Checked.both
        (Checked.both (readOne env "min_query_length" default.minQueryLength Lenient.int)
          (readOne env "max_query_length" default.maxQueryLength Lenient.int))
        (Checked.both
          (readOne env "low_confidence_threshold" default.lowConfidenceThreshold Lenient.float)
          (readOne env "sql_exposure_confidence" default.sqlExposureConfidence Lenient.float)))
      (Checked.both
        (Checked.both (readOne env "timezone" default.timezone Lenient.string)
          (readOne env "result_limit" default.resultLimit Lenient.int))
        (Checked.both (readOne env "api_port" default.apiPort Lenient.int)
          (readOne env "log_level" default.logLevel Lenient.string)))
  return {
    minQueryLength := min
    maxQueryLength := max
    lowConfidenceThreshold := low
    sqlExposureConfidence := exposure
    timezone := zone
    resultLimit := limit
    apiPort := port
    logLevel := level }

/-- Settings as JSON. -/
def toJson (s : Settings) : Json :=
  .object [
    ("min_query_length", .int s.minQueryLength),
    ("max_query_length", .int s.maxQueryLength),
    ("low_confidence_threshold", .float s.lowConfidenceThreshold),
    ("sql_exposure_confidence", .float s.sqlExposureConfidence),
    ("timezone", .string s.timezone),
    ("result_limit", .int s.resultLimit),
    ("api_port", .int s.apiPort),
    ("log_level", .string s.logLevel)]

end Settings

/-- The numbers of the levels of log messages. -/
def logLevels : List (String × Nat) := [
  ("CRITICAL", 50), ("FATAL", 50), ("ERROR", 40), ("WARN", 30), ("WARNING", 30), ("INFO", 20),
  ("DEBUG", 10), ("NOTSET", 0)]

/-- The number of the level that a text names in any case; that of `INFO` for any other text. -/
def logLevel (name : String) : Nat :=
  (logLevels.lookup (String.ofList (name.toList.map Text.capital))).getD 20

end CrmQuery
