import CrmQuery.Calendar.Zone
import CrmQuery.Explanation
import CrmQuery.Question.Classify
import CrmQuery.Settings
import CrmQuery.Sql.Compile
import CrmQuery.Sql.Safety

/-!
# Interpretations

`interpretWith` leads from a question to a query: the input is checked, the question classified, the
classification given to a builder, and the text that the builder wrote checked for safety.
`interpret` uses the builder of this library.  An `Interpretation` carries a query only if all of
that succeeded, and shows its text only if the confidence is high enough.
-/

namespace CrmQuery

open Sql

/-- What is wrong with the input. -/
inductive InputFault where
  | tooShort (least : Int)
  | tooLong (most : Int)
  | noTenant
  deriving DecidableEq, Repr

/-- The explanation of a fault. -/
def InputFault.message : InputFault → String
  | tooShort least => "Question is too short (minimum " ++ toString least ++ " characters)."
  | tooLong most => "Question is too long (maximum " ++ toString most ++ " characters)."
  | noTenant => "No tenant associated with the request."

/-- Why a question was refused. -/
inductive Refusal where
  | inputInvalid
  | unsupportedDomain
  | securityRejected
  deriving DecidableEq, Repr

/-- The occasion for a message that a refusal is. -/
def Refusal.occasion : Refusal → Occasion
  | inputInvalid => .inputInvalid
  | unsupportedDomain => .unsupportedDomain
  | securityRejected => .securityRejected

/-- The code of a refusal. -/
def Refusal.code (r : Refusal) : String := r.occasion.code

/-- What became of a question. -/
structure Interpretation where
  question : String
  classification : Option Classification
  query : Option Query
  refusal : Option Refusal
  inputFaults : List InputFault
  warnings : List String
  explanation : String
  suggestions : List String
  /-- The confidence is high enough to show the text of the query. -/
  sqlExposed : Bool

namespace Interpretation

/-- The question led to a query. -/
def success (r : Interpretation) : Bool :=
  r.query.isSome && r.refusal.isNone && r.inputFaults.isEmpty

/-- The text of the query as far as it may be shown. -/
def visibleSql (r : Interpretation) : Option String :=
  if r.sqlExposed then r.query.map Query.sql else none

/-- An interpretation as JSON. -/
def toJson (r : Interpretation) : Json :=
  .object [
    ("question", .string r.question),
    ("success", .bool r.success),
    ("classification", Json.ofOption Classification.toJson r.classification),
    ("query", Json.ofOption Query.toJson r.query),
    ("visible_sql", Json.ofOption .string r.visibleSql),
    ("error_code", Json.ofOption (fun e => .string e.code) r.refusal),
    ("input_errors", Json.strings (r.inputFaults.map InputFault.message)),
    ("warnings", Json.strings r.warnings),
    ("explanation", .string r.explanation),
    ("suggestions", Json.strings r.suggestions),
    ("sql_exposed", .bool r.sqlExposed)]

end Interpretation

/-- Why a question has no interpretation. -/
inductive InterpretationFault where
  | question (cause : QuestionFault)
  /-- There is no time zone of the name that is set. -/
  | zone (cause : ZoneFault)
  /-- The clock is beyond the calendar of the time zone. -/
  | clockOutOfRange
  | build (cause : BuildFault)
  deriving DecidableEq, Repr

/-- The explanation of a fault. -/
def InterpretationFault.message : InterpretationFault → String
  | question e => e.message
  | zone e => e.message
  | clockOutOfRange => "date value out of range"
  | build e => e.message

/-! ### The steps -/

/-- What is wrong with a question and a tenant. -/
def checkInput (settings : Settings) (question tenant : String) : List InputFault :=
  let length : Int := (Text.strip question.toList).length
  (if length < settings.minQueryLength then [.tooShort settings.minQueryLength] else []) ++
  (if settings.maxQueryLength < length then [.tooLong settings.maxQueryLength] else []) ++
  (if (Text.strip tenant.toList).isEmpty then [.noTenant] else [])

/-- Where now is taken from. -/
inductive Clock where
  /-- A moment that was given. -/
  | given (now : Moment)
  /-- The instant that a clock shows, in universal time, next to a table of time zones. -/
  | shows (zones : List (String × Zone)) (universal : WallTime)
  deriving DecidableEq

namespace Clock

/-- A clock next to the zones of this library. -/
def instant (universal : WallTime) : Clock := shows Zone.known universal

/-- Now, in the time zone that is set if only an instant is known. -/
def now (clock : Clock) (zone : String) : Except InterpretationFault Moment :=
  match clock with
  | given now => .ok now
  | shows zones u =>
    match zoneNamed zones zone with
    | .error e => .error (.zone e)
    | .ok z =>
      match Moment.inZone? z u with
      | some now => .ok now
      | none => .error .clockOutOfRange

end Clock

/-- What a user may want to do with an answer. -/
def followUps (c : Classification) : List String :=
  match c.domain, c.language with
  | .unknown, _ => []
  | .leads, .de => ["Zeige mir mehr Details zu diesen Leads", "Exportiere diese Daten als CSV"]
  | _, .de => ["Zeige mir mehr Details zu diesen Ergebnissen", "Exportiere diese Daten als CSV"]
  | .leads, .en => ["Show me more details about these leads", "Export this data as CSV"]
  | _, .en => ["Show me more details about these results", "Export this data as CSV"]

/-- The interpretation of refused input. -/
def refuseInput (settings : Settings) (question : String) (faults : List InputFault) :
    Interpretation :=
  { question := question
    classification := none
    query := none
    refusal := some .inputInvalid
    inputFaults := faults
    warnings := []
    explanation := Occasion.inputInvalid.message .de [
      ("min_len", .int settings.minQueryLength), ("max_len", .int settings.maxQueryLength)]
    suggestions := []
    sqlExposed := false }

/-- The warning about a low confidence, if it is called for. -/
def lowConfidenceWarning? (settings : Settings) (c : Classification) : Option String :=
  if c.confidence < settings.lowConfidenceThreshold then
    some (Occasion.lowConfidence.message c.language [("confidence", .float c.confidence)])
  else none

/-- The query that a builder made, if its text is safe, or else why there is none. -/
def accept (built : Except BuildFault Query) :
    Except InterpretationFault (Except Refusal Query) :=
  match built with
  | .ok q => .ok (if isSafe q.sql then .ok q else .error .securityRejected)
  | .error (.unsupportedDomain _) => .ok (.error .unsupportedDomain)
  | .error e => .error (.build e)

/-- The interpretation of a classified question. -/
def conclude (settings : Settings) (question : String) (c : Classification)
    (outcome : Except Refusal Query) : Interpretation :=
  let warning := lowConfidenceWarning? settings c
  let exposed := settings.sqlExposureConfidence < c.confidence
  match outcome with
  | .ok q =>
    { question := question
      classification := some c
      query := some q
      refusal := none
      inputFaults := []
      warnings := warning.toList
      explanation := warning.getD ""
      suggestions := followUps c
      sqlExposed := exposed }
  | .error r =>
    { question := question
      classification := some c
      query := none
      refusal := some r
      inputFaults := []
      warnings := warning.toList
      explanation := r.occasion.message c.language []
      suggestions := []
      sqlExposed := exposed }

/-- A way to turn a classification into a query for a tenant. -/
abbrev Builder := Classification → String → Except BuildFault Query

/-- The interpretation of a question with a given builder. -/
def interpretWith (build : Builder) (settings : Settings) (question tenant : String)
    (hint : Option Domain) (clock : Clock) : Except InterpretationFault Interpretation :=
  match checkInput settings question tenant with
  | [] => do
    let now ← clock.now settings.timezone
    let c ← (Classification.ofQuestion question hint now).mapError .question
    return conclude settings question c (← accept (build c tenant))
  | faults => .ok (refuseInput settings question faults)

/-- The interpretation of a question. -/
def interpret (settings : Settings) (question tenant : String) (hint : Option Domain)
    (clock : Clock) : Except InterpretationFault Interpretation :=
  interpretWith (compile settings.resultLimit) settings question tenant hint clock

end CrmQuery
