import CrmQuery.Calendar.Iso
import CrmQuery.Domain
import CrmQuery.Filter
import CrmQuery.Vocabulary.Topics

/-!
# Classifications

A `Timeframe` is a window of time: a number of days, weeks or months up to now, or two given
moments.  A `Classification` is what is understood of a question: its domain and intent, the
entities that it names and the filters that follow from them, its timeframe and language, and a
measure of confidence between zero and one.
-/

namespace CrmQuery

/-! ### Timeframes -/

/-- The last `count` units of a period. -/
structure RelativeWindow where
  period : Period
  count : Nat
  count_pos : 0 < count
  start : Moment
  stop : Moment
  deriving DecidableEq

/-- A window of time. -/
inductive Timeframe where
  | relative (window : RelativeWindow)
  | absolute (start stop : Moment)
  deriving DecidableEq

namespace Timeframe

/-- The first moment of the window. -/
def start : Timeframe → Moment
  | relative w => w.start
  | absolute s _ => s

/-- The last moment of the window. -/
def stop : Timeframe → Moment
  | relative w => w.stop
  | absolute _ e => e

/-- A window as JSON. -/
def toJson : Timeframe → Json
  | relative w => .object [
      ("type", .string "relative"),
      ("period", .string w.period.name),
      ("count", .int w.count),
      ("start", .string w.start.jsonText),
      ("end", .string w.stop.jsonText)]
  | absolute s e => .object [
      ("type", .string "absolute"),
      ("start", .string s.jsonText),
      ("end", .string e.jsonText)]

end Timeframe

/-! ### Classifications -/

/-- What is understood of a question. -/
structure Classification where
  domain : Domain
  intent : Intent
  entities : List (String × Json)
  filters : List Filter
  timeframe : Option Timeframe
  aggregation : Option Aggregation
  confidence : Float
  language : Language

namespace Classification

/-- The intent and the domain in words. -/
def interpretedQuery (c : Classification) : String := c.intent.name ++ " " ++ c.domain.name

/-- The confidence is below one half. -/
def isAmbiguous (c : Classification) : Bool := c.confidence < 0.5

/-- The fields of a classification as JSON. -/
def fields (c : Classification) : List (String × Json) := [
  ("domain", .string c.domain.name),
  ("intent", .string c.intent.name),
  ("entities", .object c.entities),
  ("filters", .array (c.filters.map Filter.toJson)),
  ("timeframe", Json.ofOption Timeframe.toJson c.timeframe),
  ("aggregation", Json.ofOption (fun a => .string a.name) c.aggregation),
  ("confidence", .float c.confidence),
  ("language", .string c.language.name)]

/-- A classification as JSON, with what is derived from it. -/
def toJson (c : Classification) : Json :=
  .object (c.fields ++ [
    ("interpreted_query", .string c.interpretedQuery),
    ("is_ambiguous", .bool c.isAmbiguous)])

end Classification

end CrmQuery
