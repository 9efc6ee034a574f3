import CrmQuery.Decimal.Rounding
import CrmQuery.Json.Writer
import CrmQuery.Vocabulary.Entities

/-!
# Reading score bands

`ScoreBand.parseAll` reads bands that are given as lists of two numbers.  The numbers are compared
as they are and cut down to integers afterwards.
-/

namespace CrmQuery

/-- Why a list is not a band. -/
inductive BandFault where
  | tooFew (count : Nat)
  | tooMany
  | notNumeric
  /-- The lower end is above the upper one. -/
  | reversed (name : String) (low high : String)
  deriving DecidableEq, Repr

/-- The explanation of a fault. -/
def BandFault.message : BandFault → String
  | tooFew count => "not enough values to unpack (expected 2, got " ++ toString count ++ ")"
  | tooMany => "too many values to unpack (expected 2)"
  | notNumeric => "the ends of a band are numbers"
  | reversed name low high =>
    "Lead-score band '" ++ name ++ "' has low > high (" ++ low ++ " > " ++ high ++ ")"

/-- A number as a quotient with a positive denominator. -/
def quotient? : Json → Option (Int × Nat)
  | .int i => some (i, 1)
  | .bool b => some (if b then 1 else 0, 1)
  | .float x =>
    if x.isFinite then
      let v := ExactValue.ofFloat x
      some (if v.negative then -(v.num : Int) else v.num, v.den)
    else none
  | _ => none

namespace ScoreBand

/-- The band of two numbers. -/
def ofEnds (name : String) (low high : Json) : Except BandFault ScoreBand :=
  match quotient? low, quotient? high with
  | some (a, b), some (c, d) =>
    if c * b < a * d then .error (.reversed name low.display high.display)
    else .ok ⟨a.tdiv b, c.tdiv d⟩
  | _, _ => .error .notNumeric

/-- The band that a list of two numbers describes. -/
def parse (name : String) : List Json → Except BandFault ScoreBand
  | [low, high] => ofEnds name low high
  | ends => if ends.length < 2 then .error (.tooFew ends.length) else .error .tooMany

/-- The bands that named lists describe, up to the first fault. -/
def parseAll (raw : List (String × List Json)) : Except BandFault (List (String × ScoreBand)) :=
  raw.mapM fun (name, ends) => (parse name ends).map fun band => (name, band)

end ScoreBand

end CrmQuery
