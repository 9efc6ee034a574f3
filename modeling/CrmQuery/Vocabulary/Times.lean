import CrmQuery.Domain
import CrmQuery.Pattern.Basic

/-!
# Words for times

Four phrases name a time: today, yesterday, this month, and a number of days, weeks or months that
have passed (`TimePhrase.relative`).  A `Period` has the words for its unit and a greatest number
of units that is accepted, which is looked up in a table (`Period.limits`).
-/

namespace CrmQuery

open Pattern

/-- The units in which the past is counted. -/
inductive Period where
  | day
  | week
  | month
  deriving DecidableEq, Repr

namespace Period

/-- Every period. -/
def all : List Period := [day, week, month]

/-- The name of a period. -/
def name : Period → String
  | day => "day"
  | week => "week"
  | month => "month"

/-- The greatest number of units that is accepted. -/
def maxCount : Period → Nat
  | day => 3660
  | week => 520
  | month => 120

/-- The periods whose units are limited, each with its limit. -/
def limits : List (Period × Nat) :=
  [(day, day.maxCount), (week, week.maxCount), (month, month.maxCount)]

/-- The limit of a period, if it has one. -/
def limit? (p : Period) : Option Nat := limits.lookup p

/-- A number of units is within the limit of the period, or there is no limit. -/
def allows (p : Period) (count : Nat) : Bool := p.limit?.all (count ≤ ·)

/-- The words for a unit. -/
def patterns : Period → List Pattern
  | day => [lit "tag" ++ opt (anyOf [lit "e", lit "en"]), lit "day" ++ opt (lit "s")]
  | week => [lit "woche" ++ opt (lit "n"), lit "week" ++ opt (lit "s")]
  | month => [
      lit "monat" ++ opt (anyOf [lit "e", lit "en", lit "s"]),
      lit "month" ++ opt (lit "s")]

/-- The period that a word is the unit of. -/
def ofUnit? (word : List Char) : Option Period :=
  all.find? fun p => p.patterns.any (·.fitsAll word)

end Period

namespace TimePhrase

/-- The endings of a German adjective. -/
def ending : Pattern := opt (among "nmrs")

/-- Words for today. -/
def today : Pattern := whole (anyOf [lit "heute", lit "today"])

/-- Words for yesterday. -/
def yesterday : Pattern := whole (anyOf [lit "gestern", lit "yesterday"])

/-- Words for this month. -/
def thisMonth : Pattern :=
  whole (anyOf [
    anyOf [lit "diese" ++ ending, lit "aktuelle" ++ ending] ++ gap ++ lit "monat",
    phrase ["this", "month"]])

/-- Words that look back from now. -/
def lookingBack : Pattern :=
  anyOf [lit "letzte" ++ ending, lit "vergangene" ++ ending, lit "last", lit "past"]

/-- A word that looks back, a number if there is one, and a unit. -/
def relative : Pattern :=
  edge ++ lookingBack ++ gap ++ opt (part .count digits ++ gap) ++
    part .unit (anyOf (Period.all.flatMap Period.patterns)) ++ edge

end TimePhrase

end CrmQuery
