import CrmQuery.Classification
import CrmQuery.Question.Entities
import CrmQuery.Question.Topic

/-!
# Classifying a question

`Timeframe.ofText?` reads the timeframe of a question, as seen from a given moment.  Of several
phrases for a time, today comes before yesterday, this month and the past.
`Classification.ofQuestion` reads the whole question, as asked at a given moment and with a hint at
its domain.
-/

namespace CrmQuery

open Pattern

/-! ### The timeframe -/

/-- Why a question cannot be read. -/
inductive QuestionFault where
  | numeralTooLong (cause : Text.NumeralTooLong)
  /-- Yesterday is not in the calendar. -/
  | dateOutOfRange
  deriving DecidableEq, Repr

/-- The explanation of a fault. -/
def QuestionFault.message : QuestionFault → String
  | numeralTooLong e => e.message
  | dateOutOfRange => "date value out of range"

/-- The moment a number of units before another one, if it is in the calendar. -/
def Period.before? (p : Period) (count : Nat) (now : Moment) : Option Moment :=
  match p with
  | day => now.subtractDays? count
  | week => now.subtractDays? (7 * count)
  | month => (now.subtractMonths count).toOption

/-- The last `count` units of a period, if there are not too many of them. -/
def RelativeWindow.upTo? (now : Moment) (p : Period) (count : Nat) : Option RelativeWindow :=
  if h : 0 < count then
    if p.allows count then (p.before? count now).map fun start => ⟨p, count, h, start, now⟩
    else none
  else none

/-- The number of units that a phrase for the past names, one if it names none. -/
def relativeCount (m : Match) : Except Text.NumeralTooLong Nat :=
  match m.piece? .count with
  | some p => Text.readNumeral p.text
  | none => .ok 1

/-- The period that a phrase for the past counts. -/
def relativePeriod? (m : Match) : Option Period :=
  (m.piece? .unit).bind fun p => Period.ofUnit? p.text

/-- The window of a phrase for the past. -/
def RelativeWindow.ofMatch? (now : Moment) (m : Match) :
    Except Text.NumeralTooLong (Option RelativeWindow) := do
  let count ← relativeCount m
  return (relativePeriod? m).bind fun p => upTo? now p count

/-- The timeframe of a normalised question. -/
def Timeframe.ofText? (s : List Char) (now : Moment) : Except QuestionFault (Option Timeframe) :=
  if TimePhrase.today.occursIn s then .ok (some (.absolute now.startOfDay now.endOfDay))
  else if TimePhrase.yesterday.occursIn s then
    match now.subtractDays? 1 with
    | some day => .ok (some (.absolute day.startOfDay day.endOfDay))
    | none => .error .dateOutOfRange
  else if TimePhrase.thisMonth.occursIn s then .ok (some (.absolute now.startOfMonth now))
  else
    match TimePhrase.relative.search s with
    | none => .ok none
    | some m => ((RelativeWindow.ofMatch? now m).mapError .numeralTooLong).map (·.map .relative)

/-! ### The classification -/

/-- What is understood of a question. -/
def Classification.ofQuestion (question : String) (hint : Option Domain) (now : Moment) :
    Except QuestionFault Classification := do
  let s := normalize question
  let topic := Topic.ofText s hint
  let intent? := Intent.ofText? s
  let intent := intent?.getD .list
  let entities ← (Entities.ofText s).mapError .numeralTooLong
  let timeframe ← Timeframe.ofText? s now
  return {
    domain := topic.domain
    intent := intent
    entities := entities.fields
    filters := entities.filters topic.domain
    timeframe := timeframe
    aggregation := intent.aggregation?
    confidence :=
      topic.evidence.confidence intent?.isSome entities.fields.length timeframe.isSome
    language := Language.ofText s }

end CrmQuery
