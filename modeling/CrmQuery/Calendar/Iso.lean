import CrmQuery.Calendar.Moment
import CrmQuery.Text.Digit

/-!
# Moments as text

`Moment.isoText` and `Moment.jsonText` write a moment.  In JSON the offset zero is `Z` instead of
`+00:00`, and the seconds of an offset are cut off.  `Moment.read` reads both forms, or a date, or
tells what is wrong with the date (`DateFault`).
-/

namespace CrmQuery

/-- A number with at least `width` decimal digits. -/
def padded (width n : Nat) : String :=
  let s := toString n
  String.ofList (List.replicate (width - s.length) '0') ++ s

/-- A date as year, month and day. -/
def Date.isoText (d : Date) : String :=
  padded 4 d.year ++ "-" ++ padded 2 d.month ++ "-" ++ padded 2 d.day

/-- A time of day; the fraction of a second has six digits and is left out if it is zero. -/
def timeText (micros : Nat) : String :=
  let seconds := micros / 1000000
  let fraction := micros % 1000000
  padded 2 (seconds / 3600) ++ ":" ++ padded 2 (seconds / 60 % 60) ++ ":" ++
    padded 2 (seconds % 60) ++ (if fraction = 0 then "" else "." ++ padded 6 fraction)

/-- The hours and minutes of an offset, given in seconds, with its sign. -/
def offsetText (offset : Int) : String :=
  let size := offset.natAbs / 60
  (if offset < 0 then "-" else "+") ++ padded 2 (size / 60) ++ ":" ++ padded 2 (size % 60)

/-- An offset as it is bound to a statement: with its seconds unless there are none. -/
def isoOffset (offset : Int) : String :=
  let seconds := offset.natAbs % 60
  offsetText offset ++ if seconds = 0 then "" else ":" ++ padded 2 seconds

/-- An offset as it stands in JSON. -/
def jsonOffset (offset : Int) : String := if offset = 0 then "Z" else offsetText offset

namespace Moment

/-- A moment with its offset in a given form. -/
def text (form : Int → String) (m : Moment) : String :=
  m.wall.date.isoText ++ "T" ++ timeText m.wall.micros ++ (m.offset?.map form).getD ""

/-- A moment as it is bound to a statement. -/
def isoText (m : Moment) : String := m.text isoOffset

/-- A moment as it stands in JSON. -/
def jsonText (m : Moment) : String := m.text jsonOffset

end Moment

/-! ### Reading -/

/-- Why a text or a number is not a date. -/
inductive DateFault where
  | tooShort
  | badYear
  | badMonth
  | badDay
  | badSeparator
  | monthOutOfRange
  | dayOutOfRange
  | extraCharacters
  /-- The year before the first one of the calendar. -/
  | yearZero
  | beforeCalendar
  | afterCalendar
  | notANumber
  deriving DecidableEq, Repr

/-- The explanation of a fault. -/
def DateFault.message : DateFault → String
  | tooShort => "input is too short"
  | badYear => "invalid character in year"
  | badMonth => "invalid character in month"
  | badDay => "invalid character in day"
  | badSeparator => "invalid date separator, expected \x60-\x60"
  | monthOutOfRange => "month value is outside expected range of 1-12"
  | dayOutOfRange => "day value is outside expected range"
  | extraCharacters => "unexpected extra characters at the end of the input"
  | yearZero => "year 0 is out of range"
  | beforeCalendar => "dates before 0000 are not supported as unix timestamps"
  | afterCalendar => "dates after 9999 are not supported as unix timestamps"
  | notANumber => "NaN values not permitted"

/-- The number that exactly `n` decimal digits of ASCII write, and what follows them. -/
def fixedNumber (fault : DateFault) : Nat → Nat → List Char → Except DateFault (Nat × List Char)
  | 0, value, rest => .ok (value, rest)
  | _ + 1, _, [] => .error .tooShort
  | n + 1, value, c :: rest =>
    if c.isDigit then fixedNumber fault n (10 * value + (c.toNat - '0'.toNat)) rest
    else .error fault

/-- What follows a hyphen. -/
def afterHyphen : List Char → Except DateFault (List Char)
  | '-' :: rest => .ok rest
  | _ => .error .badSeparator

/-- The least number of bytes of a date. -/
def dateBytes : Nat := 10

/-- The date at the beginning of a text, and what follows it.  The length of the text is looked at
before its characters.  A day of the year zero is written like any other, but is no date. -/
def Date.readFirst (s : List Char) : Except DateFault (Option Date × List Char) := do
  if (String.ofList s).utf8ByteSize < dateBytes then throw .tooShort
  let (year, s) ← fixedNumber .badYear 4 0 s
  let (month, s) ← fixedNumber .badMonth 2 0 (← afterHyphen s)
  let (day, s) ← fixedNumber .badDay 2 0 (← afterHyphen s)
  if month = 0 ∨ 12 < month then throw .monthOutOfRange
  if day = 0 ∨ monthLength year month < day then throw .dayOutOfRange
  return (Date.of? year month day, s)

/-- Two decimal digits at the beginning of a text that write a number below `bound`. -/
def twoDigits? (bound : Nat) : List Char → Option (Nat × List Char)
  | a :: b :: rest =>
    let n := 10 * (a.toNat - '0'.toNat) + (b.toNat - '0'.toNat)
    if a.isDigit && b.isDigit && n < bound then some (n, rest) else none
  | _ => none

/-- The microseconds that the digits of a fraction write; further digits are cut off. -/
def fractionMicros (ds : List Char) : Nat :=
  Text.numeral (ds.take 6) * Nat.pow 10 (6 - ds.length)

/-- The fraction of a second at the beginning of a text, if there is one. -/
def readFraction? : List Char → Option (Nat × List Char)
  | c :: rest =>
    if c = '.' ∨ c = ',' then
      let ds := rest.takeWhile Char.isDigit
      if ds.isEmpty then none else some (fractionMicros ds, rest.drop ds.length)
    else some (0, c :: rest)
  | [] => some (0, [])

/-- The microseconds of a time of day at the beginning of a text, which may end with the minutes,
the seconds or a fraction of a second. -/
def readTime? (s : List Char) : Option (Nat × List Char) := do
  let (hours, s) ← twoDigits? 24 s
  let ':' :: s := s | none
  let (minutes, s) ← twoDigits? 60 s
  let start := (60 * hours + minutes) * microsPerMinute
  match s with
  | ':' :: s =>
    let (seconds, s) ← twoDigits? 60 s
    let (fraction, s) ← readFraction? s
    return (start + seconds * 1000000 + fraction, s)
  | s => return (start, s)

/-- A sign, which may be a hyphen or a true minus; true means a minus. -/
def minus? : Char → Option Bool
  | '+' => some false
  | '-' | '\u2212' => some true
  | _ => none

/-- The offset rule that the rest of a text writes: nothing, `Z`, or hours and minutes. -/
def readOffset? : List Char → Option OffsetRule
  | [] => some .floating
  | ['Z'] => some (.fixed 0)
  | ['z'] => some (.fixed 0)
  | sign :: s => do
    let negative ← minus? sign
    let (hours, s) ← twoDigits? 24 s
    let (minutes, s) ← twoDigits? 60 (match s with
      | ':' :: s => s
      | s => s)
    if s ≠ [] then none
    let size : Int := 60 * (60 * hours + minutes : Nat)
    return .fixed (if negative then -size else size)

/-- What may follow a date: nothing, which stands for midnight, or a letter T, an underscore or a
space, a time of day and possibly an offset. -/
def readClock? : List Char → Option (Nat × OffsetRule)
  | [] => some (0, .floating)
  | sep :: s => do
    if ¬ ['T', 't', '_', ' '].contains sep then none
    let (micros, s) ← readTime? s
    return (micros, ← readOffset? s)

namespace Moment

/-- A date and a time of day at a given number of microseconds. -/
def at? (d : Date) (micros : Nat) (rule : OffsetRule) : Option Moment :=
  if h : micros < microsPerDay then some ⟨⟨d, micros, h⟩, rule, false⟩ else none

/-- The moment that a text writes.  After a date, what is no time of day is too much. -/
def read (s : List Char) : Except DateFault Moment := do
  let (day?, rest) ← Date.readFirst s
  match readClock? rest with
  | none => throw .extraCharacters
  | some (micros, rule) =>
    match day?.bind (at? · micros rule) with
    | some m => return m
    | none => throw .yearZero

end Moment

end CrmQuery
