import CrmQuery.Calendar.Iso
import CrmQuery.Decimal.Rounding

/-!
# Unix time

`Moment.ofUnix` is the moment at a number of seconds after the beginning of 1970; a great number
counts milliseconds.  `Moment.ofUnixFloat` reads the number from a double and `Moment.ofUnixText?`
from a text.
-/

namespace CrmQuery

/-- The greatest size of a number of seconds; beyond it numbers count milliseconds. -/
def maxUnixSeconds : Nat := 20000000000

namespace Moment

/-- The number of the first of January 1970. -/
def epochOrdinal : Nat := 719163

/-- The number of days of the year zero. -/
def yearZeroLength : Nat := 366

/-- The moment at a number of seconds or milliseconds after the beginning of 1970, and some
microseconds later. -/
def ofUnix (n : Int) (micros : Nat) : Except DateFault Moment :=
  let total : Int :=
    (if n.natAbs ≤ maxUnixSeconds then n * 1000000 else n * 1000) + micros
  let day := total / microsPerDay + epochOrdinal
  if day ≤ -yearZeroLength then .error .beforeCalendar
  else if day ≤ 0 then .error .yearZero
  else
    match (Date.ofOrdinal? day.toNat).bind
        (at? · (total % microsPerDay).toNat (.fixed 0)) with
    | none => .error .afterCalendar
    | some m => .ok m

/-- The microseconds of a fraction of a second, rounded in double arithmetic; a half goes up. -/
def microsOf (fraction : Float) : Nat := (ExactValue.ofFloat (fraction * 1000000)).roundHalfUp

/-- The moment at a number of seconds or milliseconds: the whole ones below it, and the microseconds
of its fraction. -/
def ofUnixFloat (x : Float) : Except DateFault Moment :=
  if x.isNaN then .error .notANumber
  else
    let v := ExactValue.ofFloat x
    ofUnix v.floor (microsOf (x - Float.ofInt v.truncate).abs)

/-- The number that digits with a point write, added up digit by digit in double arithmetic. -/
def decimalSum (whole : Nat) (fraction : List Char) : Float :=
  (fraction.foldl (fun (sum, weight) d =>
    (sum + Float.ofNat ((Text.digit? d).getD 0) / weight, weight * 10)) (Float.ofNat whole, 10)).1

/-- The moment at a number of seconds with a fraction; a great number counts milliseconds, which
are turned into seconds first. -/
def ofUnixDecimal (x : Float) : Except DateFault Moment :=
  let seconds := if x.abs > Float.ofNat maxUnixSeconds then x / 1000 else x
  let whole := (ExactValue.ofFloat seconds).floor
  ofUnix whole (microsOf (seconds - Float.ofInt whole))

/-- The moment that the number in a text stands for, or what is wrong with an integer that stands
for none; nothing if the text is no number. -/
def ofUnixText? (s : List Char) : Option (Except DateFault Moment) :=
  let (negative, s) : Bool × List Char := match s with
    | '-' :: rest => (true, rest)
    | '+' :: rest => (false, rest)
    | rest => (false, rest)
  let digits := s.takeWhile Char.isDigit
  let n := Text.numeral digits
  if digits.isEmpty || wordBound ≤ n then none
  else
    match s.drop digits.length with
    | [] => some (ofUnix (if negative then -(n : Int) else n) 0)
    | '.' :: fraction =>
      if fraction.all Char.isDigit then
        let x := decimalSum n fraction
        match ofUnixDecimal (if negative then -x else x) with
        | .error .beforeCalendar | .error .afterCalendar => none
        | r => some r
      else none
    | _ => none

end Moment

end CrmQuery
