import CrmQuery.Calendar.Unix
import CrmQuery.Domain
import CrmQuery.Json.Reader
import CrmQuery.Text.Word
import CrmQuery.Validation.Fault

/-!
# Lenient readings of simple values

Numbers may also be given as texts, with blanks around them or single underscores between their
digits, and truth values count as one and zero.  An integer may have zeros in front and a zero
fraction.
-/

namespace CrmQuery.Lenient

open Checked

/-- Two underscores stand next to each other. -/
def hasDoubleUnderscore (s : List Char) : Bool :=
  (s.zip (s.drop 1)).any fun p => p.1 == '_' && p.2 == '_'

/-- A text without the underscores between its characters; two of them in a row, or one at either
end, are not allowed. -/
def withoutUnderscores? (s : List Char) : Option (List Char) :=
  if s.head? = some '_' ∨ s.getLast? = some '_' ∨ hasDoubleUnderscore s then none
  else some (s.filter (· != '_'))

/-- A text without its sign; true means a minus. -/
def splitSign : List Char → Bool × List Char
  | '-' :: rest => (true, rest)
  | '+' :: rest => (false, rest)
  | rest => (false, rest)

/-! ### Integers -/

/-- The integer that a text writes in plain form: a minus if it is negative, and digits of which the
first is zero only if it is the only one.  A run of too many digits is refused whatever follows. -/
def plainInt (s : List Char) : Except FaultKind Int :=
  let (negative, rest) : Bool × List Char := match s with
    | '-' :: rest => (true, rest)
    | rest => (false, rest)
  let digits := rest.takeWhile Char.isDigit
  let width := if negative then digits.length + 1 else digits.length
  let n : Int := Text.numeral digits
  if digits.isEmpty ∨ digits.head? = some '0' ∧ rest ≠ ['0'] then .error .malformedInt
  else if Text.maxNumeralDigits < width then .error .oversizedInt
  else if digits.length < rest.length then .error .malformedInt
  else .ok (if negative then -n else n)

/-- What follows a padding of zeros and underscores that ends with `last`: the number with its sign.
Before a point, or if nothing follows, the end of the padding belongs to the number. -/
def afterPadding? (last : Char) : List Char → Option (List Char)
  | [] => some [last]
  | c :: rest =>
    if c = '0' ∨ c = '_' then afterPadding? c rest
    else if c = '.' then some (last :: c :: rest)
    else if c = '-' ∨ c.isDigit then some (c :: rest)
    else none

/-- A number without the zeros in front of it. -/
def withoutPadding? : List Char → Option (List Char)
  | [] => none
  | c :: rest =>
    if c = '0' then afterPadding? c rest
    else if c = '-' ∨ c.isDigit then some (c :: rest)
    else none

/-- A text without a point and the zeros after it. -/
def withoutZeroFraction (s : List Char) : List Char :=
  let whole := s.takeWhile (· != '.')
  if ((s.drop whole.length).drop 1).all (· == '0') then whole else s

/-- A number without the zeros in front of it and after its point, and without underscores. -/
def bareNumber? (s : List Char) : Option (List Char) := do
  withoutUnderscores? (withoutZeroFraction (← withoutPadding? s))

/-- The plain form of the text of an integer.  A minus may come before the zeros in front of the
number or after them; no second sign may follow a first one. -/
def plainForm? (s : List Char) : Option (List Char) :=
  let s := Text.stripBy Text.isSpace s
  if hasDoubleUnderscore s then none
  else
    match s with
    | '+' :: '-' :: _ => none
    | '-' :: '-' :: _ => none
    | '+' :: rest => bareNumber? rest
    | '-' :: rest => (bareNumber? rest).map ('-' :: ·)
    | rest => bareNumber? rest

/-- The integer that a text writes. -/
def intOfText (s : List Char) : Except FaultKind Int :=
  match plainInt s with
  | .error .malformedInt =>
    match plainForm? s with
    | some t => plainInt t
    | none => .error .malformedInt
  | r => r

/-! ### Doubles -/

/-- The words for infinity and for no number. -/
def specialFloat? (s : List Char) : Option Float :=
  match String.ofList (s.map Char.toLower) with
  | "inf" | "infinity" => some (1.0 / 0.0)
  | "nan" => some (0.0 / 0.0)
  | _ => none

/-- The number that digits with a point and an exponent write; there is a digit before or after the
point. -/
def decimalOfText? (s : List Char) : Option Float := do
  let whole := s.takeWhile Char.isDigit
  let s := s.drop whole.length
  let (fraction, s) : List Char × List Char := match s with
    | '.' :: rest => let ds := rest.takeWhile Char.isDigit; (ds, rest.drop ds.length)
    | rest => ([], rest)
  if whole.isEmpty && fraction.isEmpty then none
  let (power, width) ← if s.isEmpty then some (0, 0) else Json.exponent? s
  if width ≠ s.length then none
  return floatOfDecimal (Text.numeral (whole ++ fraction)) (power - fraction.length)

/-- The number that a text without underscores writes. -/
def signedFloat? (s : List Char) : Option Float := do
  let (negative, s) := splitSign s
  let x ← (specialFloat? s).or (decimalOfText? s)
  return if negative then -x else x

/-- The number that a text writes, with blanks around it or with underscores in it. -/
def floatOfText? (s : List Char) : Option Float :=
  (signedFloat? (Text.stripBy Text.isSpace s)).or ((withoutUnderscores? s).bind signedFloat?)

/-! ### Values -/

/-- One or zero. -/
def ofBool (b : Bool) : Int := if b then 1 else 0

/-- An integer, or something that stands for one. -/
def int : Json → Checked Int
  | .int i => .ok i
  | .bool b => .ok (ofBool b)
  | .float x =>
    if !x.isFinite then fault .infiniteInt
    else
      let v := ExactValue.ofFloat x
      if !v.isIntegral then fault .fractionalInt
      else if v.truncate.natAbs < wordBound then .ok v.truncate
      else fault .oversizedInt
  | .string s => (intOfText s.toList).mapError fun kind => [⟨[], kind⟩]
  | _ => fault .notInt

/-- A number, or something that stands for one. -/
def float : Json → Checked Float
  | .float x => .ok x
  | .int i => .ok (Float.ofInt i)
  | .bool b => .ok (Float.ofInt (ofBool b))
  | .string s =>
    match floatOfText? s.toList with
    | some x => .ok x
    | none => fault .malformedFloat
  | _ => fault .notFloat

/-- A text. -/
def string : Json → Checked String
  | .string s => .ok s
  | _ => fault .notString

/-- Any value. -/
def any : Json → Checked Json := .ok

/-- An array; anything else is a fault of the given kind. -/
def list {α : Type} (kind : FaultKind) (item : Json → Checked α) : Json → Checked (List α)
  | .array items => each item 0 items
  | _ => fault kind

/-- An object with any fields. -/
def fields : Json → Checked (List (String × Json))
  | .object fields => .ok fields
  | _ => fault .notObject

/-- A value or nothing. -/
def nullable {α : Type} (check : Json → Checked α) : Json → Checked (Option α)
  | .null => .ok none
  | v => (check v).map some

/-- The member of an enumeration that a text names. -/
def named {α : Type} (all : List α) (name : α → String) (v : Json) : Checked α :=
  match v with
  | .string s =>
    match named? all name s with
    | some a => .ok a
    | none => fault (.notNamed (all.map name))
  | _ => fault (.notNamed (all.map name))

/-- The member of a small fixed set that a text stands for. -/
def literal {α : Type} (all : List α) (name : α → String) (v : Json) : Checked α :=
  match v with
  | .string s =>
    match named? all name s with
    | some a => .ok a
    | none => fault (.notLiteral (all.map name))
  | _ => fault (.notLiteral (all.map name))

/-- What is wrong with a text that is no moment; the year zero is left out of the calendar, though
its dates are well written. -/
def momentTextFault : DateFault → FaultKind
  | .yearZero => .momentOutOfRange .yearZero
  | e => .malformedMoment e

/-- A moment as a text or as a number of seconds, or a date, which stands for its midnight. -/
def moment : Json → Checked Moment
  | .string s =>
    ((Moment.ofUnixText? s.toList).getD (Moment.read s.toList)).mapError fun e =>
      [⟨[], momentTextFault e⟩]
  | .int i =>
    if i.natAbs < wordBound then
      (Moment.ofUnix i 0).mapError fun e => [⟨[], .momentOutOfRange e⟩]
    else fault .notMoment
  | .float x => (Moment.ofUnixFloat x).mapError fun e => [⟨[], .momentOutOfRange e⟩]
  | _ => fault .notMoment

/-- A text whose length lies within bounds. -/
def boundedString (least most : Nat) (v : Json) : Checked String := do
  let s ← string v
  if s.length < least then fault (.tooShort least)
  else if most < s.length then fault (.tooLong most)
  else .ok s

end CrmQuery.Lenient
