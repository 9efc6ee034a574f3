import CrmQuery.Decimal.FloatText
import CrmQuery.Json.Writer
import CrmQuery.Text.Digit

/-!
# Reading JSON

`Json.read` reads a text as one JSON value.  A malformed text is reported with the number of
characters before the point where reading stopped (`ReadError.malformed`).  Besides the numbers of
the standard the words `NaN`, `Infinity` and `-Infinity` are read.  An integer may have at most
`Text.maxNumeralDigits` digits.
-/

namespace CrmQuery.Json

/-- Why a text could not be read. -/
inductive ReadError where
  /-- Reading stopped after so many characters. -/
  | malformed (position : Nat)
  /-- An integer with so many digits is not read. -/
  | numeralTooLong (digits : Nat)
  deriving DecidableEq, Repr

/-- What is left to read, and the number of characters read so far. -/
structure Input where
  pos : Nat
  rest : List Char

/-- A step of the reader: what was read, and what is left. -/
abbrev Read (α : Type) := Except ReadError (α × Input)

/-- Go on after `n` more characters. -/
def Input.skip (n : Nat) (s : Input) : Input := ⟨s.pos + n, s.rest.drop n⟩

/-- Go on after the white space between tokens. -/
def Input.skipSpace (s : Input) : Input :=
  s.skip (s.rest.takeWhile fun c => c == ' ' || c == '\t' || c == '\n' || c == '\r').length

/-- Reading stops here. -/
def Input.fail {α : Type} (s : Input) : Read α := .error (.malformed s.pos)

/-- The value of a hexadecimal digit. -/
def hexValue? (c : Char) : Option Nat :=
  if '0' ≤ c ∧ c ≤ '9' then some (c.toNat - '0'.toNat)
  else if 'a' ≤ c ∧ c ≤ 'f' then some (c.toNat - 'a'.toNat + 10)
  else if 'A' ≤ c ∧ c ≤ 'F' then some (c.toNat - 'A'.toNat + 10)
  else none

/-- The UTF-16 code unit that four hexadecimal digits write; another character has to follow. -/
def unit? : List Char → Option Nat
  | a :: b :: c :: d :: _ :: _ => do
    return 0x1000 * (← hexValue? a) + 0x100 * (← hexValue? b) + 0x10 * (← hexValue? c) +
      (← hexValue? d)
  | _ => none

/-- The character that a letter after a backslash writes. -/
def escaped? : Char → Option Char
  | '"' => some '"'
  | '\\' => some '\\'
  | '/' => some '/'
  | 'b' => some '\x08'
  | 'f' => some '\x0c'
  | 'n' => some '\n'
  | 'r' => some '\r'
  | 't' => some '\t'
  | _ => none

/-- The second half of a pair of code units, if it follows as an escape. -/
def lowSurrogate? : List Char → Option Nat
  | '\\' :: 'u' :: rest => (unit? rest).filter fun n => 0xDC00 ≤ n && n < 0xE000
  | _ => none

/-- The rest of a quoted text that began at `start`; `acc` holds the characters so far in reverse.
The fuel is the number of characters left. -/
def readQuoted (start : Nat) : Nat → List Char → Input → Read String
  | 0, _, _ => .error (.malformed start)
  | fuel + 1, acc, s =>
    match s.rest with
    | [] => .error (.malformed start)
    | '"' :: _ => .ok (String.ofList acc.reverse, s.skip 1)
    | ['\\'] => .error (.malformed start)
    | '\\' :: 'u' :: rest =>
      match unit? rest with
      | none => (s.skip 1).fail
      | some n =>
        if 0xD800 ≤ n ∧ n < 0xDC00 then
          match lowSurrogate? (rest.drop 4) with
          | some m =>
            let c := Char.ofNat (0x10000 + (n - 0xD800) * 0x400 + (m - 0xDC00))
            readQuoted start fuel (c :: acc) (s.skip 12)
          | none => readQuoted start fuel ('\uFFFD' :: acc) (s.skip 6)
        else if 0xDC00 ≤ n ∧ n < 0xE000 then readQuoted start fuel ('\uFFFD' :: acc) (s.skip 6)
        else readQuoted start fuel (Char.ofNat n :: acc) (s.skip 6)
    | '\\' :: e :: _ =>
      match escaped? e with
      | some c => readQuoted start fuel (c :: acc) (s.skip 2)
      | none => s.fail
    | c :: _ => if c.toNat < 0x20 then s.fail else readQuoted start fuel (c :: acc) (s.skip 1)

/-- The quoted text whose opening quote is the next character. -/
def readString (s : Input) : Read String := readQuoted s.pos s.rest.length [] (s.skip 1)

/-- The digits after a point, if a point and a digit come next. -/
def fraction? : List Char → Option (List Char)
  | '.' :: cs => let ds := cs.takeWhile Char.isDigit; if ds.isEmpty then none else some ds
  | _ => none

/-- The sign and the digits of an exponent and the number of its characters, if one comes next. -/
def exponent? : List Char → Option (Int × Nat)
  | e :: cs =>
    if e = 'e' ∨ e = 'E' then
      let (negative, width, cs) : Bool × Nat × List Char := match cs with
        | '-' :: r => (true, 2, r)
        | '+' :: r => (false, 2, r)
        | r => (false, 1, r)
      let ds := cs.takeWhile Char.isDigit
      if ds.isEmpty then none
      else
        let n : Int := Text.numeral ds
        some (if negative then -n else n, width + ds.length)
    else none
  | [] => none

/-- A number whose sign has been read; `s` stands before its first digit, and `start` before the
sign. -/
def readUnsigned (start : Input) (negative : Bool) (s : Input) : Read Json :=
  match s.rest with
  | [] => start.fail
  | d :: _ =>
    if d.isDigit then
      let whole := if d = '0' then ['0'] else s.rest.takeWhile Char.isDigit
      let s := s.skip whole.length
      let fraction := fraction? s.rest
      let ds := fraction.getD []
      let s := s.skip (if fraction.isSome then ds.length + 1 else 0)
      let power := exponent? s.rest
      let s := s.skip ((power.map (·.2)).getD 0)
      if fraction.isSome || power.isSome then
        let e := (power.map (·.1)).getD 0 - ds.length
        let x := floatOfDecimal (Text.numeral (whole ++ ds)) e
        .ok (.float (if negative then -x else x), s)
      else if Text.maxNumeralDigits < whole.length then .error (.numeralTooLong whole.length)
      else
        let n : Int := Text.numeral whole
        .ok (.int (if negative then -n else n), s)
    else start.fail

/-- A word that stands for a value, if it comes next. -/
def readWord (word : String) (value : Json) (s : Input) : Read Json :=
  if word.toList.isPrefixOf s.rest then .ok (value, s.skip word.length) else s.fail

/-- A number, or one of the words that stand for a value. -/
def readScalar (s : Input) : Read Json :=
  match s.rest with
  | 'n' :: _ => readWord "null" null s
  | 't' :: _ => readWord "true" (bool true) s
  | 'f' :: _ => readWord "false" (bool false) s
  | 'N' :: _ => readWord "NaN" (float (0.0 / 0.0)) s
  | 'I' :: _ => readWord "Infinity" (float (1.0 / 0.0)) s
  | '-' :: 'I' :: _ => readWord "-Infinity" (float (-1.0 / 0.0)) s
  | '-' :: _ => readUnsigned s true (s.skip 1)
  | _ => readUnsigned s false s

mutual

/-- The next value.  Every step to a part of it has less fuel, which the length of the text
bounds. -/
def readValue : Nat → Input → Except ReadError (Json × Input)
  | 0, s => s.fail
  | fuel + 1, s =>
    match s.rest with
    | '"' :: _ => do
      let (t, s) ← readString s
      return (string t, s)
    | '[' :: _ => do
      let s := (s.skip 1).skipSpace
      if s.rest.head? = some ']' then return (array [], s.skip 1)
      let (items, s) ← readItems fuel s
      return (array items, s)
    | '\x7b' :: _ => do
      let s := (s.skip 1).skipSpace
      if s.rest.head? = some '\x7d' then return (object [], s.skip 1)
      let (fields, s) ← readFields fuel [] s
      return (object fields, s)
    | _ => readScalar s

/-- The items of an array up to its closing bracket. -/
def readItems : Nat → Input → Except ReadError (List Json × Input)
  | 0, s => s.fail
  | fuel + 1, s => do
    let (item, s) ← readValue fuel s
    let s := s.skipSpace
    match s.rest with
    | ']' :: _ => return ([item], s.skip 1)
    | ',' :: _ => do
      let (items, s) ← readItems fuel (s.skip 1).skipSpace
      return (item :: items, s)
    | _ => s.fail

/-- The fields of an object up to its closing brace, after those read before. -/
def readFields : Nat → List (String × Json) → Input →
    Except ReadError (List (String × Json) × Input)
  | 0, _, s => s.fail
  | fuel + 1, fields, s => do
    if s.rest.head? ≠ some '"' then throw (.malformed s.pos)
    let (key, s) ← readString s
    let s := s.skipSpace
    if s.rest.head? ≠ some ':' then throw (.malformed s.pos)
    let (value, s) ← readValue fuel (s.skip 1).skipSpace
    let fields := setField key value fields
    let s := s.skipSpace
    match s.rest with
    | '\x7d' :: _ => return (fields, s.skip 1)
    | ',' :: _ => readFields fuel fields (s.skip 1).skipSpace
    | _ => s.fail

end

/-- The value that a text writes. -/
def read (text : String) : Except ReadError Json := do
  let cs := text.toList
  let (value, s) ← readValue (cs.length + 1) (Input.skipSpace ⟨0, cs⟩)
  let s := s.skipSpace
  if s.rest.isEmpty then return value else .error (.malformed s.pos)

end CrmQuery.Json
