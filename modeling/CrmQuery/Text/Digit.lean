/-!
# Digits and numerals

Every script has its own ten digits, which follow one another from zero to nine.  `digit?` is the
value of a digit, and `numeral` the number that a run of digits writes, whatever scripts they are
taken from.  `readNumeral` refuses runs of more than `maxNumeralDigits` digits.  `hexadecimal`
writes a number with a least number of hexadecimal digits.
-/

namespace CrmQuery.Text

/-- The code points of the digits zero, in increasing order. -/
def zeros : List Nat := [
  0x30, 0x660, 0x6F0, 0x7C0, 0x966, 0x9E6, 0xA66, 0xAE6, 0xB66, 0xBE6, 0xC66, 0xCE6, 0xD66,
  0xDE6, 0xE50, 0xED0, 0xF20, 0x1040, 0x1090, 0x17E0, 0x1810, 0x1946, 0x19D0, 0x1A80, 0x1A90,
  0x1B50, 0x1BB0, 0x1C40, 0x1C50, 0xA620, 0xA8D0, 0xA900, 0xA9D0, 0xA9F0, 0xAA50, 0xABF0, 0xFF10,
  0x104A0, 0x10D30, 0x11066, 0x110F0, 0x11136, 0x111D0, 0x112F0, 0x11450, 0x114D0, 0x11650,
  0x116C0, 0x11730, 0x118E0, 0x11950, 0x11C50, 0x11D50, 0x11DA0, 0x16A60, 0x16AC0, 0x16B50,
  0x1D7CE, 0x1D7D8, 0x1D7E2, 0x1D7EC, 0x1D7F6, 0x1E140, 0x1E2F0, 0x1E950, 0x1FBF0
]

/-- The distance of a code point from the last zero up to it, if it is less than ten; the zeros are
in increasing order. -/
def digitFrom? : List Nat → Nat → Option Nat
  | [], _ => none
  | z :: rest, n =>
    if n < z then none else if n < z + 10 then some (n - z) else digitFrom? rest n

/-- The value of a decimal digit of any script. -/
def digit? (c : Char) : Option Nat := digitFrom? zeros c.toNat

/-- Decimal digits of all scripts. -/
def isDigit (c : Char) : Bool := (digit? c).isSome

/-- The number that a run of digits writes, the most significant first. -/
def numeral (ds : List Char) : Nat := ds.foldl (fun n d => 10 * n + (digit? d).getD 0) 0

/-- The greatest number of digits of an integer that is read from a text. -/
def maxNumeralDigits : Nat := 4300

/-- A run of so many digits is not read. -/
structure NumeralTooLong where
  digits : Nat
  deriving DecidableEq, Repr

/-- The explanation of a refused numeral. -/
def NumeralTooLong.message (e : NumeralTooLong) : String :=
  "Exceeds the limit (" ++ toString maxNumeralDigits ++
    " digits) for integer string conversion: value has " ++ toString e.digits ++
    " digits; use sys.set_int_max_str_digits() to increase the limit"

/-- The number that a run of digits writes, unless the run is too long. -/
def readNumeral (ds : List Char) : Except NumeralTooLong Nat :=
  if maxNumeralDigits < ds.length then .error ⟨ds.length⟩ else .ok (numeral ds)

/-- A number in hexadecimal digits, filled up with zeros to at least `width` digits. -/
def hexadecimal (width n : Nat) : List Char :=
  let ds := Nat.toDigits 16 n
  List.replicate (width - ds.length) '0' ++ ds

end CrmQuery.Text
