/-!
# Rounding of exact values

`roundDiv` is the integer nearest to a quotient of natural numbers, a half going to the even
neighbour.  `ExactValue` is the exact value of a finite double, an integer times a power of two;
`Float.roundCents` rounds a double to the nearest hundredth and `percentText` writes it as a whole
percentage.
-/

namespace CrmQuery

/-- The integer nearest to `num / den`; a half goes to the even neighbour. -/
def roundDiv (num den : Nat) : Nat :=
  let q := num / den
  let r := num % den
  if 2 * r < den then q
  else if den < 2 * r then q + 1
  else if q % 2 = 0 then q else q + 1

/-- Integers below this size fit into a signed word of 64 bits. -/
def wordBound : Nat := Nat.pow 2 63

/-- The number `mantissa * 2 ^ exponent`, with its sign. -/
structure ExactValue where
  negative : Bool
  mantissa : Nat
  exponent : Int
  deriving DecidableEq, Repr

namespace ExactValue

/-- The exact value of a finite double. -/
def ofFloat (x : Float) : ExactValue :=
  let bits := x.toBits.toNat
  let field := bits / Nat.pow 2 52 % Nat.pow 2 11
  let fraction := bits % Nat.pow 2 52
  { negative := bits / Nat.pow 2 63 = 1
    mantissa := if field = 0 then fraction else fraction + Nat.pow 2 52
    exponent := (max field 1 : Nat) - 1075 }

/-- The numerator of the absolute value. -/
def num (v : ExactValue) : Nat := v.mantissa * Nat.pow 2 v.exponent.toNat

/-- The denominator of the absolute value. -/
def den (v : ExactValue) : Nat := Nat.pow 2 (-v.exponent).toNat

/-- The integer part, rounded towards zero. -/
def truncate (v : ExactValue) : Int :=
  let n : Int := (v.num / v.den : Nat)
  if v.negative then -n else n

/-- The greatest integer that is not above the value. -/
def floor (v : ExactValue) : Int :=
  if v.negative && v.num % v.den != 0 then v.truncate - 1 else v.truncate

/-- The integer nearest to the absolute value; a half goes up. -/
def roundHalfUp (v : ExactValue) : Nat := (2 * v.num + v.den) / (2 * v.den)

/-- The value is an integer. -/
def isIntegral (v : ExactValue) : Bool := v.num % v.den == 0

end ExactValue

/-- The double nearest to the hundredth that is nearest to `x`; `x` itself if it is not finite. -/
def roundCents (x : Float) : Float :=
  if x.isFinite then
    let v := ExactValue.ofFloat x
    let y := Float.ofScientific (roundDiv (v.num * 100) v.den) true 2
    if v.negative then -y else y
  else x

/-- A share as a whole percentage: a hundred times the double, rounded to the nearest integer. -/
def percentText (x : Float) : String :=
  let y := x * 100
  if y.isNaN then "nan%"
  else
    let v := ExactValue.ofFloat y
    let digits := if y.isInf then "inf" else toString (roundDiv v.num v.den)
    (if v.negative then "-" else "") ++ digits ++ "%"

end CrmQuery
