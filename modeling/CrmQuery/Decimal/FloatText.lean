import CrmQuery.Decimal.Rounding

/-!
# Text of doubles

`shortest?` finds the fewest decimal digits that read back as a given positive finite double, and
among decimals with that many digits the one nearest to it.  A decimal reads back as the double if
it lies in the interval of numbers that round to it; for each number of digits only the two
neighbours of the double on the grid of such decimals can be nearest.

`floatText` writes a double by its shortest decimal, positionally from `0.0001` up to sixteen digits
before the point and with an exponent of at least two digits elsewhere; a positional text always has
a digit after the point.  `floatOfDecimal` is the double nearest to a decimal.
-/

namespace CrmQuery

/-! ### The shortest decimal -/

/-- The number `digits * 10 ^ exponent`. -/
structure Decimal where
  digits : Nat
  exponent : Int
  deriving DecidableEq, Repr

namespace ExactValue

/-- The number of digits before the point, or minus the number of zeros after it: `v` lies between
`10 ^ (scale - 1)` and `10 ^ scale`. -/
def scale (v : ExactValue) : Int :=
  if v.den ≤ v.num then (toString (v.num / v.den)).length
  else -(((List.range 400).find? fun z => v.den ≤ v.num * Nat.pow 10 (z + 1)).getD 400)

/-- The distance to the next smaller double is half the distance to the next larger one. -/
def isLowest (v : ExactValue) : Bool := v.mantissa == Nat.pow 2 52 && v.exponent != -1074

/-- A number, four times which is `num / den`, rounds to the double `v`; the end points of the
interval of such numbers belong to it if the mantissa is even. -/
def admits (v : ExactValue) (num den : Nat) : Bool :=
  let center := 4 * v.num * den
  let above := 2 * v.num / v.mantissa * den
  let below := if v.isLowest then above / 2 else above
  let point := num * v.den
  if v.mantissa % 2 = 0 then center - below ≤ point && point ≤ center + above
  else center - below < point && point < center + above

/-- The decimal of `n` digits that reads back as `v` and is nearest to it, if there is any; of two
equally near ones, the even one. -/
def withDigits (v : ExactValue) (n : Nat) : Option Decimal :=
  let e := v.scale - n
  let up := Nat.pow 10 (-e).toNat
  let down := Nat.pow 10 e.toNat
  let d := v.num * up / (v.den * down)
  let low := v.admits (4 * d * down) up
  let high := v.admits (4 * (d + 1) * down) up
  let twice := 2 * (v.num * up)
  let middle := (2 * d + 1) * (v.den * down)
  let nearLow := twice < middle || twice == middle && d % 2 == 0
  if low && (nearLow || !high) then some ⟨d, e⟩
  else if high then some ⟨d + 1, e⟩
  else none

/-- The shortest decimal that reads back as `v`. -/
def shortest (v : ExactValue) : Decimal :=
  ((List.range' 1 17).findSome? v.withDigits).getD ⟨v.num, 0⟩

end ExactValue

/-! ### The text -/

/-- The digits of a decimal without its trailing zeros, and where its point stands. -/
def significant (d : Decimal) : List Char × Int :=
  let all := (toString d.digits).toList
  let kept := (all.reverse.dropWhile (· == '0')).reverse
  (kept, all.length + d.exponent)

/-- The digits of a positive number with the decimal point after `point` of them. -/
def positional (ds : List Char) (point : Int) : List Char :=
  if point ≤ 0 then ['0', '.'] ++ List.replicate (-point).toNat '0' ++ ds
  else
    let n := point.toNat
    let whole := ds.take n ++ List.replicate (n - ds.length) '0'
    let fraction := ds.drop n
    whole ++ ['.'] ++ (if fraction.isEmpty then ['0'] else fraction)

/-- One digit before the point, and the power of ten. -/
def scientific (ds : List Char) (point : Int) : List Char :=
  let e := point - 1
  let size := (toString e.natAbs).toList
  let head := ds.take 1 ++ (if ds.length ≤ 1 then [] else '.' :: ds.drop 1)
  head ++ ['e', if e < 0 then '-' else '+'] ++ List.replicate (2 - size.length) '0' ++ size

/-- The shortest text that reads back as the double. -/
def floatText (x : Float) : String :=
  if x.isNaN then "nan"
  else
    let v := ExactValue.ofFloat x
    let body :=
      if x.isInf then "inf".toList
      else if v.mantissa = 0 then "0.0".toList
      else
        let (ds, point) := significant v.shortest
        if -4 < point ∧ point ≤ 16 then positional ds point else scientific ds point
    String.ofList (if v.negative then '-' :: body else body)

/-- The double nearest to `digits * 10 ^ exponent`; beyond the range of doubles it is zero or
infinite. -/
def floatOfDecimal (digits : Nat) (exponent : Int) : Float :=
  let size : Int := (toString digits).length
  if digits = 0 ∨ size + exponent < -400 then 0
  else if 400 < size + exponent then 1.0 / 0.0
  else Float.ofScientific digits (exponent < 0) exponent.natAbs

end CrmQuery
