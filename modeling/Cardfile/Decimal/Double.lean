import Cardfile.Decimal.Text

/-!
# Numbers of double precision

A double is a whole number of 53 bits times a power of two.  A decimal is read
as the nearest double, and a double is written with the fewest digits that
read back as it, all of them in place and without an exponent.
-/

namespace Cardfile.Decimal

/-- The positive number `mantissa * 2 ^ exponent`. -/
structure Double where
  mantissa : Nat
  exponent : Int
deriving DecidableEq

namespace Double

/-- The smallest exponent of a double. -/
def leastExponent : Int := -1074

/-- The quotient of two numbers, divided by a power of two and rounded half to
even. -/
def scaledQuotient (number divisor : Nat) (exponent : Int) : Nat :=
  divHalfEven (number <<< (-exponent).toNat) (divisor <<< exponent.toNat)

/-- The double nearest to a positive quotient. -/
def ofQuotient (number divisor : Nat) : Double :=
  let guess : Int := (number.log2 : Int) - divisor.log2 - 52
  let wide := max guess leastExponent
  let exponent :=
    if number <<< (-wide).toNat < divisor <<< (wide.toNat + 52) then
      max (wide - 1) leastExponent
    else wide
  ⟨scaledQuotient number divisor exponent, exponent⟩

/-- Whether a double is past the largest one. -/
def isInfinite (double : Double) : Bool :=
  1 <<< 1024 ≤ double.mantissa <<< double.exponent.toNat

/-- Twice the bounds of the numbers that read as a double, as quotients by
`2 ^ (-exponent)`, and whether they belong to them. -/
def bounds (double : Double) : Nat × Nat × Bool :=
  let narrow :=
    double.mantissa = 1 <<< 52 && leastExponent < double.exponent
  (if narrow then 4 * double.mantissa - 1 else 4 * double.mantissa - 2,
    4 * double.mantissa + 2, double.mantissa % 2 == 0)

/-- The decimal of `count` digits nearest to a double among those that read as
it.  `top` is the place of its first digit. -/
def shortestWith? (double : Double) (top : Int) (count : Nat) :
    Option Decimal :=
  let scale := (count : Int) - 1 - top
  let up := tenTo scale.toNat <<< double.exponent.toNat
  let down := tenTo (-scale).toNat <<< (-double.exponent).toNat
  let (low, high, inclusive) := double.bounds
  let reads (digits : Nat) : Bool :=
    let place := 4 * digits * down
    if inclusive then low * up ≤ place && place ≤ high * up
    else low * up < place && place < high * up
  let floor := double.mantissa * up / down
  let rest := 2 * (double.mantissa * up % down)
  let nearer := if rest < down then floor else floor + 1
  let farther := if rest < down then floor + 1 else floor
  if reads nearer then some ⟨nearer, scale⟩
  else if reads farther then some ⟨farther, scale⟩
  else none

/-- The decimal with the fewest digits that reads as a double. -/
def shortest (double : Double) (top : Int) : Decimal :=
  ((List.range 17).findSome? fun count =>
    double.shortestWith? top (count + 1)).getD ⟨double.mantissa, 0⟩

end Double

/-- Writes a magnitude with all its digits in place. -/
def showPlain (magnitude : Nat) (scale : Int) : String :=
  let digits := Nat.repr magnitude
  let count : Int := digits.length
  if scale ≤ 0 then digits ++ zeros (-scale)
  else if scale < count then
    let whole := (count - scale).toNat
    let places := (digits.toList.drop whole).reverse.dropWhile (· == '0')
    String.ofList (digits.toList.take whole) ++
      if places.isEmpty then "" else "." ++ String.ofList places.reverse
  else
    let places := digits.toList.reverse.dropWhile (· == '0')
    "0." ++ zeros (scale - count) ++ String.ofList places.reverse

/-- Writes the double nearest to a decimal. -/
def showDouble (negative : Bool) (number : Decimal) : String :=
  let sign := if negative then "-" else ""
  let magnitude := number.mantissa.natAbs
  let top : Int := digitCount magnitude - 1 - number.scale
  if magnitude = 0 || top < -400 then sign ++ "0"
  else if 400 < top then sign ++ "inf"
  else
    let double := Double.ofQuotient
      (magnitude * tenTo (-number.scale).toNat) (tenTo number.scale.toNat)
    if double.mantissa = 0 then sign ++ "0"
    else if double.isInfinite then sign ++ "inf"
    else
      let up := tenTo (-top).toNat <<< double.exponent.toNat
      let down := tenTo top.toNat <<< (-double.exponent).toNat
      let top := if double.mantissa * up < down then top - 1 else top
      let found := double.shortest top
      sign ++ showPlain found.mantissa.natAbs found.scale

end Cardfile.Decimal
