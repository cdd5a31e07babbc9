/-!
# Decimal numbers

A decimal is a whole mantissa and a scale, the number of its places after the
point; a negative scale counts zeros before the point.  The scale is kept as
it was written, while comparison is by value.
-/

namespace Cardfile

/-- The number `mantissa * 10 ^ (-scale)`. -/
structure Decimal where
  mantissa : Int
  scale : Int
deriving DecidableEq, Repr

namespace Decimal

instance : Inhabited Decimal := ⟨⟨0, 0⟩⟩

/-- A whole number as a decimal. -/
def ofInt (number : Int) : Decimal := ⟨number, 0⟩

/-- A power of ten. -/
def tenTo (exponent : Nat) : Nat := Nat.pow 10 exponent

/-- How many decimal digits a number has; zero has one. -/
def digitCount (number : Nat) : Nat :=
  (Nat.repr number).length

/-- Compares two positive mantissas at their scales.  Unless both numbers have
their first digit at the same place, that place decides; so no power of ten is
larger than the mantissas need. -/
def compareMagnitude (left : Nat) (leftScale : Int)
    (right : Nat) (rightScale : Int) : Ordering :=
  (compare (digitCount left - leftScale) (digitCount right - rightScale)).then
    (compare (left * tenTo (rightScale - leftScale).toNat)
      (right * tenTo (leftScale - rightScale).toNat))

/-- Compares two decimals by value. -/
def order (left right : Decimal) : Ordering :=
  (compare left.mantissa.sign right.mantissa.sign).then <|
    if left.mantissa = 0 then .eq
    else if 0 < left.mantissa then
      compareMagnitude left.mantissa.natAbs left.scale
        right.mantissa.natAbs right.scale
    else
      compareMagnitude right.mantissa.natAbs right.scale
        left.mantissa.natAbs left.scale

/-- Whether two decimals have the same value. -/
def sameValue (left right : Decimal) : Bool :=
  left.order right == .eq

/-- Whether one decimal has a smaller value than another. -/
def less (left right : Decimal) : Bool :=
  left.order right == .lt

/-- The quotient of two natural numbers rounded to the nearest whole number, a
half to the even one. -/
def divHalfEven (number divisor : Nat) : Nat :=
  let quotient := number / divisor
  match compare (2 * (number % divisor)) divisor with
  | .lt => quotient
  | .gt => quotient + 1
  | .eq => quotient + quotient % 2

/-- A number with the sign of another and a given magnitude. -/
def withSign (sign : Int) (magnitude : Nat) : Int :=
  if sign < 0 then -magnitude else magnitude

/-- The decimal with a scale no larger than `most`, rounded half to even where
places are given up.  A number whose digits all lie more than one place below
the last place kept is zero without any power being formed. -/
def roundedTo (most : Int) (number : Decimal) : Decimal :=
  if number.scale ≤ most then number
  else
    let dropped := (number.scale - most).toNat
    if digitCount number.mantissa.natAbs < dropped then ⟨0, most⟩
    else
      ⟨withSign number.mantissa
        (divHalfEven number.mantissa.natAbs (tenTo dropped)), most⟩

/-- The decimal with no negative scale, if that takes no more than `most`
further zeros. -/
def unfolded? (most : Nat) (number : Decimal) : Option Decimal :=
  if 0 ≤ number.scale then some number
  else if number.mantissa = 0 then some ⟨0, 0⟩
  else if (-number.scale).toNat ≤ most then
    some ⟨number.mantissa * tenTo (-number.scale).toNat, 0⟩
  else none

end Decimal

end Cardfile
