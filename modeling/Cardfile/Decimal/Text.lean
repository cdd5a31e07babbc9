import Cardfile.Decimal.Basic
import Cardfile.Text.Blank
import Cardfile.Text.Numeral

/-!
# Decimals in text

A decimal is read from digits with an optional sign, point and exponent.  It
is written with its point in place as long as that is short, and with an
exponent otherwise.
-/

namespace Cardfile.Decimal

/-- Reads the exponent at the end of a decimal, a number of 128 bits. -/
def readExponent? (cs : List Char) : Option Int :=
  (Text.readSigned 128 cs).toOption

/-- Splits the characters at the first exponent mark; without one the exponent
is zero. -/
def splitExponent? (cs : List Char) : Option (List Char × Int) :=
  let isMark (c : Char) : Bool := c == 'e' || c == 'E'
  match cs.dropWhile fun c => !isMark c with
  | [] => some (cs, 0)
  | _ :: exponent =>
      (readExponent? exponent).map
        fun number => (cs.takeWhile fun c => !isMark c, number)

/-- Takes the first point out and counts the places after it.  Underscores are
no places. -/
def takePoint (cs : List Char) : List Char × Nat :=
  match cs.dropWhile (· != '.') with
  | [] => (cs, 0)
  | _ :: places =>
      (cs.takeWhile (· != '.') ++ places, (places.filter (· != '_')).length)

/-- Takes one sign off, unless a plus follows it. -/
def takeSign (sign : Char) : List Char → Bool × List Char
  | c :: '+' :: rest => (false, c :: '+' :: rest)
  | c :: rest => if c = sign then (true, rest) else (false, c :: rest)
  | [] => (false, [])

/-- Reads digits, passing over underscores behind the first digit. -/
def readMagnitude? (cs : List Char) : Option Nat :=
  match cs with
  | [] => none
  | '_' :: _ => none
  | cs =>
      cs.foldlM
        (fun number c =>
          if c = '_' then some number
          else (number * 10 + ·) <$> Text.digit? c)
        0

/-- Reads the digits and signs of a decimal without its point. -/
def readMantissa? (cs : List Char) : Option Int :=
  let (negative, cs) := takeSign '-' cs
  let (_, cs) := takeSign '+' cs
  (readMagnitude? cs).map fun magnitude =>
    if negative then -(magnitude : Int) else magnitude

/-- Whether a written decimal may have a scale. -/
def isScale (scale : Int) : Bool := Text.isSigned 64 scale

/-- Reads the characters of a decimal. -/
def readChars? (cs : List Char) : Option Decimal := do
  let (base, exponent) ← splitExponent? cs
  if base.isEmpty then none
  let (digits, places) := takePoint base
  let scale := (places : Int) - exponent
  if isScale scale then
    (readMantissa? digits).map fun mantissa => ⟨mantissa, scale⟩
  else none

/-- Reads a decimal, blanks around it aside. -/
def read? (text : String) : Option Decimal :=
  readChars? (Text.trimmed text.toList)

/-- Zeros in a row. -/
def zeros (count : Int) : String :=
  String.ofList (List.replicate count.toNat '0')

/-- An exponent with its sign. -/
def showExponent (exponent : Int) : String :=
  if exponent < 0 then "-" ++ Nat.repr exponent.natAbs
  else "+" ++ Nat.repr exponent.natAbs

/-- Writes a magnitude.  A number that starts more than five places behind the
point has its first digit before the point and an exponent; a whole number
that ends in more than fifteen zeros which its mantissa lacks has them counted
in an exponent; all else is written out. -/
def showMagnitude (magnitude : Nat) (scale : Int) : String :=
  let digits := Nat.repr magnitude
  let count : Int := digits.length
  if 5 < scale - count then
    let rest := digits.toList.drop 1
    String.ofList (digits.toList.take 1) ++
      (if rest.isEmpty then "" else "." ++ String.ofList rest) ++
      "E" ++ showExponent (count - scale - 1)
  else if 15 < -scale then
    digits ++ "e+" ++ Nat.repr (-scale).natAbs
  else if scale ≤ 0 then digits ++ zeros (-scale)
  else if scale < count then
    let whole := (count - scale).toNat
    String.ofList (digits.toList.take whole) ++ "." ++
      String.ofList (digits.toList.drop whole)
  else "0." ++ zeros (scale - count) ++ digits

/-- Writes a decimal.  Every zero is written alike. -/
def display (number : Decimal) : String :=
  if number.mantissa = 0 then "0"
  else
    (if number.mantissa < 0 then "-" else "") ++
      showMagnitude number.mantissa.natAbs number.scale

end Cardfile.Decimal
