/-!
# Whole numbers in text

A numeral is an optional sign and ASCII digits.  It is read from the left and
the number so far is held against its range after every digit, so the first
problem is the one reported.
-/

namespace Cardfile.Text

/-- Why a text is not a whole number of its range. -/
inductive NumeralFault where
  | empty
  | badDigit
  | tooLarge
  | tooSmall
deriving DecidableEq, Repr

/-- The value of an ASCII digit. -/
def digit? (c : Char) : Option Nat :=
  if '0' ≤ c ∧ c ≤ '9' then some (c.toNat - 48) else none

/-- Reads digits after the number `soFar`, adding them when `positive` and
subtracting them otherwise. -/
def readDigits (low high : Int) (positive : Bool) (soFar : Int) :
    List Char → Except NumeralFault Int
  | [] => .ok soFar
  | c :: cs =>
      match digit? c with
      | none => .error .badDigit
      | some digit =>
          if positive then
            let next := soFar * 10 + digit
            if high < next then .error .tooLarge
            else readDigits low high positive next cs
          else
            let next := soFar * 10 - digit
            if next < low then .error .tooSmall
            else readDigits low high positive next cs

/-- Reads a whole number between `low` and `high`. -/
def readInteger (low high : Int) : List Char → Except NumeralFault Int
  | [] => .error .empty
  | ['+'] => .error .badDigit
  | ['-'] => .error .badDigit
  | '+' :: digits => readDigits low high true 0 digits
  | '-' :: digits => readDigits low high false 0 digits
  | digits => readDigits low high true 0 digits

/-- The least signed number of a width in bits. -/
def leastSigned (bits : Nat) : Int := -((1 <<< (bits - 1) : Nat) : Int)

/-- The greatest signed number of a width in bits. -/
def greatestSigned (bits : Nat) : Int := ((1 <<< (bits - 1) : Nat) : Int) - 1

/-- Whether a number is a signed number of a width in bits. -/
def isSigned (bits : Nat) (number : Int) : Bool :=
  leastSigned bits ≤ number && number ≤ greatestSigned bits

/-- Reads a signed number of a width in bits. -/
def readSigned (bits : Nat) (cs : List Char) : Except NumeralFault Int :=
  readInteger (leastSigned bits) (greatestSigned bits) cs

/-- A whole number in decimal digits, a minus sign in front of a negative one.
-/
def showInteger (number : Int) : String :=
  if number < 0 then "-" ++ Nat.repr number.natAbs
  else Nat.repr number.natAbs

/-- The decimal digits of a number, filled up with zeros to a width. -/
def padded (width number : Nat) : String :=
  let digits := Nat.repr number
  String.ofList (List.replicate (width - digits.length) '0') ++ digits

/-- The value of a digit in base sixteen. -/
def hexDigit? (c : Char) : Option Nat :=
  if '0' ≤ c ∧ c ≤ '9' then some (c.toNat - 48)
  else if 'a' ≤ c ∧ c ≤ 'f' then some (c.toNat - 87)
  else if 'A' ≤ c ∧ c ≤ 'F' then some (c.toNat - 55)
  else none

/-- The number that digits of a base stand for, as long as all of them are
digits. -/
def ofDigits? (base : Nat) (digit? : Char → Option Nat) (cs : List Char) :
    Option Nat :=
  cs.foldlM (fun number c => (number * base + ·) <$> digit? c) 0

/-- The character of a code point, if it is one. -/
def charOfCode? (code : Nat) : Option Char :=
  if h : code.isValidChar then some (Char.ofNatAux code h) else none

end Cardfile.Text
