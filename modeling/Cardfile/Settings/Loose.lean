import Cardfile.Decimal.Double
import Cardfile.Settings.Tree
import Cardfile.Text.Blank

/-!
# Parts of the looser notations

JSON5 and RON share their comments, their quoted texts and much of their
numbers.
-/

namespace Cardfile.Settings.Loose

/-- The text behind a comment between `/*` and `*/`; where comments nest, the
depth counts how many are open. -/
def dropLongComment? (nests : Bool) :
    Nat → List Char → Option (List Char)
  | _, [] => none
  | depth, '*' :: '/' :: rest =>
      match depth with
      | 0 => some rest
      | depth + 1 => dropLongComment? nests depth rest
  | depth, '/' :: '*' :: rest =>
      dropLongComment? nests (if nests then depth + 1 else depth) rest
  | depth, _ :: rest => dropLongComment? nests depth rest

/-- The text behind blanks and comments, unless a comment has no end. -/
def skip? (nests : Bool) : Nat → List Char → Option (List Char)
  | 0, _ => none
  | fuel + 1, cs =>
      match cs.dropWhile fun c => Text.isBlank c || c == '\uFEFF' with
      | '/' :: '/' :: rest => skip? nests fuel (rest.dropWhile (· != '\n'))
      | '/' :: '*' :: rest => do
          skip? nests fuel (← dropLongComment? nests 0 rest)
      | cs => some cs

/-- Reads a number of given digits in base sixteen as a character. -/
def readCode (digits : List Char) : Option Char := do
  if digits.isEmpty then none
  Text.charOfCode? (← Text.ofDigits? 16 Text.hexDigit? digits)

/-- Whether a character may be part of a name. -/
def isNameChar (c : Char) : Bool :=
  c.isAlphanum || c == '_' || c == '$' || 127 < c.toNat

/-- Whether a name may start with a character. -/
def isNameStart (c : Char) : Bool := isNameChar c && !c.isDigit

/-- Whether a character may be part of a number. -/
def isNumberChar (c : Char) : Bool :=
  c.isAlphanum || c == '.' || c == '_'

/-- Takes the characters of a number behind its sign; a sign may stand behind
an exponent mark. -/
def takeNumber (cs : List Char) : List Char × List Char :=
  let run := cs.takeWhile isNumberChar
  let rest := cs.dropWhile isNumberChar
  let isExponent := (run.getLast?.map Char.toLower) == some 'e' &&
    run.take 2 != ['0', 'x'] && run.take 2 != ['0', 'X']
  match rest with
  | sign :: more =>
      if isExponent && (sign == '+' || sign == '-') then
        (run ++ sign :: more.takeWhile isNumberChar,
          more.dropWhile isNumberChar)
      else (run, rest)
  | [] => (run, [])

/-- A whole number of 64 bits as a setting. -/
def integer? (negative : Bool) (number : Nat) : Option Tree :=
  let number : Int := if negative then -number else number
  if Text.isSigned 64 number then some (.ofInt number) else none

/-- The setting of a number in base ten, written with or without a point. -/
def readNumber? (negative : Bool) (cs : List Char) : Option Tree := do
  let isMark (c : Char) : Bool := c == 'e' || c == 'E'
  let base := cs.takeWhile fun c => !isMark c
  let whole := base.takeWhile (· != '.')
  let places := (base.dropWhile (· != '.')).drop 1
  if (whole ++ places).isEmpty then none
  let magnitude ← Text.ofDigits? 10 Text.digit? (whole ++ places)
  let exponent ← match cs.dropWhile fun c => !isMark c with
    | [] => some 0
    | _ :: exponent => (Text.readSigned 32 exponent).toOption
  let real := Tree.plain <|
    Decimal.showDouble negative ⟨magnitude, places.length - exponent⟩
  if whole.length = cs.length then
    (integer? negative magnitude).orElse fun _ => some real
  else some real

/-- The setting of digits in another base than ten. -/
def readBased? (negative : Bool) (base : Nat) (cs : List Char) :
    Option Tree := do
  if cs.isEmpty then none
  let digit? (c : Char) : Option Nat :=
    (Text.hexDigit? c).filter (· < base)
  integer? negative (← Text.ofDigits? base digit? cs)

end Cardfile.Settings.Loose
