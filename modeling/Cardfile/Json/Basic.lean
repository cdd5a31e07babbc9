import Cardfile.Decimal.Basic
import Cardfile.Text.Numeral

/-!
# JSON text

Reading JSON gives a tree in any case: where the text goes wrong the tree ends
in a `broken` leaf.  Who walks over the tree from the front thus meets a
mistake of form and a mistake of content in the order in which the text has
them.
-/

namespace Cardfile.Json

/-- A number as it is written. -/
structure Literal where
  negative : Bool
  whole : List Char
  fraction : Option (List Char)
  exponent : Option Int
deriving DecidableEq

/-- What JSON text says, up to the place where it goes wrong.  A text is
missing where its escapes name half a surrogate pair. -/
inductive Tree where
  | null
  | bool (value : Bool)
  | number (literal : Literal)
  | text (content : Option String)
  | array (items : List Tree)
  | object (members : List (Option String × Tree))
  | broken

mutual

/-- Whether a tree has no broken leaf. -/
def Tree.isWhole : Tree → Bool
  | .broken => false
  | .array items => areWhole items
  | .object members => areWholeMembers members
  | _ => true

/-- Whether no tree of a list has a broken leaf. -/
def areWhole : List Tree → Bool
  | [] => true
  | item :: items => item.isWhole && areWhole items

/-- Whether no value of a list of members has a broken leaf. -/
def areWholeMembers : List (Option String × Tree) → Bool
  | [] => true
  | member :: members => isWholeMember member && areWholeMembers members

/-- Whether the value of a member has no broken leaf. -/
def isWholeMember : Option String × Tree → Bool
  | (_, value) => value.isWhole

end

namespace Literal

/-- The whole number that a literal writes; minus zero is none. -/
def integer? (literal : Literal) : Option Int :=
  match literal.fraction, literal.exponent with
  | none, none => do
      let magnitude ← Text.ofDigits? 10 Text.digit? literal.whole
      if literal.negative then
        if magnitude = 0 then none else some (-magnitude)
      else some magnitude
  | _, _ => none

/-- The decimal that a literal writes. -/
def decimal (literal : Literal) : Decimal :=
  let places := literal.fraction.getD []
  let magnitude :=
    (Text.ofDigits? 10 Text.digit? (literal.whole ++ places)).getD 0
  ⟨if literal.negative then -(magnitude : Int) else magnitude,
    places.length - literal.exponent.getD 0⟩

/-- Whether a literal is too large for a double. -/
def isHuge (literal : Literal) : Bool :=
  let number := literal.decimal
  !Decimal.less ⟨number.mantissa.natAbs, number.scale⟩
    (.ofInt ((1 <<< 1024) - (1 <<< 970) : Nat))

end Literal

/-- Whether JSON allows a character between its parts. -/
def isSpace (c : Char) : Bool :=
  c == ' ' || c == '\t' || c == '\n' || c == '\r'

/-- The text behind the space at its front. -/
def skipSpace (cs : List Char) : List Char := cs.dropWhile isSpace

/-- Reads the exponent of a number, if there is one. -/
def readExponent (cs : List Char) : Option (Option Int × List Char) :=
  let digits (negative : Bool) (cs : List Char) :
      Option (Option Int × List Char) :=
    match cs.takeWhile Char.isDigit with
    | [] => none
    | run => do
        let exponent ← Text.ofDigits? 10 Text.digit? run
        pure (some (if negative then -(exponent : Int) else exponent),
          cs.dropWhile Char.isDigit)
  match cs with
  | mark :: rest =>
      if mark = 'e' ∨ mark = 'E' then
        match rest with
        | '-' :: rest => digits true rest
        | '+' :: rest => digits false rest
        | rest => digits false rest
      else some (none, cs)
  | [] => some (none, [])

/-- Reads the fraction of a number, if there is one. -/
def readFraction (cs : List Char) :
    Option (Option (List Char) × List Char) :=
  match cs with
  | '.' :: rest =>
      match rest.takeWhile Char.isDigit with
      | [] => none
      | run => some (some run, rest.dropWhile Char.isDigit)
  | rest => some (none, rest)

/-- Reads a number. -/
def readNumber (cs : List Char) : Option (Literal × List Char) := do
  let (negative, cs) := match cs with
    | '-' :: rest => (true, rest)
    | rest => (false, rest)
  let whole := cs.takeWhile Char.isDigit
  if whole.isEmpty then none
  if whole.length > 1 && whole.head? == some '0' then none
  let (fraction, rest) ← readFraction (cs.dropWhile Char.isDigit)
  let (exponent, rest) ← readExponent rest
  pure (⟨negative, whole, fraction, exponent⟩, rest)

/-- Reads four digits in base sixteen. -/
def readCode : List Char → Option (Nat × List Char)
  | a :: b :: c :: d :: rest =>
      (Text.ofDigits? 16 Text.hexDigit? [a, b, c, d]).map (·, rest)
  | _ => none

/-- One unit of a text: a character, or half a surrogate pair. -/
inductive Piece where
  | char (c : Char)
  | half (code : Nat)

/-- The character that a short escape stands for. -/
def shortEscape? (c : Char) : Option Char :=
  match c with
  | '"' => some '"'
  | '\\' => some '\\'
  | '/' => some '/'
  | 'b' => some '\x08'
  | 'f' => some '\x0c'
  | 'n' => some '\n'
  | 'r' => some '\r'
  | 't' => some '\t'
  | _ => none

/-- Reads the units of a text up to its closing quote, at most `count` of
them. -/
def readPieces : Nat → List Char → Option (List Piece × List Char)
  | 0, _ => none
  | _ + 1, [] => none
  | _ + 1, '"' :: rest => some ([], rest)
  | count + 1, '\\' :: 'u' :: rest => do
      let (code, rest) ← readCode rest
      let (pieces, rest) ← readPieces count rest
      let piece := match Text.charOfCode? code with
        | some c => Piece.char c
        | none => Piece.half code
      pure (piece :: pieces, rest)
  | count + 1, '\\' :: c :: rest => do
      let c ← shortEscape? c
      let (pieces, rest) ← readPieces count rest
      pure (Piece.char c :: pieces, rest)
  | count + 1, c :: rest =>
      if c.toNat < 32 ∨ c = '\\' then none
      else do
        let (pieces, rest) ← readPieces count rest
        pure (Piece.char c :: pieces, rest)

/-- The characters of a text, if each half of a surrogate pair has its other
half. -/
def joinPieces? : List Piece → Option (List Char)
  | [] => some []
  | .char c :: rest => (c :: ·) <$> joinPieces? rest
  | .half high :: .half low :: rest =>
      if high < 0xDC00 ∧ 0xDC00 ≤ low then
        let code := 0x10000 + (high - 0xD800) * 1024 + (low - 0xDC00)
        (Char.ofNat code :: ·) <$> joinPieces? rest
      else none
  | .half _ :: _ => none

/-- Reads a text behind its opening quote. -/
def readText (cs : List Char) : Option (Option String × List Char) :=
  (readPieces (cs.length + 1) cs).map fun (pieces, rest) =>
    ((joinPieces? pieces).map String.ofList, rest)

/-- The text behind a given word. -/
def dropWord? (word : List Char) (cs : List Char) : Option (List Char) :=
  if cs.take word.length = word then some (cs.drop word.length) else none

/-- A tree with the text behind it, or a tree that ends in a broken leaf. -/
abbrev Step (α : Type) := α × Option (List Char)

/-- A simple value with the text behind it, broken if it could not be read. -/
def leaf (result : Option (Tree × List Char)) : Step Tree :=
  match result with
  | some (tree, rest) => (tree, some rest)
  | none => (.broken, none)

mutual

/-- Reads a value. -/
def readValue : Nat → List Char → Step Tree
  | 0, _ => (.broken, none)
  | fuel + 1, cs =>
      match skipSpace cs with
      | [] => (.broken, none)
      | '[' :: rest =>
          match skipSpace rest with
          | ']' :: rest => (.array [], some rest)
          | rest =>
              let (items, rest) := readItems fuel rest
              (.array items, rest)
      | '\x7b' :: rest =>
          match skipSpace rest with
          | '\x7d' :: rest => (.object [], some rest)
          | rest =>
              let (members, rest) := readMembers fuel rest
              (.object members, rest)
      | '"' :: rest =>
          leaf ((readText rest).map fun (text, rest) => (.text text, rest))
      | 'n' :: rest =>
          leaf ((dropWord? "ull".toList rest).map (.null, ·))
      | 't' :: rest =>
          leaf ((dropWord? "rue".toList rest).map (.bool true, ·))
      | 'f' :: rest =>
          leaf ((dropWord? "alse".toList rest).map (.bool false, ·))
      | cs =>
          leaf ((readNumber cs).map fun (literal, rest) =>
            (.number literal, rest))

/-- Reads the items of an array and its closing bracket. -/
def readItems : Nat → List Char → Step (List Tree)
  | 0, _ => ([.broken], none)
  | fuel + 1, cs =>
      match readValue fuel cs with
      | (item, none) => ([item], none)
      | (item, some rest) =>
          match skipSpace rest with
          | ']' :: rest => ([item], some rest)
          | ',' :: rest =>
              let (items, rest) := readItems fuel rest
              (item :: items, rest)
          | _ => ([item, .broken], none)

/-- Reads the members of an object and its closing brace. -/
def readMembers : Nat → List Char → Step (List (Option String × Tree))
  | 0, _ => ([(none, .broken)], none)
  | fuel + 1, cs =>
      match skipSpace cs with
      | '"' :: rest =>
          match readText rest with
          | none => ([(none, .broken)], none)
          | some (key, rest) =>
              match skipSpace rest with
              | ':' :: rest =>
                  match readValue fuel rest with
                  | (value, none) => ([(key, value)], none)
                  | (value, some rest) =>
                      match skipSpace rest with
                      | '\x7d' :: rest => ([(key, value)], some rest)
                      | ',' :: rest =>
                          let (members, rest) := readMembers fuel rest
                          ((key, value) :: members, rest)
                      | _ => ([(key, value), (none, .broken)], none)
              | _ => ([(key, .broken)], none)
      | _ => ([(none, .broken)], none)

end

/-- Reads the value at the front of a text.  What follows it is left. -/
def readFront (text : String) : Step Tree :=
  let cs := text.toList
  readValue (cs.length + 1) cs

/-- Reads a text that holds one value and nothing else. -/
def read? (text : String) : Option Tree :=
  match readFront text with
  | (tree, some rest) => if rest.all isSpace then some tree else none
  | (_, none) => none

end Cardfile.Json
