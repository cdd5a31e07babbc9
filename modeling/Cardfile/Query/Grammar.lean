import Cardfile.Query.Clause
import Cardfile.Query.Parser

/-!
# Grammar of clauses and statements

Words that form a name are ASCII letters, digits and underscores.  A value
stands in single quotes, between which anything but a quote may stand, or is a
bare run of characters that mean nothing else.  Connectives are written in
lower case; the words that make up a statement in any case.
-/

namespace Cardfile.Query

/-- Whether a character belongs to a word. -/
def isWordChar (c : Char) : Bool :=
  c.isAlphanum || c == '_'

/-- Whether a name may start with a character. -/
def isNameStart (c : Char) : Bool :=
  c.isAlpha || c == '_'

/-- Whether a bare value may contain a character. -/
def isBareChar (c : Char) : Bool :=
  !(isGap c || ['\'', ',', '(', ')', ';', '='].contains c)

/-- Whether a word ends at the front of a text. -/
def endsWord (cs : List Char) : Bool :=
  match cs with
  | c :: _ => !isWordChar c
  | [] => true

/-- Reads a name. -/
def readName : List Char → Option (String × List Char)
  | [] => none
  | c :: cs =>
      if isNameStart c then
        some (String.ofList (c :: cs.takeWhile isWordChar),
          cs.dropWhile isWordChar)
      else none

/-- Reads a value in quotes. -/
def readQuoted : List Char → Option (String × List Char)
  | '\'' :: cs =>
      match cs.dropWhile (· != '\'') with
      | _ :: rest => some (String.ofList (cs.takeWhile (· != '\'')), rest)
      | [] => none
  | _ => none

/-- Reads a bare value. -/
def readBare (cs : List Char) : Option (String × List Char) :=
  match cs.takeWhile isBareChar with
  | [] => none
  | run => some (String.ofList run, cs.dropWhile isBareChar)

/-- Reads a word as it is spelled. -/
def readWord (word : String) (cs : List Char) : Option (List Char) :=
  (dropPrefix? word.toList cs).filter endsWord

/-- Reads a word of lower-case letters in any case. -/
def readWordAnyCase (word : String) (cs : List Char) : Option (List Char) :=
  let count := word.toList.length
  if (cs.take count).map Char.toLower = word.toList then
    some (cs.drop count) |>.filter endsWord
  else none

namespace Parser

def name : Parser String := token .field readName

def value : Parser String :=
  (token .quoted readQuoted).orElse (token .bare readBare)

def connective : Parser Connective :=
  (token .andOp fun cs => (readWord "and" cs).map (.and, ·)).orElse
    (token .orOp fun cs => (readWord "or" cs).map (.or, ·))

/-- A word of a statement. -/
def keyword (symbol : Symbol) (word : String) : Parser Unit :=
  token symbol fun cs => (readWordAnyCase word cs).map ((), ·)

/-- A name, an equals sign and a value. -/
def binding : Parser Binding :=
  ((name.keepLeft (literal "=")).seq value).map
    fun (name, text) => ⟨name, text⟩

def condition : Parser (Chain Binding) :=
  let comparison := named .comparison binding
  named .condition <|
    (comparison.seq (many (connective.seq comparison))).map
      fun (first, rest) => ⟨first, rest⟩

def assignments : Parser (List Binding) :=
  named .assignments (separated (named .assignment binding) ",")

def names : Parser Names :=
  named .fieldList <|
    ((named .star (literal "*")).map fun _ => Names.star).orElse
      ((separated name ",").map Names.list)

def values : Parser (List String) :=
  named .valueList (separated value ",")

def whereKeyword : Parser Unit := keyword .whereWord "where"

def insert : Parser Sentence :=
  let opening := literal "("
  let closing := literal ")"
  let head := ((keyword .insertWord "insert").seq opening).keepRight names
  let middle := (closing.seq (keyword .valuesWord "values")).seq opening
  named .insert <|
    (((head.keepLeft middle).seq values).keepLeft closing).map
      fun (names, values) => .insert names values

def select : Parser Sentence :=
  named .select <|
    (((keyword .selectWord "select").keepRight names).seq
      (optional (whereKeyword.keepRight condition))).map
      fun (names, condition) => .select names condition

def update : Parser Sentence :=
  named .update <|
    ((((keyword .updateWord "update").seq
      (keyword .setWord "set")).keepRight assignments).seq
      (optional (whereKeyword.keepRight condition))).map
      fun (assignments, condition) => .update assignments condition

def delete : Parser Sentence :=
  named .delete <|
    (((keyword .deleteWord "delete").seq whereKeyword).keepRight
      condition).map .delete

/-- A condition, or nothing, as a whole text. -/
def whereClause : Parser (Option (Chain Binding)) :=
  whole .whereClause (optional condition)

/-- Assignments as a whole text. -/
def setClause : Parser (List Binding) :=
  whole .setClause assignments

/-- A list of names as a whole text. -/
def selectClause : Parser Names :=
  whole .selectClause names

/-- A statement with an optional semicolon as a whole text. -/
def statement : Parser Sentence :=
  whole .statement <|
    (insert.orElse (select.orElse (update.orElse delete))).keepLeft
      (optional (literal ";"))

end Parser

end Cardfile.Query
