import Cardfile.Settings.Tree
import Cardfile.Text.Blank

/-!
# Settings in INI files

Keys with their values stand one to a line, and a name in brackets starts a
section, which is a table.  Every value is a text.  Values may be quoted, and
a backslash starts an escape.
-/

namespace Cardfile.Settings.Ini

/-- Reads an escape behind its backslash.  A line break is left out. -/
def readEscape : List Char → Option (List Char × List Char)
  | [] => none
  | '0' :: rest => some (['\x00'], rest)
  | 'a' :: rest => some (['\x07'], rest)
  | 'b' :: rest => some (['\x08'], rest)
  | 't' :: rest => some (['\t'], rest)
  | 'r' :: rest => some (['\r'], rest)
  | 'n' :: rest => some (['\n'], rest)
  | '\n' :: rest => some ([], rest)
  | 'x' :: a :: b :: c :: d :: rest => do
      let code ← Text.ofDigits? 16 Text.hexDigit? [a, b, c, d]
      pure ([← Text.charOfCode? code], rest)
  | 'x' :: _ => none
  | c :: rest => some ([c], rest)

/-- Reads characters and escapes up to one that ends them.  The end of the
text is an end too if `endsText` holds. -/
def readUntil (ends : Char → Bool) (endsText : Bool) :
    Nat → List Char → Option (List Char × List Char)
  | 0, _ => none
  | _ + 1, [] => if endsText then some ([], []) else none
  | fuel + 1, c :: rest =>
      if ends c then some ([], c :: rest)
      else if c = '\\' then do
        let (found, rest) ← readEscape rest
        let (text, rest) ← readUntil ends endsText fuel rest
        pure (found ++ text, rest)
      else do
        let (text, rest) ← readUntil ends endsText fuel rest
        pure (c :: text, rest)

/-- The characters without the blanks at their end. -/
def stripEnd (cs : List Char) : List Char :=
  (cs.reverse.dropWhile Text.isBlank).reverse

/-- Reads a value: quoted parts, and a part without quotes that goes on to the
end of the line. -/
def readValue : Nat → Bool → List Char → Option (List Char × List Char)
  | 0, _, _ => none
  | _ + 1, _, [] => some ([], [])
  | fuel + 1, first, c :: rest =>
      if c = '"' ∨ c = '\'' then do
        let (quoted, rest) ← readUntil (· == c) false (fuel + 1) rest
        let (more, rest) ← readValue fuel false (rest.drop 1)
        pure (quoted ++ more, rest)
      else do
        let (plain, rest) ← readUntil (· == '\n') true (fuel + 2) (c :: rest)
        pure (if first then Text.trimmed plain else stripEnd plain, rest)

/-- A file as far as it was read: the entries outside of sections, the
sections, and the one that is open. -/
structure Document where
  entries : List (String × Tree) := []
  sections : List (String × List (String × Tree)) := []
  current : Option String := none

/-- The file with a key set in the open section. -/
def Document.set (document : Document) (key value : String) : Document :=
  match document.current with
  | none =>
      { document with
        entries := setKey key (.text value) document.entries }
  | some name =>
      { document with
        sections := document.sections.map fun (other, entries) =>
          if other = name then (other, setKey key (.text value) entries)
          else (other, entries) }

/-- The file with a section open. -/
def Document.enter (document : Document) (name : String) : Document :=
  { document with
    current := some name
    sections :=
      if document.sections.any fun known => known.1 == name then
        document.sections
      else document.sections ++ [(name, [])] }

/-- The settings of a file.  A section takes the place of a key of its name.
-/
def Document.tree (document : Document) : Tree :=
  .table <| document.sections.foldl
    (fun entries (name, inner) => setKey name (.table inner) entries)
    document.entries

/-- Reads lines up to the end. -/
def readLines : Nat → Document → List Char → Option Document
  | 0, _, _ => none
  | fuel + 1, document, cs =>
      match cs.dropWhile Text.isBlank with
      | [] => some document
      | ';' :: rest => readLines fuel document (rest.dropWhile (· != '\n'))
      | '#' :: rest => readLines fuel document (rest.dropWhile (· != '\n'))
      | '[' :: rest => do
          let (name, rest) ←
            readUntil (· == ']') false (rest.length + 1) rest
          let name := String.ofList (Text.trimmed name)
          readLines fuel (document.enter name) (rest.drop 1)
      | cs => do
          let (key, rest) ←
            readUntil (fun c => c == '=' || c == ':') false (cs.length + 1) cs
          let key := String.ofList (Text.trimmed key)
          if key.isEmpty then none
          let value := (rest.drop 1).dropWhile fun c =>
            Text.isBlank c && c != '\n'
          let (value, rest) ← readValue (value.length + 1) true value
          let value := String.ofList (Text.trimmed value)
          readLines fuel (document.set key value) rest

/-- Reads a file. -/
def read? (text : String) : Option Tree :=
  let cs := text.toList
  (readLines (cs.length + 1) {} cs).map Document.tree

end Cardfile.Settings.Ini
