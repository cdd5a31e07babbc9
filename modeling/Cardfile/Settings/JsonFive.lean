import Cardfile.Settings.Loose

/-!
# Settings in JSON5

JSON with comments, names without quotes, single quotes, commas behind the
last part, and more spellings of numbers.
-/

namespace Cardfile.Settings.JsonFive

/-- Reads a text up to its closing quote. -/
def readText (quote : Char) :
    Nat → List Char → Option (List Char × List Char)
  | 0, _ => none
  | _ + 1, [] => none
  | fuel + 1, '\\' :: 'x' :: a :: b :: rest => do
      let c ← Loose.readCode [a, b]
      let (text, rest) ← readText quote fuel rest
      pure (c :: text, rest)
  | fuel + 1, '\\' :: 'u' :: a :: b :: c :: d :: rest => do
      let c ← Loose.readCode [a, b, c, d]
      let (text, rest) ← readText quote fuel rest
      pure (c :: text, rest)
  | fuel + 1, '\\' :: '\r' :: '\n' :: rest => readText quote fuel rest
  | fuel + 1, '\\' :: c :: rest =>
      if ['\n', '\r', '\u2028', '\u2029'].contains c then
        readText quote fuel rest
      else if c.isDigit && c != '0' || c == 'x' || c == 'u' then none
      else do
        let escaped := match c with
          | 'b' => '\x08'
          | 'f' => '\x0c'
          | 'n' => '\n'
          | 'r' => '\r'
          | 't' => '\t'
          | 'v' => '\x0b'
          | '0' => '\x00'
          | c => c
        let (text, rest) ← readText quote fuel rest
        pure (escaped :: text, rest)
  | fuel + 1, c :: rest =>
      if c = quote then some ([], rest)
      else if c = '\n' ∨ c = '\r' ∨ c = '\\' then none
      else do
        let (text, rest) ← readText quote fuel rest
        pure (c :: text, rest)

/-- Reads a text, if there is one. -/
def readQuoted? : List Char → Option (String × List Char)
  | c :: rest =>
      if c = '"' ∨ c = '\'' then
        (readText c (rest.length + 1) rest).map
          fun (text, rest) => (String.ofList text, rest)
      else none
  | [] => none

/-- Reads a name or a text as a key. -/
def readKey? (cs : List Char) : Option (String × List Char) :=
  match cs with
  | c :: _ =>
      if Loose.isNameStart c then
        some (String.ofList (cs.takeWhile Loose.isNameChar),
          cs.dropWhile Loose.isNameChar)
      else readQuoted? cs
  | [] => none

/-- The setting of a number behind its sign. -/
def ofNumber? (negative : Bool) (cs : List Char) : Option Tree :=
  match cs with
  | '0' :: 'x' :: digits => Loose.readBased? negative 16 digits
  | '0' :: 'X' :: digits => Loose.readBased? negative 16 digits
  | '0' :: c :: _ =>
      if c.isDigit then none else Loose.readNumber? negative cs
  | cs =>
      if cs = "Infinity".toList then
        some (.plain (if negative then "-inf" else "inf"))
      else if cs = "NaN".toList then some (.plain "NaN")
      else Loose.readNumber? negative cs

/-- Reads a value that is no object, array or text. -/
def readSimple (cs : List Char) : Option (Tree × List Char) :=
  let (negative, signed, cs) := match cs with
    | '-' :: rest => (true, true, rest)
    | '+' :: rest => (false, true, rest)
    | rest => (false, false, rest)
  let (run, rest) := Loose.takeNumber cs
  if !signed && run = "null".toList then some (.absent, rest)
  else if !signed && run = "true".toList then some (.ofBool true, rest)
  else if !signed && run = "false".toList then some (.ofBool false, rest)
  else (ofNumber? negative run).map (·, rest)

mutual

/-- Reads a value. -/
def readValue : Nat → List Char → Option (Tree × List Char)
  | 0, _ => none
  | fuel + 1, cs =>
      match cs with
      | '[' :: rest => (readItems fuel rest).map (.list, ·)
      | '\x7b' :: rest =>
          (readMembers fuel [] rest).map
            fun (entries, rest) => (.table entries, rest)
      | '"' :: _ => (readQuoted? cs).map fun (text, rest) => (.text text, rest)
      | '\'' :: _ =>
          (readQuoted? cs).map fun (text, rest) => (.text text, rest)
      | cs => readSimple cs

/-- Reads the items of an array and its closing bracket. -/
def readItems : Nat → List Char → Option (List Char)
  | 0, _ => none
  | fuel + 1, cs => do
      match ← Loose.skip? false cs.length.succ cs with
      | ']' :: rest => some rest
      | cs =>
          let (_, rest) ← readValue fuel cs
          match ← Loose.skip? false rest.length.succ rest with
          | ']' :: rest => some rest
          | ',' :: rest => readItems fuel rest
          | _ => none

/-- Reads the members of an object and its closing brace. -/
def readMembers : Nat → List (String × Tree) → List Char →
    Option (List (String × Tree) × List Char)
  | 0, _, _ => none
  | fuel + 1, entries, cs => do
      match ← Loose.skip? false cs.length.succ cs with
      | '\x7d' :: rest => some (entries, rest)
      | cs =>
          let (key, rest) ← readKey? cs
          match ← Loose.skip? false rest.length.succ rest with
          | ':' :: rest =>
              let rest ← Loose.skip? false rest.length.succ rest
              let (tree, rest) ← readValue fuel rest
              let entries := setKey key tree entries
              match ← Loose.skip? false rest.length.succ rest with
              | '\x7d' :: rest => some (entries, rest)
              | ',' :: rest => readMembers fuel entries rest
              | _ => none
          | _ => none

end

/-- Reads a text that holds one value. -/
def read? (text : String) : Option Tree := do
  let cs ← Loose.skip? false (text.length + 1) text.toList
  let (tree, rest) ← readValue (2 * cs.length + 2) cs
  let rest ← Loose.skip? false rest.length.succ rest
  if rest.isEmpty then some tree else none

end Cardfile.Settings.JsonFive
