import Cardfile.Settings.Loose

/-!
# Settings in RON

Tables are structures in parentheses, with an optional name in front, or maps
in braces.  A value may be wrapped in `Some`, and `None` is no value.
-/

namespace Cardfile.Settings.Ron

/-- Reads an escape behind its backslash. -/
def readEscape : List Char → Option (Char × List Char)
  | 'n' :: rest => some ('\n', rest)
  | 'r' :: rest => some ('\r', rest)
  | 't' :: rest => some ('\t', rest)
  | '0' :: rest => some ('\x00', rest)
  | '\'' :: rest => some ('\'', rest)
  | '"' :: rest => some ('"', rest)
  | '\\' :: rest => some ('\\', rest)
  | 'x' :: a :: b :: rest => do
      let c ← Loose.readCode [a, b]
      pure (c, rest)
  | 'u' :: '\x7b' :: rest => do
      let digits := rest.takeWhile (· != '\x7d')
      if 6 < digits.length then none
      let c ← Loose.readCode digits
      pure (c, (rest.dropWhile (· != '\x7d')).drop 1)
  | _ => none

/-- Reads a text up to its closing quote. -/
def readText : Nat → List Char → Option (List Char × List Char)
  | 0, _ => none
  | _ + 1, [] => none
  | _ + 1, '"' :: rest => some ([], rest)
  | fuel + 1, '\\' :: rest => do
      let (c, rest) ← readEscape rest
      let (text, rest) ← readText fuel rest
      pure (c :: text, rest)
  | fuel + 1, c :: rest => do
      let (text, rest) ← readText fuel rest
      pure (c :: text, rest)

/-- Reads a raw text up to a quote with a number of hash signs behind it. -/
def readRaw (hashes : Nat) : List Char → Option (List Char × List Char)
  | [] => none
  | c :: rest =>
      if c = '"' ∧ rest.take hashes = List.replicate hashes '#' then
        some ([], rest.drop hashes)
      else (readRaw hashes rest).map fun (text, rest) => (c :: text, rest)

/-- Reads a text or a character, if there is one. -/
def readQuoted? (cs : List Char) : Option (String × List Char) :=
  let asText (found : List Char × List Char) : String × List Char :=
    (String.ofList found.1, found.2)
  match cs with
  | '"' :: rest => (readText (rest.length + 1) rest).map asText
  | 'r' :: rest =>
      match rest.dropWhile (· == '#') with
      | '"' :: after =>
          (readRaw (rest.takeWhile (· == '#')).length after).map asText
      | _ => none
  | '\'' :: '\\' :: rest => do
      match ← readEscape rest with
      | (c, '\'' :: rest) => some (c.toString, rest)
      | _ => none
  | '\'' :: c :: '\'' :: rest => some (c.toString, rest)
  | _ => none

/-- The setting of a number behind its sign; underscores may stand between
digits. -/
def ofNumber? (negative : Bool) (cs : List Char) : Option Tree :=
  let digits (cs : List Char) : List Char := cs.filter (· != '_')
  match cs with
  | '0' :: 'x' :: rest => Loose.readBased? negative 16 (digits rest)
  | '0' :: 'o' :: rest => Loose.readBased? negative 8 (digits rest)
  | '0' :: 'b' :: rest => Loose.readBased? negative 2 (digits rest)
  | '_' :: _ => none
  | cs =>
      if cs = "inf".toList then
        some (.plain (if negative then "-inf" else "inf"))
      else if cs = "NaN".toList then some (.plain "NaN")
      else Loose.readNumber? negative (digits cs)

/-- Reads a value that is neither wrapped nor a text. -/
def readSimple (cs : List Char) : Option (Tree × List Char) :=
  let (negative, signed, cs) := match cs with
    | '-' :: rest => (true, true, rest)
    | '+' :: rest => (false, true, rest)
    | rest => (false, false, rest)
  let (run, rest) := Loose.takeNumber cs
  if !signed && run = "true".toList then some (.ofBool true, rest)
  else if !signed && run = "false".toList then some (.ofBool false, rest)
  else if !signed && run = "None".toList then some (.absent, rest)
  else (ofNumber? negative run).map (·, rest)

/-- Whether the inside of parentheses has names. -/
def hasNames (cs : List Char) : Bool :=
  match cs with
  | c :: _ =>
      Loose.isNameStart c &&
        match Loose.skip? true cs.length.succ
            (cs.dropWhile Loose.isNameChar) with
        | some (':' :: _) => true
        | _ => false
  | [] => false

mutual

/-- Reads a value. -/
def readValue : Nat → List Char → Option (Tree × List Char)
  | 0, _ => none
  | fuel + 1, cs =>
      match readQuoted? cs with
      | some (text, rest) => some (.text text, rest)
      | none =>
          match cs with
          | '[' :: rest => (readItems fuel ']' rest).map (.list, ·)
          | '\x7b' :: rest =>
              (readEntries fuel '\x7d' [] rest).map
                fun (entries, rest) => (.table entries, rest)
          | '(' :: rest => readGroup fuel rest
          | cs =>
              let name := cs.takeWhile Loose.isNameChar
              match cs.dropWhile Loose.isNameChar with
              | '(' :: rest =>
                  if name = "Some".toList then readWrapped fuel rest
                  else if name.isEmpty then none
                  else readGroup fuel rest
              | _ => readSimple cs

/-- Reads a value wrapped in `Some` behind the opening parenthesis. -/
def readWrapped : Nat → List Char → Option (Tree × List Char)
  | 0, _ => none
  | fuel + 1, cs => do
      let cs ← Loose.skip? true cs.length.succ cs
      let (tree, rest) ← readValue fuel cs
      match ← Loose.skip? true rest.length.succ rest with
      | ')' :: rest => some (tree, rest)
      | _ => none

/-- Reads what stands in parentheses: a structure, a row of values, or
nothing. -/
def readGroup : Nat → List Char → Option (Tree × List Char)
  | 0, _ => none
  | fuel + 1, cs => do
      match ← Loose.skip? true cs.length.succ cs with
      | ')' :: rest => some (.absent, rest)
      | cs =>
          if hasNames cs then
            (readEntries fuel ')' [] cs).map
              fun (entries, rest) => (.table entries, rest)
          else (readItems fuel ')' cs).map (.list, ·)

/-- Reads values up to a closing character. -/
def readItems : Nat → Char → List Char → Option (List Char)
  | 0, _, _ => none
  | fuel + 1, close, cs => do
      match ← Loose.skip? true cs.length.succ cs with
      | [] => none
      | c :: cs =>
          if c = close then some cs
          else
            let (_, rest) ← readValue fuel (c :: cs)
            match ← Loose.skip? true rest.length.succ rest with
            | [] => none
            | d :: rest =>
                if d = close then some rest
                else if d = ',' then readItems fuel close rest
                else none

/-- Reads keys with their values up to a closing character.  Keys are names in
parentheses and texts in braces. -/
def readEntries : Nat → Char → List (String × Tree) → List Char →
    Option (List (String × Tree) × List Char)
  | 0, _, _, _ => none
  | fuel + 1, close, entries, cs => do
      match ← Loose.skip? true cs.length.succ cs with
      | [] => none
      | c :: cs =>
          if c = close then some (entries, cs)
          else
            let (key, rest) ←
              if close = ')' then
                if Loose.isNameStart c then
                  some (String.ofList ((c :: cs).takeWhile Loose.isNameChar),
                    (c :: cs).dropWhile Loose.isNameChar)
                else none
              else readQuoted? (c :: cs)
            match ← Loose.skip? true rest.length.succ rest with
            | ':' :: rest =>
                let rest ← Loose.skip? true rest.length.succ rest
                let (tree, rest) ← readValue fuel rest
                let entries := setKey key tree entries
                match ← Loose.skip? true rest.length.succ rest with
                | [] => none
                | d :: rest =>
                    if d = close then some (entries, rest)
                    else if d = ',' then readEntries fuel close entries rest
                    else none
            | _ => none

end

/-- Reads a text that holds one value. -/
def read? (text : String) : Option Tree := do
  let cs ← Loose.skip? true (text.length + 1) text.toList
  let (tree, rest) ← readValue (3 * cs.length + 3) cs
  let rest ← Loose.skip? true rest.length.succ rest
  if rest.isEmpty then some tree else none

end Cardfile.Settings.Ron
