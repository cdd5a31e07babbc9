import Cardfile.Decimal.Double
import Cardfile.Settings.Tree

/-!
# Settings in TOML

A document is a row of lines that set keys, and of headers that say which
table the keys after them belong to.  No key is set twice and no table is
opened twice.
-/

namespace Cardfile.Settings.Toml

/-- Whether a character is a blank within a line. -/
def isBlank (c : Char) : Bool := c == ' ' || c == '\t'

/-- The text behind the blanks at its front. -/
def skipBlanks (cs : List Char) : List Char := cs.dropWhile isBlank

/-- Whether a character may stand in a comment or a text. -/
def isPlain (c : Char) : Bool :=
  c == '\t' || (32 ≤ c.toNat && c.toNat != 127)

/-- The text behind a line break, if it starts with one. -/
def dropNewline? : List Char → Option (List Char)
  | '\n' :: rest => some rest
  | '\r' :: '\n' :: rest => some rest
  | _ => none

/-- The text behind a comment, if it starts with one. -/
def skipComment (cs : List Char) : List Char :=
  match cs with
  | '#' :: rest => rest.dropWhile isPlain
  | cs => cs

/-- The text behind the end of a line. -/
def dropLineEnd? (cs : List Char) : Option (List Char) :=
  match skipComment (skipBlanks cs) with
  | [] => some []
  | cs => dropNewline? cs

/-- The text behind blanks, line breaks and comments. -/
def skipLines : Nat → List Char → List Char
  | 0, cs => cs
  | fuel + 1, cs =>
      let cs := skipComment (skipBlanks cs)
      match dropNewline? cs with
      | some rest => skipLines fuel rest
      | none => cs

/-! ## Texts -/

/-- Reads the code of an escape with a number of digits. -/
def readCode (count : Nat) (cs : List Char) : Option (Char × List Char) := do
  let digits := cs.take count
  if digits.length < count then none
  let c ← Text.charOfCode? (← Text.ofDigits? 16 Text.hexDigit? digits)
  pure (c, cs.drop count)

/-- Reads an escape behind its backslash. -/
def readEscape : List Char → Option (Char × List Char)
  | 'b' :: rest => some ('\x08', rest)
  | 't' :: rest => some ('\t', rest)
  | 'n' :: rest => some ('\n', rest)
  | 'f' :: rest => some ('\x0c', rest)
  | 'r' :: rest => some ('\r', rest)
  | '"' :: rest => some ('"', rest)
  | '\\' :: rest => some ('\\', rest)
  | 'u' :: rest => readCode 4 rest
  | 'U' :: rest => readCode 8 rest
  | _ => none

/-- Reads a text of one line up to its closing quote. -/
def readLine (quote : Char) (escapes : Bool) :
    Nat → List Char → Option (List Char × List Char)
  | 0, _ => none
  | _ + 1, [] => none
  | fuel + 1, c :: rest =>
      if c = quote then some ([], rest)
      else if c = '\\' ∧ escapes then do
        let (c, rest) ← readEscape rest
        let (text, rest) ← readLine quote escapes fuel rest
        pure (c :: text, rest)
      else if isPlain c then do
        let (text, rest) ← readLine quote escapes fuel rest
        pure (c :: text, rest)
      else none

/-- The text behind an escaped line break and all that is blank after it. -/
def dropEscapedBreak? (fuel : Nat) (cs : List Char) : Option (List Char) :=
  (dropNewline? (skipBlanks cs)).map fun rest => go fuel rest
where
  go : Nat → List Char → List Char
    | 0, cs => cs
    | fuel + 1, cs =>
        match dropNewline? (skipBlanks cs) with
        | some rest => go fuel rest
        | none => skipBlanks cs

/-- Reads a text of several lines up to its three closing quotes, of which two
more may belong to it. -/
def readLong (quote : Char) (escapes : Bool) :
    Nat → List Char → Option (List Char × List Char)
  | 0, _ => none
  | _ + 1, [] => none
  | fuel + 1, c :: rest =>
      if c = quote then
        let run := (c :: rest).takeWhile (· == quote)
        let after := rest.dropWhile (· == quote)
        if 3 ≤ run.length then
          if run.length ≤ 5 then some (run.drop 3, after) else none
        else do
          let (text, rest) ← readLong quote escapes fuel after
          pure (run ++ text, rest)
      else if c = '\\' ∧ escapes then
        match dropEscapedBreak? rest.length rest with
        | some rest => readLong quote escapes fuel rest
        | none => do
            let (c, rest) ← readEscape rest
            let (text, rest) ← readLong quote escapes fuel rest
            pure (c :: text, rest)
      else
        match dropNewline? (c :: rest) with
        | some rest => do
            let (text, rest) ← readLong quote escapes fuel rest
            pure ('\n' :: text, rest)
        | none =>
            if isPlain c then do
              let (text, rest) ← readLong quote escapes fuel rest
              pure (c :: text, rest)
            else none

/-- Reads a text behind its first quote. -/
def readText (quote : Char) (cs : List Char) :
    Option (String × List Char) := do
  let escapes := quote == '"'
  let fuel := cs.length + 1
  let (text, rest) ←
    match cs with
    | a :: b :: rest =>
        if a = quote ∧ b = quote then
          readLong quote escapes fuel ((dropNewline? rest).getD rest)
        else readLine quote escapes fuel cs
    | cs => readLine quote escapes fuel cs
  pure (String.ofList text, rest)

/-! ## Keys -/

/-- Whether a character may be part of a bare key. -/
def isKeyChar (c : Char) : Bool := c.isAlphanum || c == '_' || c == '-'

/-- Reads one part of a key. -/
def readKeyPart (cs : List Char) : Option (String × List Char) :=
  match cs with
  | '"' :: rest =>
      (readLine '"' true (rest.length + 1) rest).map
        fun (text, rest) => (String.ofList text, rest)
  | '\'' :: rest =>
      (readLine '\'' false (rest.length + 1) rest).map
        fun (text, rest) => (String.ofList text, rest)
  | cs =>
      match cs.takeWhile isKeyChar with
      | [] => none
      | run => some (String.ofList run, cs.dropWhile isKeyChar)

/-- Reads a key, its parts separated by points. -/
def readKey : Nat → List Char → Option (List String × List Char)
  | 0, _ => none
  | fuel + 1, cs => do
      let (part, rest) ← readKeyPart (skipBlanks cs)
      match skipBlanks rest with
      | '.' :: rest =>
          let (parts, rest) ← readKey fuel rest
          pure (part :: parts, rest)
      | rest => pure ([part], rest)

/-! ## Simple values -/

/-- The digits of a run in which single underscores stand between digits. -/
def digitsOf? (isDigit : Char → Bool) : List Char → Option (List Char)
  | [] => none
  | [c] => if isDigit c then some [c] else none
  | c :: '_' :: rest =>
      if isDigit c then (c :: ·) <$> digitsOf? isDigit rest else none
  | c :: rest =>
      if isDigit c then (c :: ·) <$> digitsOf? isDigit rest else none

/-- A whole number of 64 bits. -/
def integer? (number : Int) : Option Tree :=
  if Text.isSigned 64 number then some (.ofInt number) else none

/-- Reads a whole number in another base than ten. -/
def readBased (base : Nat) (cs : List Char) : Option Tree := do
  let digit? (c : Char) : Option Nat :=
    (Text.hexDigit? c).filter (· < base)
  let digits ← digitsOf? (fun c => (digit? c).isSome) cs
  integer? (← Text.ofDigits? base digit? digits)

/-- The digits before the point of a number. -/
def wholeDigits? (cs : List Char) : Option (List Char) := do
  let digits ← digitsOf? Char.isDigit cs
  if digits.length > 1 && digits.head? == some '0' then none else some digits

/-- Reads a number in base ten without its sign. -/
def readDecimal (negative : Bool) (cs : List Char) : Option Tree := do
  let isMark (c : Char) : Bool := c == 'e' || c == 'E'
  let base := cs.takeWhile fun c => !isMark c
  let whole ← wholeDigits? (base.takeWhile (· != '.'))
  let places ← match base.dropWhile (· != '.') with
    | [] => some []
    | _ :: places => digitsOf? Char.isDigit places
  let exponent : Int ← match cs.dropWhile fun c => !isMark c with
    | [] => some 0
    | _ :: exponent => do
        let (down, digits) := match exponent with
          | '-' :: digits => (true, digits)
          | '+' :: digits => (false, digits)
          | digits => (false, digits)
        let number ←
          Text.ofDigits? 10 Text.digit? (← digitsOf? Char.isDigit digits)
        pure (if down then -(number : Int) else number)
  let magnitude ← Text.ofDigits? 10 Text.digit? (whole ++ places)
  if base.length = cs.length && places.isEmpty then
    integer? (if negative then -(magnitude : Int) else magnitude)
  else
    let shown :=
      Decimal.showDouble negative ⟨magnitude, places.length - exponent⟩
    if shown.endsWith "inf" then none else some (.plain shown)

/-- Reads a time of day.  Zeros at the end of a fraction are left out. -/
def readTime (cs : List Char) : Option (String × List Char) :=
  match cs with
  | a :: b :: ':' :: c :: d :: ':' :: e :: f :: rest => do
      let hour ← Text.ofDigits? 10 Text.digit? [a, b]
      let minute ← Text.ofDigits? 10 Text.digit? [c, d]
      let second ← Text.ofDigits? 10 Text.digit? [e, f]
      if 23 < hour ∨ 59 < minute ∨ 60 < second then none
      let time := String.ofList [a, b, ':', c, d, ':', e, f]
      match rest with
      | '.' :: rest =>
          match rest.takeWhile Char.isDigit with
          | [] => none
          | places =>
              let kept := (places.take 9).reverse.dropWhile (· == '0')
              pure (time ++
                (if kept.isEmpty then ""
                  else "." ++ String.ofList kept.reverse),
                rest.dropWhile Char.isDigit)
      | rest => pure (time, rest)
  | _ => none

/-- Reads the distance of a time of day from the standard one. -/
def readOffset (cs : List Char) : Option String :=
  match cs with
  | [] => some ""
  | ['Z'] => some "Z"
  | ['z'] => some "Z"
  | [sign, a, b, ':', c, d] => do
      if sign ≠ '+' ∧ sign ≠ '-' then none
      let hour ← Text.ofDigits? 10 Text.digit? [a, b]
      let minute ← Text.ofDigits? 10 Text.digit? [c, d]
      if 23 < hour ∨ 59 < minute then none
      pure (String.ofList cs)
  | _ => none

/-- The number of days of a month in some year. -/
def daysOf (year month : Nat) : Nat :=
  match month with
  | 2 =>
      if year % 4 = 0 ∧ (year % 100 ≠ 0 ∨ year % 400 = 0) then 29 else 28
  | 4 | 6 | 9 | 11 => 30
  | _ => 31

/-- Reads a date, a time of day, or both. -/
def readMoment (cs : List Char) : Option Tree :=
  match cs with
  | y :: e :: a :: r :: '-' :: m :: n :: '-' :: d :: f :: rest => do
      let year ← Text.ofDigits? 10 Text.digit? [y, e, a, r]
      let month ← Text.ofDigits? 10 Text.digit? [m, n]
      let day ← Text.ofDigits? 10 Text.digit? [d, f]
      if month = 0 ∨ 12 < month ∨ day = 0 ∨ daysOf year month < day then none
      let date := String.ofList [y, e, a, r, '-', m, n, '-', d, f]
      match rest with
      | [] => pure (.text date)
      | mark :: rest =>
          if mark = 'T' ∨ mark = 't' ∨ mark = ' ' then
            let (time, rest) ← readTime rest
            pure (.text (date ++ "T" ++ time ++ (← readOffset rest)))
          else none
  | cs => do
      let (time, rest) ← readTime cs
      if rest.isEmpty then pure (.text time) else none

/-- Reads a simple value that has no quotes. -/
def readSimple (cs : List Char) : Option Tree :=
  let unsigned (negative : Bool) (cs : List Char) : Option Tree :=
    if cs = "inf".toList then
      some (.plain (if negative then "-inf" else "inf"))
    else if cs = "nan".toList then some (.plain "NaN")
    else readDecimal negative cs
  if cs = "true".toList then some (.ofBool true)
  else if cs = "false".toList then some (.ofBool false)
  else
    match cs with
    | '0' :: 'x' :: digits => readBased 16 digits
    | '0' :: 'o' :: digits => readBased 8 digits
    | '0' :: 'b' :: digits => readBased 2 digits
    | '+' :: digits => unsigned false digits
    | '-' :: digits => unsigned true digits
    | cs => (readMoment cs).orElse fun _ => unsigned false cs

/-- Whether a character may be part of a simple value without quotes. -/
def isSimpleChar (c : Char) : Bool :=
  c.isAlphanum || ['_', '+', '-', '.', ':'].contains c

/-- Takes the characters of a simple value.  A blank may stand between a date
and a time of day. -/
def takeSimple (cs : List Char) : List Char × List Char :=
  let run := cs.takeWhile isSimpleChar
  let rest := cs.dropWhile isSimpleChar
  match rest with
  | ' ' :: a :: b :: ':' :: more =>
      if run.length = 10 && run.contains '-' && a.isDigit && b.isDigit then
        let time := (a :: b :: ':' :: more).takeWhile isSimpleChar
        (run ++ ' ' :: time, (a :: b :: ':' :: more).dropWhile isSimpleChar)
      else (run, rest)
  | rest => (run, rest)

/-! ## Tables -/

/-- How a table came to be. -/
inductive Origin where
  | passed
  | opened
  | dotted
deriving DecidableEq

/-- A part of a document: a value, a table, or a list of tables whose last one
is open. -/
inductive Node where
  | value (tree : Tree)
  | table (origin : Origin) (entries : List (String × Node))
  | tables (items : List (List (String × Node)))

/-- The entries of a table. -/
abbrev Entries := List (String × Node)

/-- Entries with the node of a key changed, in its old place or at the end. -/
def alter (key : String) (change : Option Node → Option Node) :
    Entries → Option Entries
  | [] => (change none).map fun node => [(key, node)]
  | (other, old) :: rest =>
      if other = key then
        (change (some old)).map fun node => (key, node) :: rest
      else (alter key change rest).map ((other, old) :: ·)

/-- Changes the entries of the table that a header passes through. -/
def pass (change : Entries → Option Entries) : Option Node → Option Node
  | none => (change []).map (.table .passed)
  | some (.table origin entries) => (change entries).map (.table origin)
  | some (.tables items) =>
      match items.reverse with
      | [] => none
      | last :: before =>
          (change last).map fun last => .tables (before.reverse ++ [last])
  | some (.value _) => none

/-- Changes the entries of the table at the end of a way of headers. -/
def within (change : Entries → Option Entries) :
    List String → Entries → Option Entries
  | [], entries => change entries
  | key :: way, entries => alter key (pass (within change way)) entries

/-- Opens the table of a header. -/
def openTable : List String → Entries → Option Entries
  | [], _ => none
  | [key], entries =>
      alter key
        (fun node =>
          match node with
          | none => some (.table .opened [])
          | some (.table .passed entries) => some (.table .opened entries)
          | some _ => none)
        entries
  | key :: way, entries => alter key (pass (openTable way)) entries

/-- Opens another table of the list of a header. -/
def openNext : List String → Entries → Option Entries
  | [], _ => none
  | [key], entries =>
      alter key
        (fun node =>
          match node with
          | none => some (.tables [[]])
          | some (.tables items) => some (.tables (items ++ [[]]))
          | some _ => none)
        entries
  | key :: way, entries => alter key (pass (openNext way)) entries

/-- Sets a key with points in the open table. -/
def setDotted (tree : Tree) : List String → Entries → Option Entries
  | [], _ => none
  | [key], entries =>
      alter key
        (fun node =>
          match node with
          | none => some (.value tree)
          | some _ => none)
        entries
  | key :: way, entries =>
      alter key
        (fun node =>
          match node with
          | none => (setDotted tree way []).map (.table .dotted)
          | some (.table .opened _) => none
          | some (.table origin entries) =>
              (setDotted tree way entries).map (.table origin)
          | some _ => none)
        entries

mutual

/-- The tree of a node. -/
def Node.tree : Node → Tree
  | .value tree => tree
  | .table _ entries => .table (treesOf entries)
  | .tables _ => .list

/-- The trees of entries. -/
def treesOf : List (String × Node) → List (String × Tree)
  | [] => []
  | entry :: entries => treeOfEntry entry :: treesOf entries

/-- The tree of an entry. -/
def treeOfEntry : String × Node → String × Tree
  | (key, node) => (key, node.tree)

end

/-! ## Values and documents -/

mutual

/-- Reads a value. -/
def readValue : Nat → List Char → Option (Tree × List Char)
  | 0, _ => none
  | fuel + 1, cs =>
      match cs with
      | '"' :: rest =>
          (readText '"' rest).map fun (text, rest) => (.text text, rest)
      | '\'' :: rest =>
          (readText '\'' rest).map fun (text, rest) => (.text text, rest)
      | '[' :: rest =>
          (readItems fuel rest).map fun rest => (.list, rest)
      | '\x7b' :: rest =>
          match skipBlanks rest with
          | '\x7d' :: rest => some (.table [], rest)
          | rest => do
              let (entries, rest) ← readInline fuel [] rest
              pure (.table (treesOf entries), rest)
      | cs =>
          let (run, rest) := takeSimple cs
          (readSimple run).map (·, rest)

/-- Reads the items of a list and its closing bracket. -/
def readItems : Nat → List Char → Option (List Char)
  | 0, _ => none
  | fuel + 1, cs =>
      match skipLines cs.length.succ cs with
      | ']' :: rest => some rest
      | cs => do
          let (_, rest) ← readValue fuel cs
          match skipLines rest.length.succ rest with
          | ']' :: rest => some rest
          | ',' :: rest => readItems fuel rest
          | _ => none

/-- Reads the keys of a table in braces and its closing brace. -/
def readInline : Nat → Entries → List Char → Option (Entries × List Char)
  | 0, _, _ => none
  | fuel + 1, entries, cs => do
      let (key, rest) ← readKey cs.length.succ cs
      match rest with
      | '=' :: rest =>
          let (tree, rest) ← readValue fuel (skipBlanks rest)
          let entries ← setDotted tree key entries
          match skipBlanks rest with
          | '\x7d' :: rest => some (entries, rest)
          | ',' :: rest => readInline fuel entries rest
          | _ => none
      | _ => none

end

/-- A document as far as it was read: its entries and the way to the open
table. -/
structure Document where
  entries : Entries := []
  way : List String := []

/-- Takes in one line. -/
def readEntry (document : Document) (cs : List Char) :
    Option (Document × List Char) :=
  let fuel := cs.length + 1
  match cs with
  | '[' :: '[' :: rest => do
      let (key, rest) ← readKey fuel rest
      match rest with
      | ']' :: ']' :: rest =>
          pure (⟨← openNext key document.entries, key⟩, rest)
      | _ => none
  | '[' :: rest => do
      let (key, rest) ← readKey fuel rest
      match rest with
      | ']' :: rest => pure (⟨← openTable key document.entries, key⟩, rest)
      | _ => none
  | cs => do
      let (key, rest) ← readKey fuel cs
      match rest with
      | '=' :: rest =>
          let (tree, rest) ← readValue fuel (skipBlanks rest)
          let entries ←
            within (setDotted tree key) document.way document.entries
          pure ({ document with entries := entries }, rest)
      | _ => none

/-- Reads lines up to the end. -/
def readLines : Nat → Document → List Char → Option Document
  | 0, _, _ => none
  | fuel + 1, document, cs =>
      match skipLines cs.length.succ cs with
      | [] => some document
      | cs => do
          let (document, rest) ← readEntry document cs
          readLines fuel document (← dropLineEnd? rest)

/-- Reads a document. -/
def read? (text : String) : Option Tree :=
  let cs := text.toList
  (readLines (cs.length + 1) {} cs).map
    fun document => .table (treesOf document.entries)

end Cardfile.Settings.Toml
