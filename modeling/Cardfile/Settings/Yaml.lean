import Cardfile.Decimal.Double
import Cardfile.Settings.Tree

/-!
# Settings in YAML

A document is a mapping of keys to values, nested by indentation or by
brackets and braces.  Scalars without quotes are numbers, truth values or
nothing if they look like it.  Anchors, tags and complex keys are not part of
what is read here.
-/

namespace Cardfile.Settings.Yaml

/-! ## Scalars -/

/-- Reads a whole number of 64 bits. -/
def readInteger? (cs : List Char) : Option Tree :=
  (Text.readSigned 64 cs).toOption.map .ofInt

/-- Reads a whole number in another base than ten. -/
def readBased? (base : Nat) (cs : List Char) : Option Tree := do
  if cs.isEmpty then none
  let number ← Text.ofDigits? base
    (fun c => (Text.hexDigit? c).filter (· < base)) cs
  if Text.isSigned 64 number then some (.ofInt number) else none

/-- Reads a number with a point or an exponent. -/
def readReal? (cs : List Char) : Option Tree := do
  let (negative, cs) := match cs with
    | '-' :: rest => (true, rest)
    | '+' :: rest => (false, rest)
    | rest => (false, rest)
  let isMark (c : Char) : Bool := c == 'e' || c == 'E'
  let base := cs.takeWhile fun c => !isMark c
  let whole := base.takeWhile (· != '.')
  let places := (base.dropWhile (· != '.')).drop 1
  if (whole ++ places).isEmpty then none
  let magnitude ← Text.ofDigits? 10 Text.digit? (whole ++ places)
  let exponent ← match cs.dropWhile fun c => !isMark c with
    | [] => some 0
    | _ :: exponent => (Text.readSigned 64 exponent).toOption
  pure <| .plain <|
    Decimal.showDouble negative ⟨magnitude, places.length - exponent⟩

/-- The meaning of a scalar without quotes. -/
def ofPlain (scalar : String) : Tree :=
  let cs := scalar.toList
  let prefixed := match cs with
    | '0' :: 'x' :: digits => readBased? 16 digits
    | '0' :: 'o' :: digits => readBased? 8 digits
    | _ => none
  if ["", "~", "null"].contains scalar then .absent
  else if scalar = "true" then .ofBool true
  else if scalar = "false" then .ofBool false
  else if [".inf", ".Inf", ".INF", "+.inf", "+.Inf", "+.INF"].contains
      scalar then
    .plain "inf"
  else if ["-.inf", "-.Inf", "-.INF"].contains scalar then .plain "-inf"
  else if [".nan", ".NaN", ".NAN"].contains scalar then .plain "NaN"
  else
    ((prefixed.orElse fun _ => readInteger? cs).orElse fun _ =>
      readReal? cs).getD (.text scalar)

/-- The character that a short escape stands for. -/
def shortEscape? (c : Char) : Option Char :=
  match c with
  | '0' => some '\x00'
  | 'a' => some '\x07'
  | 'b' => some '\x08'
  | 't' => some '\t'
  | '\t' => some '\t'
  | 'n' => some '\n'
  | 'v' => some '\x0b'
  | 'f' => some '\x0c'
  | 'r' => some '\r'
  | 'e' => some '\x1b'
  | ' ' => some ' '
  | '"' => some '"'
  | '/' => some '/'
  | '\\' => some '\\'
  | 'N' => some '\u0085'
  | '_' => some '\u00a0'
  | 'L' => some '\u2028'
  | 'P' => some '\u2029'
  | _ => none

/-- Whether a character is a blank within a line. -/
def isBlank (c : Char) : Bool := c == ' ' || c == '\t'

/-- The text behind a line break and all that is blank after it, with the line
breaks that stay: none for a single one, which becomes a blank. -/
def foldBreaks (cs : List Char) : List Char × List Char :=
  let gap := cs.takeWhile fun c => isBlank c || c == '\n' || c == '\r'
  let rest := cs.dropWhile fun c => isBlank c || c == '\n' || c == '\r'
  match gap.count '\n' with
  | 0 => (gap, rest)
  | 1 => ([' '], rest)
  | count => (List.replicate (count - 1) '\n', rest)

/-- Reads a scalar in double quotes behind the opening one. -/
def readDouble : Nat → List Char → Option (List Char × List Char)
  | 0, _ => none
  | _ + 1, [] => none
  | _ + 1, '"' :: rest => some ([], rest)
  | fuel + 1, '\\' :: c :: rest => do
      let digits := match c with
        | 'x' => 2
        | 'u' => 4
        | 'U' => 8
        | _ => 0
      if digits = 0 then
        if c = '\n' then
          readDouble fuel (rest.dropWhile isBlank)
        else
          let c ← shortEscape? c
          let (text, rest) ← readDouble fuel rest
          pure (c :: text, rest)
      else
        let code ← Text.ofDigits? 16 Text.hexDigit? (rest.take digits)
        let c ← Text.charOfCode? code
        if rest.length < digits then none
        let (text, rest) ← readDouble fuel (rest.drop digits)
        pure (c :: text, rest)
  | fuel + 1, c :: rest =>
      if isBlank c || c == '\n' || c == '\r' then do
        let (gap, after) := foldBreaks (c :: rest)
        let (text, rest) ← readDouble fuel after
        pure (gap ++ text, rest)
      else do
        let (text, rest) ← readDouble fuel rest
        pure (c :: text, rest)

/-- Reads a scalar in single quotes behind the opening one. -/
def readSingle : Nat → List Char → Option (List Char × List Char)
  | 0, _ => none
  | _ + 1, [] => none
  | fuel + 1, '\'' :: '\'' :: rest => do
      let (text, rest) ← readSingle fuel rest
      pure ('\'' :: text, rest)
  | _ + 1, '\'' :: rest => some ([], rest)
  | fuel + 1, c :: rest =>
      if isBlank c || c == '\n' || c == '\r' then do
        let (gap, after) := foldBreaks (c :: rest)
        let (text, rest) ← readSingle fuel after
        pure (gap ++ text, rest)
      else do
        let (text, rest) ← readSingle fuel rest
        pure (c :: text, rest)

/-- Reads a scalar in quotes, if there is one. -/
def readQuoted? (cs : List Char) : Option (String × List Char) :=
  match cs with
  | '"' :: rest =>
      (readDouble (rest.length + 1) rest).map
        fun (text, rest) => (String.ofList text, rest)
  | '\'' :: rest =>
      (readSingle (rest.length + 1) rest).map
        fun (text, rest) => (String.ofList text, rest)
  | _ => none

/-- Whether a scalar without quotes may start with the characters. -/
def startsPlain (cs : List Char) : Bool :=
  match cs with
  | [] => false
  | [c] => !"-?:,[]\x7b\x7d#&*!|>'\"%@\x60".toList.contains c
  | c :: d :: _ =>
      if ['-', '?', ':'].contains c then
        !(isBlank d || d == '\n' || d == '\r')
      else !",[]\x7b\x7d#&*!|>'\"%@\x60".toList.contains c

/-- Takes a scalar without quotes from the front of a line.  It ends before a
comment and before a colon that makes it a key. -/
def takePlain (inFlow : Bool) : List Char → List Char × List Char
  | [] => ([], [])
  | c :: rest =>
      let ends := match c, rest with
        | '\n', _ => true
        | '\r', '\n' :: _ => true
        | ':', [] => true
        | ':', d :: _ =>
            isBlank d || d == '\n' || d == '\r' ||
              (inFlow && ",[]\x7b\x7d".toList.contains d)
        | ' ', '#' :: _ => true
        | '\t', '#' :: _ => true
        | c, _ => inFlow && ",[]\x7b\x7d".toList.contains c
      if ends then ([], c :: rest)
      else
        let (taken, rest) := takePlain inFlow rest
        (c :: taken, rest)

/-- The characters without the blanks at their end. -/
def stripEnd (cs : List Char) : List Char :=
  (cs.reverse.dropWhile isBlank).reverse

/-! ## Brackets and braces -/

/-- The text behind blanks, line breaks and comments. -/
def skipFlow : Nat → List Char → List Char
  | 0, cs => cs
  | fuel + 1, cs =>
      match cs.dropWhile fun c => isBlank c || c == '\n' || c == '\r' with
      | '#' :: rest => skipFlow fuel (rest.dropWhile (· != '\n'))
      | cs => cs

/-- Reads a scalar between brackets or braces. -/
def readFlowScalar (cs : List Char) : Option (Tree × String × List Char) :=
  match readQuoted? cs with
  | some (text, rest) => some (.text text, text, rest)
  | none =>
      if startsPlain cs then
        let (taken, rest) := takePlain true cs
        let text := String.ofList (stripEnd taken)
        some (ofPlain text, text, rest)
      else none

/-- Entries with another one, if its key is new. -/
def addEntry (key : String) (tree : Tree) (entries : List (String × Tree)) :
    Option (List (String × Tree)) :=
  if entries.any fun entry => entry.1 == key then none
  else some (entries ++ [(key, tree)])

mutual

/-- Reads a value between brackets or braces. -/
def readFlow : Nat → List Char → Option (Tree × List Char)
  | 0, _ => none
  | fuel + 1, cs =>
      match cs with
      | '[' :: rest => (readFlowItems fuel rest).map (.list, ·)
      | '\x7b' :: rest =>
          (readFlowEntries fuel [] rest).map
            fun (entries, rest) => (.table entries, rest)
      | cs => (readFlowScalar cs).map fun (tree, _, rest) => (tree, rest)

/-- Reads the items of a list in brackets. -/
def readFlowItems : Nat → List Char → Option (List Char)
  | 0, _ => none
  | fuel + 1, cs =>
      match skipFlow cs.length.succ cs with
      | ']' :: rest => some rest
      | cs => do
          let (_, rest) ← readFlow fuel cs
          match skipFlow rest.length.succ rest with
          | ']' :: rest => some rest
          | ',' :: rest => readFlowItems fuel rest
          | ':' :: rest => do
              let rest := skipFlow rest.length.succ rest
              let (_, rest) ← readFlow fuel rest
              match skipFlow rest.length.succ rest with
              | ']' :: rest => some rest
              | ',' :: rest => readFlowItems fuel rest
              | _ => none
          | _ => none

/-- Reads the entries of a mapping in braces. -/
def readFlowEntries : Nat → List (String × Tree) → List Char →
    Option (List (String × Tree) × List Char)
  | 0, _, _ => none
  | fuel + 1, entries, cs =>
      match skipFlow cs.length.succ cs with
      | '\x7d' :: rest => some (entries, rest)
      | cs => do
          let (_, key, rest) ← readFlowScalar cs
          let (tree, rest) ← match skipFlow rest.length.succ rest with
            | ':' :: rest =>
                match skipFlow rest.length.succ rest with
                | ',' :: rest => some (.absent, ',' :: rest)
                | '\x7d' :: rest => some (.absent, '\x7d' :: rest)
                | rest => readFlow fuel rest
            | rest => some (.absent, rest)
          let entries ← addEntry key tree entries
          match skipFlow rest.length.succ rest with
          | '\x7d' :: rest => some (entries, rest)
          | ',' :: rest => readFlowEntries fuel entries rest
          | _ => none

end

/-! ## Blocks -/

/-- The first line and the text behind it. -/
def takeLine (cs : List Char) : List Char × List Char :=
  (cs.takeWhile (· != '\n'), (cs.dropWhile (· != '\n')).drop 1)

/-- Whether a line holds nothing but blanks and a comment. -/
def isEmptyLine (line : List Char) : Bool :=
  match line.dropWhile fun c => isBlank c || c == '\r' with
  | [] => true
  | '#' :: _ => true
  | _ => false

/-- The text from the first line on that is not empty. -/
def skipEmptyLines : Nat → List Char → List Char
  | 0, cs => cs
  | fuel + 1, cs =>
      let (line, rest) := takeLine cs
      if cs.isEmpty then []
      else if isEmptyLine line then skipEmptyLines fuel rest
      else cs

/-- Whether a line is the mark between two documents or at the end of one. -/
def isMark (mark : String) (line : List Char) : Bool :=
  line.take 3 == mark.toList &&
    match line.drop 3 with
    | [] => true
    | c :: _ => isBlank c || c == '\r'

/-- The text behind the end of a line on which only a comment may stand. -/
def dropLineEnd? (cs : List Char) : Option (List Char) :=
  let (line, rest) := takeLine cs
  let tail := line.dropWhile isBlank
  if isEmptyLine line && (tail.length < line.length || tail.head? != some '#')
  then some rest
  else none

/-- The number of blanks at the front of a line. -/
def indentOf (cs : List Char) : Nat := (cs.takeWhile (· == ' ')).length

/-- Reads a key and its colon at the front of a line. -/
def readKey? (cs : List Char) : Option (String × List Char) :=
  let ended (key : String) (rest : List Char) :
      Option (String × List Char) :=
    match rest.dropWhile isBlank with
    | [':'] => some (key, [])
    | ':' :: c :: rest =>
        if isBlank c || c == '\n' || c == '\r' then some (key, c :: rest)
        else none
    | _ => none
  match readQuoted? (takeLine cs).1 with
  | some (key, _) =>
      match readQuoted? cs with
      | some (_, rest) => ended key rest
      | none => none
  | none =>
      if startsPlain cs then
        let (taken, rest) := takePlain false cs
        ended (String.ofList (stripEnd taken)) rest
      else none

/-- The further lines of a scalar without quotes, each indented at least as
far as given. -/
def takeMorePlain : Nat → Nat → List Char →
    Option (List (List Char) × List Char)
  | 0, _, _ => none
  | fuel + 1, least, cs =>
      let (line, rest) := takeLine cs
      let content := line.dropWhile isBlank
      if cs.isEmpty then some ([], [])
      else if content.isEmpty || content == ['\r'] then do
        let (lines, after) ← takeMorePlain fuel least rest
        if lines.isEmpty then some ([], cs)
        else some ([] :: lines, after)
      else if indentOf line < least || isEmptyLine line ||
          isMark "---" line || isMark "..." line then
        some ([], cs)
      else do
        let (taken, left) := takePlain false (content ++ ['\n'])
        if left.head? == some ':' then none
        let (lines, after) ←
          if left == ['\n'] || left == ['\r', '\n'] then
            takeMorePlain fuel least rest
          else some ([], rest)
        some (stripEnd taken :: lines, after)

/-- Joins the lines of a scalar: a line break becomes a blank, and an empty
line a line break. -/
def joinPlain (first : List Char) (lines : List (List Char)) : List Char :=
  match lines with
  | [] => first
  | [] :: rest =>
      let empty := (rest.takeWhile List.isEmpty).length
      first ++ List.replicate (empty + 1) '\n' ++
        joinLines (rest.dropWhile List.isEmpty)
  | line :: rest => joinPlain (first ++ ' ' :: line) rest
where
  joinLines : List (List Char) → List Char
    | [] => []
    | [line] => line
    | line :: rest => line ++ ' ' :: joinLines rest

/-- The lines of a literal scalar that are indented at least as far as
given, and empty lines between them. -/
def takeLiteral : Nat → Nat → List Char → List (List Char) × List Char
  | 0, _, cs => ([], cs)
  | fuel + 1, least, cs =>
      let (line, rest) := takeLine cs
      let line := if line.getLast? == some '\r' then line.dropLast else line
      if cs.isEmpty then ([], [])
      else if line.all (· == ' ') then
        let (lines, after) := takeLiteral fuel least rest
        (line.drop least :: lines, after)
      else if indentOf line < least then ([], cs)
      else
        let (lines, after) := takeLiteral fuel least rest
        (line.drop least :: lines, after)

/-- The text of a literal or folded scalar.  The mark behind `|` or `>` says
whether no line break, all of them, or one is kept at the end. -/
def literalText (folded : Bool) (chomp : Option Char)
    (lines : List (List Char)) : List Char :=
  let kept := (lines.reverse.dropWhile List.isEmpty).reverse
  let extra := lines.length - kept.length
  let body :=
    if folded then joinPlain (kept.headD []) (kept.drop 1)
    else "\n".toList.intercalate kept
  match chomp with
  | some '-' => body
  | some _ => body ++ List.replicate (extra + 1) '\n'
  | none => if kept.isEmpty then [] else body ++ ['\n']

/-- Whether a line is an item of a list. -/
def isItem (cs : List Char) : Bool :=
  match cs with
  | ['-'] => true
  | '-' :: c :: _ => isBlank c || c == '\n' || c == '\r'
  | _ => false

/-- Reads a literal or folded scalar behind its mark. -/
def readLiteral (folded : Bool) (least : Nat) (cs : List Char) :
    Option (Tree × List Char) :=
  let (head, rest) := takeLine cs
  let marks := head.takeWhile fun c => c == '-' || c == '+'
  if isEmptyLine (head.dropWhile fun c => c == '-' || c == '+') then
    let first := skipEmptyLines rest.length.succ rest
    let column := max least (indentOf first)
    let (lines, after) := takeLiteral rest.length.succ column rest
    some (.text (String.ofList (literalText folded marks.head? lines)), after)
  else none

mutual

/-- Reads a block that is indented at least as far as given. -/
def readBlock : Nat → Nat → List Char → Option (Tree × List Char)
  | 0, _, _ => none
  | fuel + 1, least, cs =>
      let cs := skipEmptyLines cs.length.succ cs
      let (line, _) := takeLine cs
      let column := indentOf line
      let content := cs.drop column
      if cs.isEmpty || column < least || isMark "---" line ||
          isMark "..." line then
        some (.absent, cs)
      else if content.head? == some '\t' then none
      else if isItem content then
        (readItems fuel column cs).map (.list, ·)
      else if (readKey? content).isSome then
        (readEntries fuel column [] cs).map
          fun (entries, rest) => (.table entries, rest)
      else readInline fuel least content

/-- Reads the entries of a mapping at a column. -/
def readEntries : Nat → Nat → List (String × Tree) → List Char →
    Option (List (String × Tree) × List Char)
  | 0, _, _, _ => none
  | fuel + 1, column, entries, cs =>
      let cs := skipEmptyLines cs.length.succ cs
      let (line, _) := takeLine cs
      if cs.isEmpty || indentOf line < column || isMark "---" line ||
          isMark "..." line then
        some (entries, cs)
      else if column < indentOf line then none
      else do
        let (key, rest) ← readKey? (cs.drop column)
        let (tree, rest) ←
          match dropLineEnd? rest with
          | some below =>
              let next := skipEmptyLines below.length.succ below
              if indentOf next == column && isItem (next.drop column) then
                (readItems fuel column next).map (Tree.list, ·)
              else readBlock fuel (column + 1) below
          | none =>
              let value := rest.dropWhile isBlank
              if (readKey? value).isSome then none
              else readInline fuel (column + 1) value
        readEntries fuel column (← addEntry key tree entries) rest

/-- Reads the items of a list at a column. -/
def readItems : Nat → Nat → List Char → Option (List Char)
  | 0, _, _ => none
  | fuel + 1, column, cs =>
      let cs := skipEmptyLines cs.length.succ cs
      if indentOf cs == column && isItem (cs.drop column) then do
        let inner :=
          List.replicate (column + 1) ' ' ++ cs.drop (column + 1)
        let (_, rest) ← readBlock fuel (column + 1) inner
        readItems fuel column rest
      else if column < indentOf cs && !cs.isEmpty then none
      else some cs

/-- Reads a value that starts within a line; its further lines are indented at
least as far as given. -/
def readInline : Nat → Nat → List Char → Option (Tree × List Char)
  | 0, _, _ => none
  | fuel + 1, least, cs =>
      match cs with
      | '|' :: rest => readLiteral false least rest
      | '>' :: rest => readLiteral true least rest
      | '[' :: _ => do
          let (tree, rest) ← readFlow fuel cs
          pure (tree, ← dropLineEnd? rest)
      | '\x7b' :: _ => do
          let (tree, rest) ← readFlow fuel cs
          pure (tree, ← dropLineEnd? rest)
      | cs =>
          match readQuoted? cs with
          | some (text, rest) => do
              pure (.text text, ← dropLineEnd? rest)
          | none => do
              if !startsPlain cs then none
              let (taken, rest) := takePlain false cs
              if rest.head? == some ':' then none
              let after ← dropLineEnd? rest
              let (lines, after) ←
                if isEmptyLine (takeLine rest).1 &&
                    !(takeLine rest).1.contains '#' then
                  takeMorePlain fuel least after
                else some ([], after)
              let text := joinPlain (stripEnd taken) lines
              pure (ofPlain (String.ofList text), after)

end

/-- The text behind the directives and the mark at the front of a document. -/
def skipHead : Nat → List Char → List Char
  | 0, cs => cs
  | fuel + 1, cs =>
      let cs := skipEmptyLines cs.length.succ cs
      let (line, rest) := takeLine cs
      if isMark "---" line then
        if isEmptyLine (line.drop 3) then rest else line.drop 3 ++ '\n' :: rest
      else if line.head? == some '%' then skipHead fuel rest
      else cs

/-- Whether nothing but marks of an ending follows. -/
def isEnd (cs : List Char) : Bool :=
  let cs := skipEmptyLines cs.length.succ cs
  let (line, rest) := takeLine cs
  cs.isEmpty ||
    (isMark "..." line && (skipEmptyLines rest.length.succ rest).isEmpty)

/-- Reads a text of one document; an empty one is an empty table. -/
def read? (text : String) : Option Tree := do
  let cs := text.toList
  if isEnd cs then some (.table [])
  else
    let (tree, rest) ← readBlock (2 * cs.length + 2) 0 (skipHead cs.length cs)
    if isEnd rest then some tree else none

end Cardfile.Settings.Yaml
