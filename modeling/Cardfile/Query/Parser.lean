import Cardfile.Query.Symbol

/-!
# Parsers with named parts

A parser reads a value from the front of a text.  What it reads is one
function, and what it says about failing is another that only follows the
first: so the language of a parser can be studied without its messages.

The trace of a run keeps the furthest place at which a named part failed and
the parts that failed there.  A part whose own parts failed at its very start
stands for them, unless only one did.
-/

namespace Cardfile.Query

/-- The furthest place of failure, as the number of characters left there,
with the parts that were expected, the latest last. -/
structure Trace where
  left : Nat
  symbols : List Symbol

namespace Trace

/-- How many parts are expected at a place. -/
def countAt (trace : Trace) (left : Nat) : Nat :=
  if trace.left = left then trace.symbols.length else 0

/-- Notes that a part failed at a place, where `before` is the trace from
before the part was tried and `after` the one that its own parts left. -/
def fail (symbol : Symbol) (left : Nat) (before after : Trace) : Trace :=
  let earlier := before.countAt left
  if after.countAt left - earlier = 1 then after
  else if after.left = left then
    ⟨left, after.symbols.take earlier ++ [symbol]⟩
  else if left < after.left then ⟨left, [symbol]⟩
  else after

end Trace

/-- A parser for values of a type. -/
structure Parser (α : Type) where
  /-- The value at the front of a text and the text behind it. -/
  read : List Char → Option (α × List Char)
  /-- The trace after the parser was tried on a text. -/
  trace : List Char → Trace → Trace

/-- Whether a character may stand between any two parts. -/
def isGap (c : Char) : Bool :=
  c == ' ' || c == '\t' || c == '\r' || c == '\n'

/-- The text behind the gap at its front. -/
def skipGap (cs : List Char) : List Char :=
  cs.dropWhile isGap

/-- The text behind a given front. -/
def dropPrefix? : List Char → List Char → Option (List Char)
  | [], cs => some cs
  | _ :: _, [] => none
  | expected :: more, c :: cs =>
      if expected = c then dropPrefix? more cs else none

namespace Parser

/-- A part that is read as a whole: only its own name can be expected. -/
def token (symbol : Symbol) (read : List Char → Option (α × List Char)) :
    Parser α where
  read := read
  trace cs trace :=
    match read cs with
    | some _ => trace
    | none => Trace.fail symbol cs.length trace trace

/-- A fixed text without a name. -/
def literal (text : String) : Parser Unit where
  read cs := (dropPrefix? text.toList cs).map fun rest => ((), rest)
  trace _ trace := trace

/-- The end of the text. -/
def endOfInput : Parser Unit :=
  token .endOfInput fun cs => if cs.isEmpty then some ((), cs) else none

/-- A part with a name of its own. -/
def named (symbol : Symbol) (part : Parser α) : Parser α where
  read := part.read
  trace cs trace :=
    match part.read cs with
    | some _ => part.trace cs trace
    | none => Trace.fail symbol cs.length trace (part.trace cs trace)

/-- The same part with another value. -/
def map (f : α → β) (part : Parser α) : Parser β where
  read cs := (part.read cs).map fun (value, rest) => (f value, rest)
  trace := part.trace

/-- Two parts with a gap allowed between them. -/
def seq (first : Parser α) (second : Parser β) : Parser (α × β) where
  read cs :=
    match first.read cs with
    | none => none
    | some (left, rest) =>
        (second.read (skipGap rest)).map
          fun (right, rest) => ((left, right), rest)
  trace cs trace :=
    match first.read cs with
    | none => first.trace cs trace
    | some (_, rest) => second.trace (skipGap rest) (first.trace cs trace)

/-- Two parts of which the value of the first is kept. -/
def keepLeft (first : Parser α) (second : Parser β) : Parser α :=
  (first.seq second).map Prod.fst

/-- Two parts of which the value of the second is kept. -/
def keepRight (first : Parser α) (second : Parser β) : Parser β :=
  (first.seq second).map Prod.snd

/-- The first part that can be read. -/
def orElse (first second : Parser α) : Parser α where
  read cs := (first.read cs).orElse fun _ => second.read cs
  trace cs trace :=
    match first.read cs with
    | some _ => first.trace cs trace
    | none => second.trace cs (first.trace cs trace)

/-- A part that may be missing. -/
def optional (part : Parser α) : Parser (Option α) where
  read cs :=
    match part.read cs with
    | some (value, rest) => some (some value, rest)
    | none => some (none, cs)
  trace := part.trace

/-- At most `count` parts in a row with gaps before them.  A gap with no part
behind it is left where it is. -/
def readMany (part : Parser α) : Nat → List Char → List α × List Char
  | 0, cs => ([], cs)
  | count + 1, cs =>
      match part.read (skipGap cs) with
      | none => ([], cs)
      | some (value, rest) =>
          let (values, rest) := readMany part count rest
          (value :: values, rest)

/-- The trace after `readMany`. -/
def traceMany (part : Parser α) : Nat → List Char → Trace → Trace
  | 0, _, trace => trace
  | count + 1, cs, trace =>
      let after := part.trace (skipGap cs) trace
      match part.read (skipGap cs) with
      | none => after
      | some (_, rest) => traceMany part count rest after

/-- Any number of parts with gaps between them.  Each part takes a character
at least, so there are no more of them than characters. -/
def many (part : Parser α) : Parser (List α) where
  read cs := some (readMany part cs.length cs)
  trace cs trace := traceMany part cs.length cs trace

/-- A part once at least, with a separator between two of them. -/
def separated (part : Parser α) (separator : String) : Parser (List α) :=
  (part.seq (many ((literal separator).keepRight part))).map
    fun (first, rest) => first :: rest

/-- A part that fills a whole text, gaps at both ends allowed. -/
def whole (symbol : Symbol) (part : Parser α) : Parser α :=
  let body := part.keepLeft endOfInput
  named symbol
    { read := fun cs => body.read (skipGap cs)
      trace := fun cs trace => body.trace (skipGap cs) trace }

end Parser

/-- The line and the column of the place where the characters `before` it end.
-/
def lineAndColumn (before : List Char) : Nat × Nat :=
  (before.count '\n' + 1,
    (before.reverse.takeWhile (· != '\n')).length + 1)

/-- Reads a text, or says where and why it cannot be read. -/
def Parser.run (parser : Parser α) (text : String) : Except Failure α :=
  let cs := text.toList
  match parser.read cs with
  | some (value, _) => .ok value
  | none =>
      let trace := parser.trace cs ⟨cs.length, []⟩
      let (line, column) := lineAndColumn (cs.take (cs.length - trace.left))
      .error ⟨Symbol.arrange trace.symbols, line, column⟩

end Cardfile.Query
