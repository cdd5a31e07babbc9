import Cardfile.Field
import Cardfile.Query.Grammar

/-!
# Conditions

A condition is a row of comparisons joined by connectives and folded strictly
from left to right: neither connective binds tighter than the other.  The
empty condition holds of every record.
-/

namespace Cardfile.Query

/-- A field and a value of its kind, with the text the value was written as. -/
structure Assigned where
  field : Field
  value : Value
  text : String
deriving DecidableEq

namespace Assigned

/-- Looks up the field of a binding and converts its text. -/
def ofBinding (binding : Binding) : Except Fault Assigned := do
  let field ← Field.resolve binding.name
  let value ← field.convert binding.text
  pure ⟨field, value, binding.text⟩

/-- The field's name and the written text with an equals sign between. -/
def segment (assigned : Assigned) : String :=
  assigned.field.name ++ "=" ++ assigned.text

/-- Whether a record's field holds the value. -/
def holds (assigned : Assigned) (record : Record) : Bool :=
  assigned.field.holds assigned.value record

/-- The record with the field set to the value. -/
def apply (assigned : Assigned) (record : Record) : Record :=
  assigned.field.set assigned.value record

end Assigned

/-- A test of records: nothing, or a chain of comparisons. -/
abbrev Condition := Option (Chain Assigned)

/-- Applies a fallible function to every member of a chain, from the front. -/
def Chain.mapExcept (f : α → Except Fault β) (chain : Chain α) :
    Except Fault (Chain β) := do
  let first ← f chain.first
  let rest ← chain.rest.mapM fun (connective, member) => do
    pure (connective, ← f member)
  pure ⟨first, rest⟩

/-- The meaning of a chain: its comparisons folded from the left. -/
def Chain.holds (chain : Chain Assigned) (record : Record) : Bool :=
  chain.rest.foldl
    (fun soFar (connective, comparison) =>
      connective.apply soFar (comparison.holds record))
    (chain.first.holds record)

/-- The texts of a chain that make up its fingerprint. -/
def Chain.segments (chain : Chain Assigned) : List String :=
  chain.first.segment ::
    chain.rest.flatMap fun (connective, comparison) =>
      [connective.word, comparison.segment]

namespace Condition

/-- Looks up the fields of a written condition and converts its values. -/
def ofChain : Option (Chain Binding) → Except Fault Condition
  | none => .ok none
  | some chain => some <$> chain.mapExcept Assigned.ofBinding

/-- Whether a condition holds of a record. -/
def holds (condition : Condition) (record : Record) : Bool :=
  match condition with
  | none => true
  | some chain => chain.holds record

/-- The sum of the digests of the parts of a condition. -/
def fingerprint (digest : String → UInt64) (condition : Condition) : UInt64 :=
  match condition with
  | none => 0
  | some chain => (chain.segments.map digest).foldl (· + ·) 0

end Condition

/-- Applies assignments from left to right. -/
def assignAll (assignments : List Assigned) (record : Record) : Record :=
  assignments.foldl (fun record assigned => assigned.apply record) record

/-- The fields that written names stand for. -/
def columnsOf : Names → Except Fault (List Field)
  | .star => .ok Field.all
  | .list names => names.mapM Field.resolve

/-- The names of columns. -/
def headers (columns : List Field) : List String :=
  columns.map Field.name

/-- The cells of a record in columns. -/
def project (columns : List Field) (record : Record) : List String :=
  columns.map fun field => field.display record

/-- Reads a text with a parser of the language. -/
def read (parser : Parser α) (text : String) : Except Fault α :=
  (parser.run text).mapError .malformed

/-- Reads a condition; a blank text holds of every record. -/
def readCondition (text : String) : Except Fault Condition := do
  Condition.ofChain (← read Parser.whereClause text)

/-- Reads assignments separated by commas. -/
def readAssignments (text : String) : Except Fault (List Assigned) := do
  (← read Parser.setClause text).mapM Assigned.ofBinding

/-- Reads a list of columns or the star. -/
def readColumns (text : String) : Except Fault (List Field) := do
  columnsOf (← read Parser.selectClause text)

/-- The record whose named fields have the given values and whose other fields
are those of the empty record.  Every value is converted before one is set. -/
def recordOf (names values : List String) : Except Fault Record := do
  if names.length ≠ values.length then
    throw (.unequalLists names.length values.length)
  let assigned ← (names.zip values).mapM fun (name, text) =>
    Assigned.ofBinding ⟨name, text⟩
  pure (assignAll assigned {})

end Cardfile.Query
