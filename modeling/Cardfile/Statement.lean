import Cardfile.Query.Condition
import Cardfile.Text.LowerCase

/-!
# Statements

A statement inserts a record, selects columns of records, updates records or
deletes them.  Reading one either succeeds as a whole or names the first
fault: for a select the columns are looked at before the condition, for an
update the assignments.
-/

namespace Cardfile

open Query

/-- A statement that is ready to run. -/
inductive Statement where
  | insert (record : Record) (freshId : Bool)
  | select (columns : List Field) (condition : Condition) (text : String)
  | update (assignments : List Assigned) (condition : Condition)
  | delete (condition : Condition)
deriving DecidableEq

namespace Statement

/-- Whether running the statement changes nothing. -/
def isReadOnly : Statement → Bool
  | .select .. => true
  | _ => false

/-- Looks up the names and converts the values of a written statement. -/
def ofSentence (text : String) : Sentence → Except Fault Statement
  | .insert names values => do
      let record ← recordOf names.words values
      pure <| .insert record <|
        !names.words.any fun name => Text.lowerAscii name == "id"
  | .select names condition => do
      let columns ← columnsOf names
      pure (.select columns (← Condition.ofChain condition) (Text.trim text))
  | .update assignments condition => do
      let assignments ← assignments.mapM Assigned.ofBinding
      pure (.update assignments (← Condition.ofChain condition))
  | .delete condition => do
      pure (.delete (← Condition.ofChain (some condition)))

/-- Reads a statement. -/
def read (text : String) : Except Fault Statement := do
  ofSentence text (← Query.read Parser.statement text)

end Statement

end Cardfile
