import Cardfile.Statement
import Cardfile.Store

/-!
# The engine

An engine runs statements on stores.  It remembers the answers of selects, and
gives a remembered answer again as long as the store, its revision and the
text of the statement are the same.  The digest decides where an answer is
remembered.
-/

namespace Cardfile

open Query

/-- What a statement answers: the rows of a select, or the number and the ids
of the records that were changed. -/
structure Answer where
  columns : List String := []
  rows : List (List String) := []
  affected : Nat := 0
  ids : List RecordId := []
deriving DecidableEq

/-- The rows of the records that a condition holds of. -/
def Answer.ofRecords (records : List Record) (columns : List Field)
    (condition : Condition) : Answer where
  columns := headers columns
  rows := (records.filter condition.holds).map (project columns)

/-- An answer with what it is the answer to. -/
structure Remembered where
  text : String
  serial : Nat
  revision : Nat
  answer : Answer
deriving DecidableEq

/-- Runs statements and remembers the answers of selects. -/
structure Engine where
  digest : String → UInt64
  memo : List (UInt64 × Remembered)

namespace Engine

/-- The number of answers remembered at once. -/
def capacity : Nat := 1024

/-- The engine that remembers nothing yet. -/
def fresh (digest : String → UInt64) : Engine := ⟨digest, []⟩

/-- Where the answer of a select is remembered. -/
def memoKey (engine : Engine) (columns : List Field)
    (condition : Condition) : UInt64 :=
  condition.fingerprint engine.digest ^^^
    engine.digest (",".intercalate (headers columns))

/-- The answer remembered for a text in the present state of a cabinet. -/
def remembered? (engine : Engine) (cabinet : Cabinet) (key : UInt64)
    (text : String) : Option Answer :=
  match engine.memo.lookup key with
  | some kept =>
      if kept.serial = cabinet.serial ∧ kept.revision = cabinet.revision ∧
          kept.text = text then
        some kept.answer
      else none
  | none => none

/-- Remembers an answer.  Answers to anything but the present state of the
cabinet are forgotten, and if there are too many still, all of them. -/
def remember (engine : Engine) (cabinet : Cabinet) (key : UInt64)
    (text : String) (answer : Answer) : Engine :=
  let current := engine.memo.filter fun (_, kept) =>
    kept.serial == cabinet.serial && kept.revision == cabinet.revision
  let roomy := if capacity ≤ current.length then [] else current
  { engine with
    memo := (key, ⟨text, cabinet.serial, cabinet.revision, answer⟩) ::
      roomy.filter (·.1 != key) }

/-- Runs a statement that only reads. -/
def runReading (engine : Engine) (cabinet : Cabinet) :
    Statement → Except Fault Answer × Engine
  | .select columns condition text =>
      let key := engine.memoKey columns condition
      match engine.remembered? cabinet key text with
      | some answer => (.ok answer, engine)
      | none =>
          let answer := Answer.ofRecords cabinet.records columns condition
          (.ok answer, engine.remember cabinet key text answer)
  | _ => (.error (.invariant .exclusiveAccess), engine)

/-- Runs a statement. -/
def run (engine : Engine) (store : Store) (statement : Statement) :
    Except Fault Answer × Engine × Store :=
  match statement with
  | .insert record freshId =>
      let (outcome, store) := store.create record freshId
      (outcome.map fun id => { affected := 1, ids := [id] }, engine, store)
  | .update assignments condition =>
      let (affected, store) :=
        store.updateWhere condition.holds (assignAll assignments)
      (.ok { affected := affected }, engine, store)
  | .delete condition =>
      let (ids, store) := store.deleteWhere condition.holds
      (.ok { affected := ids.length, ids := ids }, engine, store)
  | .select .. =>
      let (outcome, engine) := engine.runReading store.cabinet statement
      (outcome, engine, store)

/-- Reads and runs a statement. -/
def execute (engine : Engine) (store : Store) (text : String) :
    Except Fault Answer × Engine × Store :=
  match Statement.read text with
  | .error fault => (.error fault, engine, store)
  | .ok statement => engine.run store statement

end Engine

end Cardfile
