import Cardfile.Storage.FiledCabinet

/-!
# Stores

A store is a cabinet in memory, a cabinet with a file, or a store under watch.
All of them are read through their cabinet.  A watched store does what the
store below it does and keeps a journal of the changes that were asked for.
-/

namespace Cardfile

/-- The kinds of change that a journal names. -/
inductive ChangeKind where
  | create
  | edit
  | delete
  | updateWhere
  | deleteWhere
  | restore
deriving DecidableEq, Repr

/-- Something that keeps records. -/
inductive Store where
  | memory (cabinet : Cabinet)
  | onFile (filed : FiledCabinet)
  | watched (journal : List ChangeKind) (store : Store)

namespace Store

/-- The cabinet through which a store is read. -/
def cabinet : Store → Cabinet
  | .memory cabinet => cabinet
  | .onFile filed => filed.cabinet
  | .watched _ store => store.cabinet

/-- The record file of a store, if it has one. -/
def file? : Store → Option RecordFile
  | .memory _ => none
  | .onFile filed => some filed.file
  | .watched _ store => store.file?

/-- The store with a change of its record file from outside. -/
def mapFile (change : RecordFile → RecordFile) : Store → Store
  | .memory cabinet => .memory cabinet
  | .onFile filed => .onFile { filed with file := change filed.file }
  | .watched journal store => .watched journal (store.mapFile change)

/-- Watches a store, from now on. -/
def watch (store : Store) : Store := .watched [] store

/-- The store below all watching. -/
def unwatched : Store → Store
  | .watched _ store => store.unwatched
  | store => store

/-- Carries a change out on whatever is at the bottom of the store.  Every
journal on the way notes it, the latest change first. -/
def carry (kind : ChangeKind) (onCabinet : Cabinet → α × Cabinet)
    (onFiled : FiledCabinet → α × FiledCabinet) : Store → α × Store
  | .memory cabinet =>
      let (outcome, cabinet) := onCabinet cabinet
      (outcome, .memory cabinet)
  | .onFile filed =>
      let (outcome, filed) := onFiled filed
      (outcome, .onFile filed)
  | .watched journal store =>
      let (outcome, store) := carry kind onCabinet onFiled store
      (outcome, .watched (kind :: journal) store)

/-- Adds a record, under a fresh id or in place of the one with its id. -/
def create (store : Store) (record : Record) (freshId : Bool) :
    Except Fault RecordId × Store :=
  store.carry .create (·.create record freshId) (·.create record freshId)

/-- Changes the record with an id. -/
def edit (store : Store) (id : RecordId) (change : Record → Record) :
    Except Fault Unit × Store :=
  store.carry .edit (·.edit id change) (·.edit id change)

/-- Removes the record with an id. -/
def delete (store : Store) (id : RecordId) : Except Fault Unit × Store :=
  store.carry .delete (·.delete id) (·.delete id)

/-- Changes every record that passes a test. -/
def updateWhere (store : Store) (test : Record → Bool)
    (change : Record → Record) : Nat × Store :=
  store.carry .updateWhere (·.updateWhere test change)
    (·.updateWhere test change)

/-- Removes every record that passes a test. -/
def deleteWhere (store : Store) (test : Record → Bool) :
    List RecordId × Store :=
  store.carry .deleteWhere (·.deleteWhere test) (·.deleteWhere test)

/-- Takes over a list of records. -/
def restore (store : Store) (records : List Record) : Nat × Store :=
  store.carry .restore (·.restore records) (·.restore records)

end Store

end Cardfile
