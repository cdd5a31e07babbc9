import Cardfile.Cabinet
import Cardfile.Storage.RecordFile

/-!
# Cabinets with a record file

A filed cabinet writes every change of its cabinet into a record file.  The
change in memory comes first and stands even where the file cannot follow, in
which case the fault of the file is the answer.
-/

namespace Cardfile

/-- A cabinet and the file that follows it. -/
structure FiledCabinet where
  cabinet : Cabinet
  file : RecordFile

namespace FiledCabinet

/-- Takes the records of a file into a cabinet. -/
def ofFile (file : RecordFile) (cabinet : Cabinet) :
    Except Fault FiledCabinet :=
  match file.load with
  | (.error fault, _) => .error fault
  | (.ok records, file) => .ok ⟨(cabinet.restore records).2, file⟩

/-- Writes the record kept under an id. -/
def follow (filed : FiledCabinet) (id : RecordId) :
    Except Fault Unit × FiledCabinet :=
  match filed.cabinet.get? id with
  | none => (.error (.absent id), filed)
  | some record =>
      let (outcome, file) := filed.file.write record
      (outcome, { filed with file := file })

/-- Buries the slot of an id. -/
def bury (filed : FiledCabinet) (id : RecordId) :
    Except Fault Unit × FiledCabinet :=
  let (outcome, file) := filed.file.tombstone id
  (outcome, { filed with file := file })

/-- Buries the slot of one id if asked to, and writes the record kept under
another unless that failed. -/
def buryAndFollow (filed : FiledCabinet) (gone : Option RecordId)
    (id : RecordId) : Except Fault Unit × FiledCabinet :=
  match gone with
  | none => filed.follow id
  | some old =>
      match filed.bury old with
      | (.error fault, filed) => (.error fault, filed)
      | (.ok (), filed) => filed.follow id

/-- Adds a record.  One that replaces another moves to the end of the list, so
its slot moves too. -/
def create (filed : FiledCabinet) (record : Record) (freshId : Bool) :
    Except Fault RecordId × FiledCabinet :=
  let replaces := !freshId && (filed.cabinet.get? record.id).isSome
  match filed.cabinet.create record freshId with
  | (.error fault, cabinet) =>
      (.error fault, { filed with cabinet := cabinet })
  | (.ok id, cabinet) =>
      let (outcome, filed) :=
        { filed with cabinet := cabinet }.buryAndFollow
          (if replaces then some id else none) id
      (outcome.map fun () => id, filed)

/-- Changes the record with an id, and moves its slot if it gets another id.
-/
def edit (filed : FiledCabinet) (id : RecordId) (change : Record → Record) :
    Except Fault Unit × FiledCabinet :=
  match filed.cabinet.get? id with
  | none => (.error (.absent id), filed)
  | some record =>
      let newId := (change record).id
      match filed.cabinet.edit id change with
      | (.error fault, cabinet) =>
          (.error fault, { filed with cabinet := cabinet })
      | (.ok (), cabinet) =>
          { filed with cabinet := cabinet }.buryAndFollow
            (if newId != id then some id else none) newId

/-- Removes the record with an id and buries its slot. -/
def delete (filed : FiledCabinet) (id : RecordId) :
    Except Fault Unit × FiledCabinet :=
  match filed.cabinet.delete id with
  | (.error fault, cabinet) =>
      (.error fault, { filed with cabinet := cabinet })
  | (.ok (), cabinet) => { filed with cabinet := cabinet }.bury id

/-- The ids of the listed records that pass a test. -/
def matching (filed : FiledCabinet) (test : Record → Bool) : List RecordId :=
  (filed.cabinet.records.filter test).map Record.id

/-- Whether a batch counts a record: the change was carried out, or only the
file failed. -/
def counts : Except Fault Unit → Bool
  | .ok () => true
  | .error (.storage _) => true
  | .error _ => false

/-- Changes every record that passes a test, one by one. -/
def updateWhere (filed : FiledCabinet) (test : Record → Bool)
    (change : Record → Record) : Nat × FiledCabinet :=
  (filed.matching test).foldl
    (fun (count, filed) id =>
      let (outcome, filed) := filed.edit id change
      (if counts outcome then count + 1 else count, filed))
    (0, filed)

/-- Removes every record that passes a test, one by one. -/
def deleteWhere (filed : FiledCabinet) (test : Record → Bool) :
    List RecordId × FiledCabinet :=
  let ids := filed.matching test
  (ids, ids.foldl (fun filed id => (filed.delete id).2) filed)

/-- Takes over a list of records.  Those that cannot be written are passed
over by the file. -/
def restore (filed : FiledCabinet) (records : List Record) :
    Nat × FiledCabinet :=
  let (count, cabinet) := filed.cabinet.restore records
  (count,
    { cabinet := cabinet
      file := records.foldl (fun file record => (file.write record).2)
        filed.file })

end FiledCabinet

end Cardfile
