import Std.Data.TreeMap
import Cardfile.Storage.Slot

/-!
# Record files

A record file is a row of slots.  It remembers where the slot of each live id
is, so that a record is overwritten in place, and a removed one only marked.
-/

namespace Cardfile

/-- An open record file: its bytes, the places of the live slots that are
known, and the place for the next new slot. -/
structure RecordFile where
  bytes : Array UInt8
  offsets : Std.TreeMap RecordId Nat
  next : Nat

namespace RecordFile

open Storage

/-- Opens a file with the given bytes.  No slot is known yet. -/
def ofBytes (bytes : List UInt8) : RecordFile where
  bytes := bytes.toArray
  offsets := ∅
  next := bytes.length

/-- The number of slots that are known to be live. -/
def size (file : RecordFile) : Nat := file.offsets.size

/-- Whether no slot is known to be live. -/
def isEmpty (file : RecordFile) : Bool := file.offsets.isEmpty

/-- The first `count` slots of the bytes. -/
def slots : Nat → List UInt8 → List (List UInt8)
  | 0, _ => []
  | count + 1, bytes =>
      bytes.take slotSize :: slots count (bytes.drop slotSize)

/-- What has been read of a file: the places of the live slots and their
records in the order of the slots. -/
structure Loading where
  offsets : Std.TreeMap RecordId Nat := ∅
  records : List Record := []

/-- Takes in a record found at a place.  A record read earlier under the same
id gives way. -/
def Loading.take (loading : Loading) (place : Nat) (record : Record) :
    Loading where
  offsets := loading.offsets.insert record.id place
  records :=
    loading.records.filter (fun kept => kept.id != record.id) ++ [record]

/-- Reads slots from a place on, up to the first that holds neither a record
nor a tombstone. -/
def readSlots (loading : Loading) (place : Nat) :
    List (List UInt8) → Loading × Option StorageFault
  | [] => (loading, none)
  | slot :: rest =>
      match decode slot with
      | .error fault => (loading, some fault)
      | .ok none => readSlots loading (place + slotSize) rest
      | .ok (some record) =>
          readSlots (loading.take place record) (place + slotSize) rest

/-- Reads every live record, and remembers the places of those read so far
even if a slot cannot be read.  Bytes behind the last whole slot are left out,
and the next new slot goes where they begin. -/
def load (file : RecordFile) : Except Fault (List Record) × RecordFile :=
  let count := file.bytes.size / slotSize
  match readSlots {} 0 (slots count file.bytes.toList) with
  | (loading, some fault) =>
      (.error (.storage fault), { file with offsets := loading.offsets })
  | (loading, none) =>
      (.ok loading.records,
        { file with offsets := loading.offsets, next := count * slotSize })

/-- Writes a record over the slot of its id, or into a new slot. -/
def write (file : RecordFile) (record : Record) :
    Except Fault Unit × RecordFile :=
  match encode record 0 with
  | .error fault => (.error (.storage fault), file)
  | .ok slot =>
      match file.offsets[record.id]? with
      | some place =>
          (.ok (), { file with bytes := overwrite place slot file.bytes })
      | none =>
          (.ok (),
            { bytes := overwrite file.next slot file.bytes
              offsets := file.offsets.insert record.id file.next
              next := file.next + slotSize })

/-- The marks of a slot with the mark of a tombstone set. -/
def buried (marks : List UInt8) : List UInt8 :=
  littleEndian 2 (ofLittleEndian marks ||| 1 <<< tombstoneBit)

/-- Makes the slot of an id a tombstone and forgets its place. -/
def tombstone (file : RecordFile) (id : RecordId) :
    Except Fault Unit × RecordFile :=
  match file.offsets[id]? with
  | none => (.error (.absent id), file)
  | some place =>
      let file := { file with offsets := file.offsets.erase id }
      let marks := (file.bytes.extract place (place + 2)).toList
      if marks.length < 2 then
        (.error (.storage (.file .tooShort)), file)
      else
        (.ok (),
          { file with bytes := overwrite place (buried marks) file.bytes })

end RecordFile

end Cardfile
