import Cardfile.Fault
import Cardfile.Lookup
import Cardfile.Text.LowerCase
import Cardfile.Validation.Rules

/-!
# Cabinets

A cabinet keeps records under their ids, in the order of a list, with a lookup
each for first name, last name and date of birth.  Every change that is
carried out counts one revision, and a change that fails leaves the cabinet as
it was.
-/

namespace Cardfile

/-- The key under which a name is looked up. -/
def nameKey (name : String) : String := Text.lowerCase name

/-- An indexed store of records in memory. -/
structure Cabinet where
  kept : Std.TreeMap RecordId Record
  order : List RecordId
  firstNames : Lookup String
  lastNames : Lookup String
  birthdays : Lookup Date
  validator : Validator
  revision : Nat
  serial : Nat

namespace Cabinet

/-- The cabinet without records.  The serial number tells it from every other
store. -/
def empty (validator : Validator) (serial : Nat) : Cabinet where
  kept := ∅
  order := []
  firstNames := .empty
  lastNames := .empty
  birthdays := .empty
  validator := validator
  revision := 0
  serial := serial

/-- The number of records. -/
def count (cabinet : Cabinet) : Nat := cabinet.order.length

/-- The record kept under an id. -/
def get? (cabinet : Cabinet) (id : RecordId) : Option Record :=
  cabinet.kept[id]?

/-- The records kept under the given ids. -/
def resolve (cabinet : Cabinet) (ids : List RecordId) : List Record :=
  ids.filterMap cabinet.get?

/-- The records in list order. -/
def records (cabinet : Cabinet) : List Record :=
  cabinet.resolve cabinet.order

/-- The ids of the records that pass a test, in list order. -/
def matching (cabinet : Cabinet) (test : Record → Bool) : List RecordId :=
  cabinet.order.filter fun id => (cabinet.get? id).any test

/-- The records with a first name, whatever the case of its letters. -/
def findByFirstName (cabinet : Cabinet) (name : String) : List Record :=
  cabinet.resolve (cabinet.firstNames.find (nameKey name))

/-- The records with a last name, whatever the case of its letters. -/
def findByLastName (cabinet : Cabinet) (name : String) : List Record :=
  cabinet.resolve (cabinet.lastNames.find (nameKey name))

/-- The records with a date of birth. -/
def findByDateOfBirth (cabinet : Cabinet) (day : Date) : List Record :=
  cabinet.resolve (cabinet.birthdays.find day)

/-- Enters a record into the lookups. -/
def index (cabinet : Cabinet) (record : Record) : Cabinet :=
  { cabinet with
    firstNames :=
      cabinet.firstNames.insert (nameKey record.firstName) record.id
    lastNames := cabinet.lastNames.insert (nameKey record.lastName) record.id
    birthdays := cabinet.birthdays.insert record.dateOfBirth record.id }

/-- Takes a record out of the lookups. -/
def unindex (cabinet : Cabinet) (record : Record) : Cabinet :=
  { cabinet with
    firstNames :=
      (cabinet.firstNames.remove (nameKey record.firstName) record.id).2
    lastNames :=
      (cabinet.lastNames.remove (nameKey record.lastName) record.id).2
    birthdays :=
      (cabinet.birthdays.remove record.dateOfBirth record.id).2 }

/-- The first id from a number on that is not taken, among at most `tries`
and the one after them. -/
def firstFree (taken : RecordId → Bool) : Nat → Nat → RecordId
  | 0, number => Int32.ofNat number
  | tries + 1, number =>
      let id := Int32.ofNat number
      if taken id then firstFree taken tries (number + 1) else id

/-- An id that no record has.  The search starts behind the number of records,
and as many tries as there are records are enough. -/
def nextId (cabinet : Cabinet) : RecordId :=
  firstFree cabinet.kept.contains cabinet.count (cabinet.count + 1)

/-- Makes sure that the validator accepts a record. -/
def validate (cabinet : Cabinet) (record : Record) : Except Fault Unit :=
  match cabinet.validator record with
  | some reason => .error (.rejected record.id reason)
  | none => .ok ()

/-- Takes out the record kept under its id, from the list as well. -/
def discard (cabinet : Cabinet) (record : Record) : Cabinet :=
  let cabinet := cabinet.unindex record
  { cabinet with
    kept := cabinet.kept.erase record.id
    order := cabinet.order.filter (· != record.id) }

/-- Counts a change. -/
def revised (cabinet : Cabinet) : Cabinet :=
  { cabinet with revision := cabinet.revision + 1 }

/-- Puts a record at the end of the list, in place of the one with its id. -/
def place (cabinet : Cabinet) (record : Record) : Cabinet :=
  let cabinet := match cabinet.get? record.id with
    | some previous => cabinet.discard previous
    | none => cabinet
  let cabinet := cabinet.index record
  { cabinet with
    kept := cabinet.kept.insert record.id record
    order := cabinet.order ++ [record.id] }

/-- Adds a record, under a fresh id or in place of the record with its id. -/
def create (cabinet : Cabinet) (record : Record) (freshId : Bool) :
    Except Fault RecordId × Cabinet :=
  let record :=
    if freshId then { record with id := cabinet.nextId } else record
  match cabinet.validate record with
  | .error fault => (.error fault, cabinet)
  | .ok () => (.ok record.id, (cabinet.place record).revised)

/-- Keeps a record in the place of another, under its own id. -/
def replace (cabinet : Cabinet) (previous record : Record) : Cabinet :=
  let cabinet := (cabinet.unindex previous).index record
  { cabinet with
    kept := (cabinet.kept.erase previous.id).insert record.id record
    order :=
      cabinet.order.map fun id =>
        if id == previous.id then record.id else id }

/-- Changes the record with an id.  The result may have another id unless a
record has that one. -/
def edit (cabinet : Cabinet) (id : RecordId) (change : Record → Record) :
    Except Fault Unit × Cabinet :=
  match cabinet.get? id with
  | none => (.error (.absent id), cabinet)
  | some previous =>
      let record := change previous
      match cabinet.validate record with
      | .error fault => (.error fault, cabinet)
      | .ok () =>
          if record.id != id && cabinet.kept.contains record.id then
            (.error (.rejected id (.idTaken record.id)), cabinet)
          else (.ok (), (cabinet.replace previous record).revised)

/-- Removes the record with an id. -/
def delete (cabinet : Cabinet) (id : RecordId) :
    Except Fault Unit × Cabinet :=
  match cabinet.get? id with
  | none => (.error (.absent id), cabinet)
  | some record => (.ok (), (cabinet.discard record).revised)

/-- Changes every record that passes a test, leaving out those whose result is
not accepted.  The answer is the number of records changed. -/
def updateWhere (cabinet : Cabinet) (test : Record → Bool)
    (change : Record → Record) : Nat × Cabinet :=
  (cabinet.matching test).foldl
    (fun (count, cabinet) id =>
      match cabinet.edit id change with
      | (.ok (), cabinet) => (count + 1, cabinet)
      | (.error _, cabinet) => (count, cabinet))
    (0, cabinet)

/-- Removes every record that passes a test.  The answer is their ids. -/
def deleteWhere (cabinet : Cabinet) (test : Record → Bool) :
    List RecordId × Cabinet :=
  let ids := cabinet.matching test
  (ids, ids.foldl (fun cabinet id => (cabinet.delete id).2) cabinet)

/-- Takes over a record without validation: in the place of the one with its
id, or at the end of the list. -/
def merge (cabinet : Cabinet) (record : Record) : Cabinet :=
  match cabinet.get? record.id with
  | some previous => cabinet.replace previous record
  | none => cabinet.place record

/-- Takes over a list of records one by one.  The answer is their number. -/
def restore (cabinet : Cabinet) (records : List Record) : Nat × Cabinet :=
  let merged := records.foldl merge cabinet
  (records.length, if records.isEmpty then merged else merged.revised)

/-- Whether each lookup has a record's id in the bucket of its key. -/
def isIndexed (cabinet : Cabinet) (record : Record) : Bool :=
  cabinet.firstNames.holds (nameKey record.firstName) record.id &&
    cabinet.lastNames.holds (nameKey record.lastName) record.id &&
    cabinet.birthdays.holds record.dateOfBirth record.id

/-- The number of ids in each lookup. -/
def lookupSizes (cabinet : Cabinet) : List (String × Nat) :=
  [("first name", cabinet.firstNames.entries),
   ("last name", cabinet.lastNames.entries),
   ("date of birth", cabinet.birthdays.entries)]

/-- The first place where list, records and lookups disagree.  Once the
lookups have as many ids as there are records, none of them has a stale one if
every record is found in its own bucket. -/
def flaw? (cabinet : Cabinet) : Option InvariantFault :=
  let live := cabinet.kept.size
  if cabinet.order.length ≠ live then
    some (.listing cabinet.order.length live)
  else
    match cabinet.lookupSizes.find? fun size => size.2 != live with
    | some (index, entries) => some (.indexSize index entries live)
    | none =>
        (cabinet.kept.values.find? fun record =>
          !cabinet.isIndexed record).map fun record => .missing record.id

/-- Looks whether list, records and lookups agree. -/
def verify (cabinet : Cabinet) : Except Fault Unit :=
  match cabinet.flaw? with
  | some fault => .error (.invariant fault)
  | none => .ok ()

end Cabinet

end Cardfile
