import Cardfile.Proofs.Changes
import Cardfile.Proofs.Storage.Roll

/-!
# Cabinets as plain lists

A roster is all that a cabinet shows of itself: a list of records, no two with
the same id, and the number of changes.  It has no lookups and no map, and each
change is said in terms of the list.  Every change of a consistent cabinet has
the outcome that it has for the roster, and leaves what it makes of the roster.
-/

namespace Cardfile

open Storage

/-- A list of records with the number of the changes made to it. -/
structure Roster where
  records : List Record
  changes : Nat

namespace Roster

def empty : Roster := ⟨[], 0⟩

def find? (roster : Roster) (id : RecordId) : Option Record :=
  Roll.find? roster.records id

/-- The first id behind the number of records that no record has.  As many
ids are tried as there are records, and the one after them is left. -/
def nextId (roster : Roster) : RecordId :=
  let count := roster.records.length
  let tried := (List.range count).map fun offset =>
    Int32.ofNat (count + 1 + offset)
  (tried.find? fun id => (roster.find? id).isNone).getD
    (Int32.ofNat (count + 1 + count))

/-- Puts a record at the end and strikes off the one that has had its id. -/
def create (validator : Validator) (roster : Roster) (record : Record)
    (freshId : Bool) : Except Fault RecordId × Roster :=
  let record :=
    if freshId then { record with id := roster.nextId } else record
  match validator record with
  | some reason => (.error (.rejected record.id reason), roster)
  | none =>
      (.ok record.id,
        ⟨Roll.strike roster.records record.id ++ [record],
          roster.changes + 1⟩)

/-- Puts a record in the place of the one with an id. -/
def substitute (records : List Record) (id : RecordId) (record : Record) :
    List Record :=
  records.map fun kept => if kept.id == id then record else kept

def edit (validator : Validator) (roster : Roster) (id : RecordId)
    (change : Record → Record) : Except Fault Unit × Roster :=
  match roster.find? id with
  | none => (.error (.absent id), roster)
  | some previous =>
      let record := change previous
      match validator record with
      | some reason => (.error (.rejected record.id reason), roster)
      | none =>
          if record.id ≠ id ∧ (roster.find? record.id).isSome then
            (.error (.rejected id (.idTaken record.id)), roster)
          else
            (.ok (), ⟨substitute roster.records id record,
              roster.changes + 1⟩)

def delete (roster : Roster) (id : RecordId) : Except Fault Unit × Roster :=
  match roster.find? id with
  | none => (.error (.absent id), roster)
  | some _ =>
      (.ok (), ⟨Roll.strike roster.records id, roster.changes + 1⟩)

/-- Edits the records that pass a test to begin with, in their order, and
counts those that are changed. -/
def updateWhere (validator : Validator) (roster : Roster)
    (test : Record → Bool) (change : Record → Record) : Nat × Roster :=
  (Roll.ids (roster.records.filter test)).foldl
    (fun (count, roster) id =>
      match roster.edit validator id change with
      | (.ok (), roster) => (count + 1, roster)
      | (.error _, roster) => (count, roster))
    (0, roster)

/-- Keeps the records that do not pass a test. -/
def deleteWhere (roster : Roster) (test : Record → Bool) :
    List RecordId × Roster :=
  let gone := roster.records.filter test
  (Roll.ids gone,
    ⟨roster.records.filter fun record => !test record,
      roster.changes + gone.length⟩)

/-- Puts records in their places or at the end, one by one. -/
def restore (roster : Roster) (records : List Record) : Nat × Roster :=
  (records.length,
    ⟨records.foldl Roll.put roster.records,
      if records.isEmpty then roster.changes else roster.changes + 1⟩)

end Roster

namespace Cabinet

/-- What a cabinet shows of itself. -/
def roster (cabinet : Cabinet) : Roster :=
  ⟨cabinet.records, cabinet.revision⟩

@[simp]
theorem records_revised (cabinet : Cabinet) :
    cabinet.revised.records = cabinet.records := rfl

namespace Consistent

variable {cabinet : Cabinet}

theorem ids_records (consistent : cabinet.Consistent) :
    Roll.ids cabinet.records = cabinet.order :=
  consistent.map_id_records

theorem nodup_ids_records (consistent : cabinet.Consistent) :
    (Roll.ids cabinet.records).Nodup := by
  rw [consistent.ids_records]
  exact consistent.listedOnce

theorem find?_records (consistent : cabinet.Consistent) (id : RecordId) :
    Roll.find? cabinet.records id = cabinet.get? id := by
  cases present : cabinet.get? id with
  | none =>
      rw [Roll.find?_eq_none, consistent.ids_records]
      exact consistent.not_mem_order.mpr present
  | some record =>
      have listed : id ∈ cabinet.order := by
        rw [consistent.mem_order, present]
        rfl
      have member : record ∈ cabinet.records :=
        List.mem_filterMap.mpr ⟨id, listed, present⟩
      have own := consistent.ownId id record present
      have found := Roll.find?_of_mem consistent.nodup_ids_records member
      rwa [own] at found

/-- The list is known by the order of its ids and by what is kept under
them. -/
theorem records_eq {roll : List Record} (listedOnce : cabinet.order.Nodup)
    (order : cabinet.order = Roll.ids roll)
    (kept : ∀ id, cabinet.get? id = Roll.find? roll id) :
    cabinet.records = roll := by
  rw [records, resolve, order, funext kept]
  exact Roll.filterMap_find? roll (order ▸ listedOnce)

theorem records_place (consistent : cabinet.Consistent) (record : Record) :
    (cabinet.place record).records =
      Roll.strike cabinet.records record.id ++ [record] := by
  apply records_eq (consistent.place record).listedOnce
  · rw [consistent.order_place, Roll.ids, List.map_append, ← Roll.ids,
      Roll.ids_strike, consistent.ids_records]
    rfl
  · intro id
    rw [consistent.get?_place, Roll.find?, List.find?_append, ← Roll.find?,
      Roll.find?_strike, consistent.find?_records]
    by_cases same : record.id = id
    · simp [same]
    · simp [same]

theorem records_discard (consistent : cabinet.Consistent) {record : Record}
    (present : cabinet.get? record.id = some record) :
    (cabinet.discard record).records =
      Roll.strike cabinet.records record.id := by
  apply records_eq (consistent.discard present).listedOnce
  · rw [order_discard, Roll.ids_strike, consistent.ids_records]
  · intro id
    rw [get?_discard, Roll.find?_strike, consistent.find?_records]

theorem records_merge (consistent : cabinet.Consistent) (record : Record) :
    (cabinet.merge record).records = Roll.put cabinet.records record := by
  apply records_eq (consistent.merge record).listedOnce
  · rw [consistent.order_merge, Roll.ids_put, consistent.ids_records]
  · intro id
    rw [consistent.get?_merge, Roll.find?_put, consistent.find?_records]

theorem records_replace (consistent : cabinet.Consistent)
    {previous record : Record}
    (room : record.id = previous.id ∨ cabinet.get? record.id = none) :
    (cabinet.replace previous record).records =
      Roster.substitute cabinet.records previous.id record := by
  rw [records, resolve, order_replace, List.filterMap_map, records, resolve,
    Roster.substitute, List.map_filterMap]
  apply List.filterMap_congr
  intro id listed
  obtain ⟨kept, present⟩ :=
    Option.isSome_iff_exists.mp ((consistent.mem_order id).mp listed)
  have own := consistent.ownId id kept present
  rw [Function.comp_apply, get?_replace, present, Option.map_some, own]
  by_cases same : id = previous.id
  · simp [same]
  · have apart : record.id ≠ id := by
      rintro rfl
      rcases room with kept | free
      · exact same kept
      · rw [free] at present
        cases present
    simp [same, apart, Ne.symm same, present]

theorem firstFree_eq (taken : RecordId → Bool) (tries number : Nat) :
    firstFree taken tries number =
      (((List.range tries).map fun offset =>
        Int32.ofNat (number + offset)).find? fun id => !taken id).getD
          (Int32.ofNat (number + tries)) := by
  induction tries generalizing number with
  | zero => rfl
  | succ tries ih =>
      have later : (List.range (tries + 1)).map
          (fun offset => Int32.ofNat (number + offset)) =
            Int32.ofNat number :: (List.range tries).map
              fun offset => Int32.ofNat (number + 1 + offset) := by
        rw [List.range_succ_eq_map, List.map_cons, List.map_map]
        refine congrArg (Int32.ofNat number :: ·) (List.map_congr_left ?_)
        intro offset _
        simp only [Function.comp_apply, Nat.succ_eq_add_one]
        congr 1
        omega
      have last : number + (tries + 1) = number + 1 + tries := by omega
      rw [later, last, firstFree, List.find?_cons]
      by_cases busy : taken (Int32.ofNat number)
      · simpa [busy] using ih (number + 1)
      · simp [busy]

theorem nextId_roster (consistent : cabinet.Consistent) :
    cabinet.roster.nextId = cabinet.nextId := by
  have count : cabinet.roster.records.length = cabinet.count := by
    rw [count, ← consistent.ids_records, Roll.ids, List.length_map]
    rfl
  have free : ∀ id, (cabinet.roster.find? id).isNone =
      !cabinet.kept.contains id := by
    intro id
    rw [Roster.find?, roster, consistent.find?_records, get?_eq,
      ← Std.TreeMap.isSome_getElem?_eq_contains, Option.not_isSome]
  rw [Roster.nextId, nextId, firstFree_eq, count, funext free]

theorem create_roster (consistent : cabinet.Consistent) (record : Record)
    (freshId : Bool) :
    (cabinet.create record freshId).map id roster =
      cabinet.roster.create cabinet.validator record freshId := by
  have entrant : (if freshId then
      { record with id := cabinet.roster.nextId } else record) =
        cabinet.entrant record freshId := by
    rw [consistent.nextId_roster]
    rfl
  rw [Roster.create, entrant]
  rcases cabinet.create_cases record freshId with
    ⟨reason, refused, failed⟩ | ⟨accepted, entered⟩
  · rw [failed, refused]
    rfl
  · have standing :=
      (cabinet.sameStanding_place (cabinet.entrant record freshId)).revision
    rw [entered, accepted]
    simp only [Prod.map_apply, id]
    congr 1
    rw [roster, records_revised, consistent.records_place,
      Cabinet.revised, standing]
    rfl

theorem find?_roster (consistent : cabinet.Consistent) (id : RecordId) :
    cabinet.roster.find? id = cabinet.get? id :=
  consistent.find?_records id

theorem edit_roster (consistent : cabinet.Consistent) (old : RecordId)
    (change : Record → Record) :
    (cabinet.edit old change).map id roster =
      cabinet.roster.edit cabinet.validator old change := by
  simp only [Cabinet.edit, Roster.edit, consistent.find?_roster, validate]
  cases present : cabinet.get? old with
  | none => rfl
  | some previous =>
      simp only
      cases verdict : cabinet.validator (change previous) with
      | some reason => rfl
      | none =>
          have own := consistent.ownId old previous present
          have taken : ((change previous).id != old &&
              cabinet.kept.contains (change previous).id) = true ↔
                (change previous).id ≠ old ∧
                  (cabinet.get? (change previous).id).isSome = true := by
            rw [Bool.and_eq_true, bne_iff_ne, get?_eq,
              Std.TreeMap.isSome_getElem?_eq_contains]
          simp only [taken]
          split
          · rfl
          · next free =>
              have room : (change previous).id = previous.id ∨
                  cabinet.get? (change previous).id = none := by
                by_cases same : (change previous).id = old
                · exact .inl (same.trans own.symm)
                · exact .inr (by simpa [same] using free)
              simp only [Prod.map_apply, id]
              congr 1
              rw [roster, records_revised, consistent.records_replace room,
                own]
              rfl

theorem delete_roster (consistent : cabinet.Consistent) (old : RecordId) :
    (cabinet.delete old).map id roster = cabinet.roster.delete old := by
  simp only [Cabinet.delete, Roster.delete, consistent.find?_roster]
  cases present : cabinet.get? old with
  | none => rfl
  | some record =>
      have discarded := consistent.records_discard
        (consistent.get?_id present)
      rw [consistent.ownId old record present] at discarded
      simp only [Prod.map_apply, id]
      congr 1
      rw [roster, records_revised, discarded]
      rfl

theorem edits_roster (consistent : cabinet.Consistent)
    (change : Record → Record) (ids : List RecordId) (count : Nat) :
    (ids.foldl
      (fun (count, cabinet) id =>
        match Cabinet.edit cabinet id change with
        | (.ok (), cabinet) => (count + 1, cabinet)
        | (.error _, cabinet) => (count, cabinet))
      (count, cabinet)).map id roster =
      ids.foldl
        (fun (count, roster) id =>
          match Roster.edit cabinet.validator roster id change with
          | (.ok (), roster) => (count + 1, roster)
          | (.error _, roster) => (count, roster))
        (count, cabinet.roster) := by
  induction ids generalizing cabinet count with
  | nil => rfl
  | cons old ids ih =>
      have next := consistent.edit old change
      have validator := (cabinet.edit_advances old change).validator
      have step := consistent.edit_roster old change
      simp only [List.foldl_cons, ← step]
      rcases result : cabinet.edit old change with ⟨outcome, edited⟩
      rw [result] at next validator
      rw [← validator]
      cases outcome with
      | ok => exact ih next (count + 1)
      | error => exact ih next count

theorem updateWhere_roster (consistent : cabinet.Consistent)
    (test : Record → Bool) (change : Record → Record) :
    (cabinet.updateWhere test change).map id roster =
      cabinet.roster.updateWhere cabinet.validator test change := by
  have matched : Roll.ids (cabinet.roster.records.filter test) =
      cabinet.matching test := consistent.map_id_filter_records test
  rw [Cabinet.updateWhere, Roster.updateWhere, matched]
  exact consistent.edits_roster change (cabinet.matching test) 0

/-- A row of deletions strikes all the ids off, if each is there once. -/
theorem deletes_roster (consistent : cabinet.Consistent)
    {ids : List RecordId} (distinct : ids.Nodup)
    (listed : ids ⊆ cabinet.order) :
    (ids.foldl (fun cabinet id => (Cabinet.delete cabinet id).2)
        cabinet).roster =
      ⟨cabinet.records.filter fun record => !ids.contains record.id,
        cabinet.revision + ids.length⟩ := by
  induction ids generalizing cabinet with
  | nil => simp [roster]
  | cons old ids ih =>
      obtain ⟨absent, distinct⟩ := List.nodup_cons.mp distinct
      obtain ⟨listedOld, listedRest⟩ := List.cons_subset.mp listed
      obtain ⟨record, present⟩ := Option.isSome_iff_exists.mp
        ((consistent.mem_order old).mp listedOld)
      have step := consistent.delete_roster old
      rw [Roster.delete, consistent.find?_roster, present] at step
      have struck : (cabinet.delete old).2.roster =
          ⟨Roll.strike cabinet.records old, cabinet.revision + 1⟩ :=
        congrArg Prod.snd step
      have records := congrArg Roster.records struck
      have revision := congrArg Roster.changes struck
      simp only [roster] at records revision
      have next := consistent.delete old
      have left : ids ⊆ (cabinet.delete old).2.order := by
        intro id member
        rw [← next.ids_records, records, Roll.ids_strike, List.mem_filter,
          consistent.ids_records]
        exact ⟨listedRest member,
          by simpa using ne_of_mem_of_not_mem member absent⟩
      rw [List.foldl_cons, ih next distinct left, records, revision,
        Roll.strike, List.filter_filter]
      congr 1
      · congr 1
        funext record
        rw [List.contains_cons, Bool.not_or, Bool.and_comm]
        rfl
      · rw [List.length_cons]
        omega

theorem deleteWhere_roster (consistent : cabinet.Consistent)
    (test : Record → Bool) :
    (cabinet.deleteWhere test).map id roster =
      cabinet.roster.deleteWhere test := by
  have matched := consistent.map_id_filter_records test
  have distinct : (cabinet.matching test).Nodup :=
    consistent.listedOnce.filter _
  have listed : cabinet.matching test ⊆ cabinet.order :=
    List.filter_sublist.subset
  have struck := consistent.deletes_roster distinct listed
  have kept : (cabinet.records.filter fun record =>
      !(cabinet.matching test).contains record.id) =
        cabinet.records.filter fun record => !test record := by
    apply List.filter_congr
    intro record member
    congr 1
    rw [Bool.eq_iff_iff, List.contains_iff_mem, ← matched, List.mem_map]
    constructor
    · rintro ⟨other, passes, same⟩
      obtain ⟨otherMember, passes⟩ := List.mem_filter.mp passes
      have found := Roll.find?_of_mem consistent.nodup_ids_records member
      have otherFound :=
        Roll.find?_of_mem consistent.nodup_ids_records otherMember
      rw [same, found] at otherFound
      cases otherFound
      exact passes
    · intro passes
      exact ⟨record, List.mem_filter.mpr ⟨member, passes⟩, rfl⟩
  rw [kept, ← matched, List.length_map] at struck
  simp only [Cabinet.deleteWhere, Roster.deleteWhere, Prod.map_apply, id]
  rw [← matched, struck]
  rfl

theorem records_foldl_merge (consistent : cabinet.Consistent)
    (records : List Record) :
    (records.foldl Cabinet.merge cabinet).records =
      records.foldl Roll.put cabinet.records := by
  induction records generalizing cabinet with
  | nil => rfl
  | cons record records ih =>
      rw [List.foldl_cons, List.foldl_cons, ih (consistent.merge record),
        consistent.records_merge]

theorem restore_roster (consistent : cabinet.Consistent)
    (records : List Record) :
    (cabinet.restore records).map id roster =
      cabinet.roster.restore records := by
  have merged := consistent.records_foldl_merge records
  have standing := (cabinet.sameStanding_foldl_merge records).revision
  cases records with
  | nil => rfl
  | cons record records =>
      simp only [Cabinet.restore, Roster.restore, Prod.map_apply, id]
      congr 1
      rw [roster]
      congr 1
      exact congrArg (· + 1) standing

end Consistent

end Cabinet

end Cardfile
