import Mathlib.Data.List.Perm.Subperm
import Cardfile.Proofs.Cabinet

/-!
# What the check of a cabinet finds

The check compares totals and looks every record up in its own bucket.  It
never looks for entries that should not be there, and it does not look into
the list.  For the lookups this is enough: where the totals agree, a stale or
repeated entry would be one too many.  That holds of any cabinet that keeps
its records under their own ids, however damaged its list and lookups are.
-/

namespace Cardfile

/-- A list without repetitions takes all the places of one that is not
longer. -/
theorem perm_iff_of_nodup {α : Type} {left right : List α}
    (distinct : left.Nodup) :
    right.Perm left ↔ right.length = left.length ∧ left ⊆ right := by
  constructor
  · intro same
    exact ⟨same.length_eq, same.symm.subset⟩
  · rintro ⟨length, inside⟩
    have within := List.subperm_of_subset distinct inside
    exact (within.perm_of_length_le (Nat.le_of_eq length)).symm

namespace Lookup

variable {κ : Type} [Ord κ]

/-- The entries of all buckets, each with its key. -/
def pairs (lookup : Lookup κ) : List (κ × RecordId) :=
  lookup.buckets.toList.flatMap fun entry => entry.2.map (entry.1, ·)

theorem length_pairs (lookup : Lookup κ) :
    lookup.pairs.length = lookup.entries := by
  rw [entries_eq_length, pairs, List.length_flatMap, List.length_flatMap]
  simp

variable [Std.TransOrd κ] [Std.LawfulEqOrd κ]

theorem mem_pairs (lookup : Lookup κ) (key : κ) (id : RecordId) :
    (key, id) ∈ lookup.pairs ↔ lookup.holds key id = true := by
  rw [holds, List.contains_iff_mem, find_eq, pairs, List.mem_flatMap]
  constructor
  · rintro ⟨⟨held, bucket⟩, entry, member⟩
    obtain ⟨found, inBucket, same⟩ := List.mem_map.mp member
    cases same
    rw [Std.TreeMap.mem_toList_iff_getElem?_eq_some.mp entry]
    exact inBucket
  · intro inBucket
    cases present : lookup.buckets[key]? with
    | none => simp [present] at inBucket
    | some bucket =>
        rw [present] at inBucket
        refine ⟨(key, bucket), ?_, ?_⟩
        · exact Std.TreeMap.mem_toList_iff_getElem?_eq_some.mpr present
        · exact List.mem_map.mpr ⟨id, inBucket, rfl⟩

/-- A lookup has one entry for each of some records and no others exactly if
it has as many entries and holds each record. -/
theorem perm_pairs_iff (lookup : Lookup κ) (keyOf : Record → κ)
    {records : List Record} (distinct : (records.map Record.id).Nodup) :
    lookup.pairs.Perm (records.map fun record => (keyOf record, record.id)) ↔
      lookup.entries = records.length ∧
        ∀ record ∈ records,
          lookup.holds (keyOf record) record.id = true := by
  have once :
      (records.map fun record => (keyOf record, record.id)).Nodup := by
    apply List.Nodup.of_map Prod.snd
    rwa [List.map_map]
  have inside :
      (records.map fun record => (keyOf record, record.id)) ⊆ lookup.pairs ↔
        ∀ record ∈ records,
          lookup.holds (keyOf record) record.id = true := by
    simp only [List.subset_def, List.forall_mem_map, mem_pairs]
  rw [perm_iff_of_nodup once, length_pairs, List.length_map, inside]

end Lookup

namespace Cabinet

/-- Every record is kept under its own id. -/
def KeepsOwnIds (cabinet : Cabinet) : Prop :=
  ∀ id record, cabinet.get? id = some record → record.id = id

variable {cabinet : Cabinet}

theorem KeepsOwnIds.map_id_values (own : cabinet.KeepsOwnIds) :
    cabinet.kept.values.map Record.id = cabinet.kept.keys := by
  rw [values_kept, List.map_map, ← Std.TreeMap.map_fst_toList_eq_keys]
  apply List.map_congr_left
  rintro ⟨id, record⟩ entry
  exact own id record (Std.TreeMap.mem_toList_iff_getElem?_eq_some.mp entry)

theorem lookupSizes_find?_eq_none (cabinet : Cabinet) (live : Nat) :
    (cabinet.lookupSizes.find? fun size => size.2 != live) = none ↔
      cabinet.firstNames.entries = live ∧ cabinet.lastNames.entries = live ∧
        cabinet.birthdays.entries = live := by
  simp [lookupSizes]

theorem isIndexed_iff (cabinet : Cabinet) (record : Record) :
    cabinet.isIndexed record = true ↔
      cabinet.firstNames.holds (nameKey record.firstName) record.id = true ∧
      cabinet.lastNames.holds (nameKey record.lastName) record.id = true ∧
      cabinet.birthdays.holds record.dateOfBirth record.id = true := by
  simp [isIndexed, and_assoc]

theorem verify_eq_ok_iff_flaw? (cabinet : Cabinet) :
    cabinet.verify = .ok () ↔ cabinet.flaw? = none := by
  rw [verify]
  cases cabinet.flaw? with
  | none => simp
  | some fault => simp

theorem flaw?_eq_none_iff (cabinet : Cabinet) :
    cabinet.flaw? = none ↔
      cabinet.order.length = cabinet.kept.size ∧
      (cabinet.firstNames.entries = cabinet.kept.size ∧
        cabinet.lastNames.entries = cabinet.kept.size ∧
        cabinet.birthdays.entries = cabinet.kept.size) ∧
      ∀ record ∈ cabinet.kept.values, cabinet.isIndexed record = true := by
  rw [← lookupSizes_find?_eq_none, flaw?]
  by_cases listed : cabinet.order.length = cabinet.kept.size
  · rw [if_neg (not_not_intro listed)]
    cases sizes : cabinet.lookupSizes.find?
        fun size => size.2 != cabinet.kept.size with
    | some size => simp
    | none => simp [listed]
  · rw [if_pos listed]
    simp [listed]

/-- The check passes exactly if the list is as long as there are records and
each lookup has one entry for every record, under the record's key, and no
others. -/
theorem verify_eq_ok_iff (own : cabinet.KeepsOwnIds) :
    cabinet.verify = .ok () ↔
      cabinet.order.length = cabinet.kept.size ∧
      cabinet.firstNames.pairs.Perm (cabinet.kept.values.map
        fun record => (nameKey record.firstName, record.id)) ∧
      cabinet.lastNames.pairs.Perm (cabinet.kept.values.map
        fun record => (nameKey record.lastName, record.id)) ∧
      cabinet.birthdays.pairs.Perm (cabinet.kept.values.map
        fun record => (record.dateOfBirth, record.id)) := by
  have distinct : (cabinet.kept.values.map Record.id).Nodup := by
    rw [own.map_id_values]
    exact Std.TreeMap.nodup_keys
  have size : cabinet.kept.values.length = cabinet.kept.size := by
    rw [← Std.TreeMap.length_keys, ← own.map_id_values, List.length_map]
  rw [verify_eq_ok_iff_flaw?, flaw?_eq_none_iff,
    cabinet.firstNames.perm_pairs_iff _ distinct,
    cabinet.lastNames.perm_pairs_iff _ distinct,
    cabinet.birthdays.perm_pairs_iff _ distinct, size]
  simp only [isIndexed_iff, forall_and]
  constructor
  · rintro ⟨listed, ⟨first, last, born⟩, inFirst, inLast, inBorn⟩
    exact ⟨listed, ⟨first, inFirst⟩, ⟨last, inLast⟩, born, inBorn⟩
  · rintro ⟨listed, ⟨first, inFirst⟩, ⟨last, inLast⟩, born, inBorn⟩
    exact ⟨listed, ⟨first, last, born⟩, inFirst, inLast, inBorn⟩

/-- Two records of which the lookup of first names knows one twice.  The list
names neither. -/
def misfiled : Cabinet :=
  let ann : Record := { id := 1, firstName := "Ann", lastName := "Lee" }
  let bob : Record := { id := 2, firstName := "Bob", lastName := "Lee" }
  { empty (fun _ => none) 0 with
    kept := ((∅ : Std.TreeMap RecordId Record).insert 1 ann).insert 2 bob
    order := [7, 7]
    firstNames := ⟨.ofList [("ann", [(1 : RecordId), 1])]⟩
    lastNames := ⟨.ofList [("lee", [(2 : RecordId), 1])]⟩
    birthdays := ⟨.ofList [(Date.epoch, [(1 : RecordId), 2])]⟩ }

/-- All totals are right, and still the repeated entry is found. -/
theorem verify_misfiled :
    misfiled.KeepsOwnIds ∧
      misfiled.verify = .error (.invariant (.missing 2)) ∧
      ¬misfiled.firstNames.pairs.Perm (misfiled.kept.values.map
        fun record => (nameKey record.firstName, record.id)) := by
  have own : misfiled.KeepsOwnIds := by
    intro id record found
    simp only [get?_eq, misfiled, Std.TreeMap.getElem?_insert,
      Std.compare_eq_iff_eq] at found
    grind
  have flawed : misfiled.verify = .error (.invariant (.missing 2)) := by
    decide +kernel
  refine ⟨own, flawed, ?_⟩
  intro same
  have passed : misfiled.verify = .ok () := by
    apply (verify_eq_ok_iff own).mpr
    exact ⟨by decide +kernel, same, by decide +kernel, by decide +kernel⟩
  rw [flawed] at passed
  cases passed

end Cabinet

end Cardfile
