import Mathlib.Data.List.Nodup
import Std.Data.TreeMap.Lemmas
import Cardfile.Lookup

/-!
# Laws of lookups

Entering an id touches the bucket of its key and no other, and so does taking
it out.  A lookup indexes a collection of records by a key if each bucket
holds exactly the ids of the records with that key.  The second half shows how
an index follows a record that comes or goes, and that an index has as many
entries as there are records.
-/

namespace Cardfile.Lookup

section Buckets

variable {κ : Type} [Ord κ]

theorem entries_eq_length (lookup : Lookup κ) :
    lookup.entries = (lookup.buckets.toList.flatMap Prod.snd).length := by
  rw [entries, Std.TreeMap.foldl_eq_foldl_toList]
  suffices total : ∀ (buckets : List (κ × List RecordId)) (start : Nat),
      buckets.foldl (fun total entry => total + entry.2.length) start =
        start + (buckets.flatMap Prod.snd).length by
    simpa using total lookup.buckets.toList 0
  intro buckets
  induction buckets with
  | nil => simp
  | cons bucket buckets ih =>
      intro start
      simp only [List.foldl_cons, List.flatMap_cons, List.length_append]
      rw [ih]
      omega

theorem find_eq [Std.TransOrd κ] (lookup : Lookup κ) (key : κ) :
    lookup.find key = lookup.buckets[key]?.getD [] := by
  exact Std.TreeMap.getD_eq_getD_getElem?

variable [Std.TransOrd κ]

@[simp]
theorem find_empty (key : κ) : (empty : Lookup κ).find key = [] := by
  simp [find_eq, empty]

/-- No bucket is empty, and none holds an id twice. -/
structure Tidy (lookup : Lookup κ) : Prop where
  filled : ∀ (key : κ) (bucket : List RecordId),
    lookup.buckets[key]? = some bucket → bucket ≠ []
  distinct : ∀ key, (lookup.find key).Nodup

theorem Tidy.empty : Tidy (Lookup.empty : Lookup κ) := by
  constructor
  · intro key bucket found
    simp [Lookup.empty] at found
  · intro key
    simp

variable [Std.LawfulEqOrd κ]

theorem find_of_mem_toList {lookup : Lookup κ} {entry : κ × List RecordId}
    (member : entry ∈ lookup.buckets.toList) :
    lookup.find entry.1 = entry.2 := by
  rw [find_eq, Std.TreeMap.mem_toList_iff_getElem?_eq_some.mp member]
  rfl

theorem find_insert_self (lookup : Lookup κ) (key : κ) (id : RecordId) :
    (lookup.insert key id).find key =
      if id ∈ lookup.find key then lookup.find key
      else lookup.find key ++ [id] := by
  simp [find_eq, insert]

theorem find_insert_of_ne (lookup : Lookup κ) {key other : κ}
    (id : RecordId) (different : key ≠ other) :
    (lookup.insert key id).find other = lookup.find other := by
  simp [find_eq, insert, Std.TreeMap.getElem?_insert, different]

theorem find_remove_self (lookup : Lookup κ) (key : κ) (id : RecordId) :
    (lookup.remove key id).2.find key =
      (lookup.find key).filter (· != id) := by
  simp only [remove]
  cases found : lookup.buckets[key]? with
  | none => simp [find_eq, found]
  | some bucket =>
      simp only [rebucket]
      split
      · next emptied =>
          simp only [List.isEmpty_iff] at emptied
          simp [find_eq, found, emptied]
      · simp [find_eq, found]

theorem find_remove_of_ne (lookup : Lookup κ) {key other : κ}
    (id : RecordId) (different : key ≠ other) :
    (lookup.remove key id).2.find other = lookup.find other := by
  simp only [remove]
  cases lookup.buckets[key]? with
  | none => rfl
  | some bucket =>
      simp only [rebucket]
      split <;>
        simp [find_eq, Std.TreeMap.getElem?_erase,
          Std.TreeMap.getElem?_insert, different]

theorem mem_find_insert (lookup : Lookup κ) (key other : κ)
    (id found : RecordId) :
    found ∈ (lookup.insert key id).find other ↔
      (key = other ∧ found = id) ∨ found ∈ lookup.find other := by
  by_cases same : key = other
  · subst other
    rw [find_insert_self]
    split
    · next present =>
        constructor
        · exact Or.inr
        · rintro (⟨_, rfl⟩ | member)
          · exact present
          · exact member
    · simp [or_comm]
  · simp [find_insert_of_ne lookup id same, same]

theorem mem_find_remove (lookup : Lookup κ) (key other : κ)
    (id found : RecordId) :
    found ∈ (lookup.remove key id).2.find other ↔
      found ∈ lookup.find other ∧ ¬(key = other ∧ found = id) := by
  by_cases same : key = other
  · subst other
    simp [find_remove_self]
  · simp [find_remove_of_ne lookup id same, same]

theorem Tidy.insert {lookup : Lookup κ} (tidy : lookup.Tidy) (key : κ)
    (id : RecordId) : (lookup.insert key id).Tidy := by
  constructor
  · intro other bucket found
    simp only [Lookup.insert, Std.TreeMap.getElem?_insert] at found
    split at found
    · cases found
      split
      · next present =>
          intro vacant
          simp [vacant] at present
      · simp
    · exact tidy.filled other bucket found
  · intro other
    by_cases same : key = other
    · subst other
      rw [find_insert_self]
      split
      · exact tidy.distinct key
      · next absent =>
          exact List.nodup_append.mpr
            ⟨tidy.distinct key, List.nodup_singleton id, by
              intro left member right single equal
              rw [List.mem_singleton] at single
              exact absent (single ▸ equal ▸ member)⟩
    · rw [find_insert_of_ne lookup id same]
      exact tidy.distinct other

theorem Tidy.remove {lookup : Lookup κ} (tidy : lookup.Tidy) (key : κ)
    (id : RecordId) : (lookup.remove key id).2.Tidy := by
  constructor
  · intro other bucket found
    simp only [Lookup.remove] at found
    split at found
    · exact tidy.filled other bucket found
    · simp only [rebucket] at found
      split at found
      · simp only [Std.TreeMap.getElem?_erase] at found
        split at found
        · cases found
        · exact tidy.filled other bucket found
      · next kept =>
          simp only [Std.TreeMap.getElem?_insert] at found
          split at found
          · cases found
            simpa [List.isEmpty_iff] using kept
          · exact tidy.filled other bucket found
  · intro other
    by_cases same : key = other
    · subst other
      rw [find_remove_self]
      exact (tidy.distinct key).filter _
    · rw [find_remove_of_ne lookup id same]
      exact tidy.distinct other

end Buckets

section Indexes

variable {κ : Type} [Ord κ]

/-- The lookup finds exactly the records that are kept, each by its key. -/
structure Indexes (lookup : Lookup κ) (keyOf : Record → κ)
    (kept : Std.TreeMap RecordId Record) : Prop where
  tidy : lookup.Tidy
  mem_find : ∀ key id, id ∈ lookup.find key ↔
    ∃ record, kept[id]? = some record ∧ keyOf record = key

variable {lookup : Lookup κ} {keyOf : Record → κ}
  {kept : Std.TreeMap RecordId Record}

theorem Indexes.holds (indexes : lookup.Indexes keyOf kept)
    {record : Record} (present : kept[record.id]? = some record) :
    lookup.holds (keyOf record) record.id = true := by
  have member := (indexes.mem_find (keyOf record) record.id).mpr
    ⟨record, present, rfl⟩
  simpa [Lookup.holds] using member

variable [Std.TransOrd κ]

theorem Indexes.empty (keyOf : Record → κ) :
    (Lookup.empty : Lookup κ).Indexes keyOf ∅ := by
  refine ⟨Tidy.empty, ?_⟩
  intro key id
  simp

variable [Std.LawfulEqOrd κ]

theorem Indexes.insert (indexes : lookup.Indexes keyOf kept)
    {record : Record} (free : kept[record.id]? = none) :
    (lookup.insert (keyOf record) record.id).Indexes keyOf
      (kept.insert record.id record) := by
  refine ⟨indexes.tidy.insert _ _, ?_⟩
  intro key id
  rw [mem_find_insert, indexes.mem_find]
  by_cases same : record.id = id
  · subst id
    simp [free]
  · simp [Std.TreeMap.getElem?_insert, same, Ne.symm same]

theorem Indexes.remove (indexes : lookup.Indexes keyOf kept)
    {record : Record} (present : kept[record.id]? = some record) :
    (lookup.remove (keyOf record) record.id).2.Indexes keyOf
      (kept.erase record.id) := by
  refine ⟨indexes.tidy.remove _ _, ?_⟩
  intro key id
  rw [mem_find_remove, indexes.mem_find]
  by_cases same : record.id = id
  · subst id
    simp [present]
  · simp [Std.TreeMap.getElem?_erase, same, Ne.symm same]

/-- The ids of all buckets are the ids of the records, each once. -/
theorem Indexes.perm_keys (indexes : lookup.Indexes keyOf kept) :
    (lookup.buckets.toList.flatMap Prod.snd).Perm kept.keys := by
  have once : (lookup.buckets.toList.flatMap Prod.snd).Nodup := by
    refine List.nodup_flatMap.mpr ⟨?_, ?_⟩
    · intro entry member
      rw [← find_of_mem_toList member]
      exact indexes.tidy.distinct entry.1
    · -- an id in two buckets would be the id of a record with two keys
      refine Std.TreeMap.distinct_keys_toList.imp_of_mem ?_
      intro left right leftMember rightMember different id inLeft inRight
      rw [← find_of_mem_toList leftMember, indexes.mem_find] at inLeft
      rw [← find_of_mem_toList rightMember, indexes.mem_find] at inRight
      obtain ⟨record, found, leftKey⟩ := inLeft
      obtain ⟨other, again, rightKey⟩ := inRight
      have same : record = other := Option.some.inj (found.symm.trans again)
      subst other
      exact different (by simp [← leftKey, ← rightKey])
  refine (List.perm_ext_iff_of_nodup once Std.TreeMap.nodup_keys).mpr ?_
  intro id
  rw [List.mem_flatMap, Std.TreeMap.mem_keys,
    Std.TreeMap.mem_iff_isSome_getElem?]
  constructor
  · rintro ⟨entry, member, inBucket⟩
    rw [← find_of_mem_toList member, indexes.mem_find] at inBucket
    obtain ⟨record, found, _⟩ := inBucket
    simp [found]
  · intro live
    obtain ⟨record, found⟩ := Option.isSome_iff_exists.mp live
    have inBucket : id ∈ lookup.find (keyOf record) :=
      (indexes.mem_find _ _).mpr ⟨record, found, rfl⟩
    rw [find_eq] at inBucket
    cases bucketFound : lookup.buckets[keyOf record]? with
    | none => simp [bucketFound] at inBucket
    | some bucket =>
        exact ⟨(keyOf record, bucket),
          Std.TreeMap.mem_toList_iff_getElem?_eq_some.mpr bucketFound,
          by simpa [bucketFound] using inBucket⟩

theorem Indexes.entries_eq_size (indexes : lookup.Indexes keyOf kept) :
    lookup.entries = kept.size := by
  rw [entries_eq_length, indexes.perm_keys.length_eq,
    Std.TreeMap.length_keys]

end Indexes

end Cardfile.Lookup
