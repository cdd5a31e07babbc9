import Cardfile.Cabinet
import Cardfile.Proofs.Lookup

/-!
# Consistent cabinets

A cabinet keeps the same records five times over: in its map, in its list and
in three lookups.  It is consistent if these agree.  The first part says what
the three ways of changing a cabinet do to its map and its list, the second
that they keep it consistent, and the third that a consistent cabinet passes
its own check.
-/

namespace Cardfile.Cabinet

theorem firstFree_cases (taken : RecordId → Bool) (tries number : Nat) :
    ∃ offset ≤ tries,
      firstFree taken tries number = Int32.ofNat (number + offset) ∧
      (offset = tries ∨ taken (Int32.ofNat (number + offset)) = false) ∧
      ∀ earlier < offset, taken (Int32.ofNat (number + earlier)) = true := by
  induction tries generalizing number with
  | zero => exact ⟨0, Nat.le_refl 0, rfl, .inl rfl, by simp⟩
  | succ tries ih =>
      simp only [firstFree]
      by_cases busy : taken (Int32.ofNat number)
      · obtain ⟨offset, bound, found, free, before⟩ := ih (number + 1)
        rw [Nat.add_right_comm, Nat.add_assoc] at found free
        refine ⟨offset + 1, by omega, by rw [if_pos busy, found], ?_, ?_⟩
        · rcases free with last | free
          · exact .inl (by omega)
          · exact .inr free
        · intro earlier less
          cases earlier with
          | zero => exact busy
          | succ earlier =>
              have busyThen := before earlier (by omega)
              rwa [Nat.add_right_comm, Nat.add_assoc] at busyThen
      · exact ⟨0, by omega, by rw [if_neg busy]; rfl,
          .inr (by simpa using busy), by simp⟩

theorem map_rename_self (ids : List RecordId) (id : RecordId) :
    ids.map (fun listed => if listed == id then id else listed) = ids := by
  refine List.map_id'' ?_ ids
  intro listed
  by_cases same : listed = id <;> simp [same]

theorem map_rename_of_not_mem {ids : List RecordId} {id : RecordId}
    (absent : id ∉ ids) (new : RecordId) :
    ids.map (fun listed => if listed == id then new else listed) = ids := by
  calc ids.map (fun listed => if listed == id then new else listed)
      = ids.map fun listed => listed := by
        refine List.map_congr_left ?_
        intro listed member
        simp [ne_of_mem_of_not_mem member absent]
    _ = ids := List.map_id'' (fun _ => rfl) ids

theorem filter_of_not_mem {ids : List RecordId} {id : RecordId}
    (absent : id ∉ ids) : ids.filter (· != id) = ids := by
  refine List.filter_eq_self.mpr ?_
  intro listed member
  simpa using ne_of_mem_of_not_mem member absent

theorem get?_eq (cabinet : Cabinet) (id : RecordId) :
    cabinet.get? id = cabinet.kept[id]? := rfl

@[simp]
theorem get?_empty (validator : Validator) (serial : Nat) (id : RecordId) :
    (empty validator serial).get? id = none := by
  simp [get?_eq, empty]

@[simp]
theorem get?_revised (cabinet : Cabinet) (id : RecordId) :
    cabinet.revised.get? id = cabinet.get? id := rfl

@[simp]
theorem order_empty (validator : Validator) (serial : Nat) :
    (empty validator serial).order = [] := rfl

@[simp]
theorem order_revised (cabinet : Cabinet) :
    cabinet.revised.order = cabinet.order := rfl

theorem get?_discard (cabinet : Cabinet) (record : Record) (id : RecordId) :
    (cabinet.discard record).get? id =
      if record.id = id then none else cabinet.get? id := by
  simp [get?_eq, discard, unindex, Std.TreeMap.getElem?_erase]

theorem order_discard (cabinet : Cabinet) (record : Record) :
    (cabinet.discard record).order =
      cabinet.order.filter (· != record.id) := rfl

theorem get?_replace (cabinet : Cabinet) (previous record : Record)
    (id : RecordId) :
    (cabinet.replace previous record).get? id =
      if record.id = id then some record
      else if previous.id = id then none
      else cabinet.get? id := by
  simp [get?_eq, replace, index, unindex, Std.TreeMap.getElem?_insert,
    Std.TreeMap.getElem?_erase]

theorem order_replace (cabinet : Cabinet) (previous record : Record) :
    (cabinet.replace previous record).order =
      cabinet.order.map fun id =>
        if id == previous.id then record.id else id := rfl

theorem values_kept (cabinet : Cabinet) :
    cabinet.kept.values = cabinet.kept.toList.map Prod.snd := by
  have unfolded : cabinet.kept.values =
      cabinet.kept.foldr (fun _ record records => record :: records) [] :=
    rfl
  rw [unfolded, Std.TreeMap.foldr_eq_foldr_toList, List.map_eq_foldr]

theorem exists_get?_of_mem_values {cabinet : Cabinet} {record : Record}
    (member : record ∈ cabinet.kept.values) :
    ∃ id, cabinet.get? id = some record := by
  rw [values_kept, List.mem_map] at member
  obtain ⟨⟨id, _⟩, entry, rfl⟩ := member
  exact ⟨id, Std.TreeMap.mem_toList_iff_getElem?_eq_some.mp entry⟩

/-- The three lookups index the records that are kept. -/
structure Indexed (cabinet : Cabinet) : Prop where
  firstNames : cabinet.firstNames.Indexes
    (fun record => nameKey record.firstName) cabinet.kept
  lastNames : cabinet.lastNames.Indexes
    (fun record => nameKey record.lastName) cabinet.kept
  birthdays : cabinet.birthdays.Indexes Record.dateOfBirth cabinet.kept

/-- List, map and lookups hold the same records. -/
structure Consistent (cabinet : Cabinet) : Prop where
  listedOnce : cabinet.order.Nodup
  mem_order : ∀ id, id ∈ cabinet.order ↔ (cabinet.get? id).isSome
  ownId : ∀ id record, cabinet.get? id = some record → record.id = id
  indexed : cabinet.Indexed

theorem Indexed.empty (validator : Validator) (serial : Nat) :
    (Cabinet.empty validator serial).Indexed :=
  ⟨.empty _, .empty _, .empty _⟩

theorem Indexed.enter {cabinet : Cabinet} (indexed : cabinet.Indexed)
    {record : Record} (free : cabinet.get? record.id = none)
    (order : List RecordId) :
    Indexed
      { cabinet.index record with
        kept := cabinet.kept.insert record.id record
        order := order } :=
  ⟨indexed.firstNames.insert free, indexed.lastNames.insert free,
    indexed.birthdays.insert free⟩

theorem Indexed.leave {cabinet : Cabinet} (indexed : cabinet.Indexed)
    {record : Record} (present : cabinet.get? record.id = some record)
    (order : List RecordId) :
    Indexed
      { cabinet.unindex record with
        kept := cabinet.kept.erase record.id
        order := order } :=
  ⟨indexed.firstNames.remove present, indexed.lastNames.remove present,
    indexed.birthdays.remove present⟩

namespace Consistent

theorem empty (validator : Validator) (serial : Nat) :
    (Cabinet.empty validator serial).Consistent where
  listedOnce := List.nodup_nil
  mem_order := by
    intro id
    simp [Cabinet.empty, get?_eq]
  ownId := by
    intro id record found
    simp at found
  indexed := .empty validator serial

variable {cabinet : Cabinet}

theorem revised (consistent : cabinet.Consistent) :
    cabinet.revised.Consistent :=
  ⟨consistent.listedOnce, consistent.mem_order, consistent.ownId,
    ⟨consistent.indexed.firstNames, consistent.indexed.lastNames,
      consistent.indexed.birthdays⟩⟩

theorem get?_id (consistent : cabinet.Consistent) {id : RecordId}
    {record : Record} (found : cabinet.get? id = some record) :
    cabinet.get? record.id = some record := by
  rw [consistent.ownId id record found]
  exact found

theorem not_mem_order (consistent : cabinet.Consistent) {id : RecordId} :
    id ∉ cabinet.order ↔ cabinet.get? id = none := by
  rw [consistent.mem_order]
  simp

theorem discard (consistent : cabinet.Consistent) {record : Record}
    (present : cabinet.get? record.id = some record) :
    (cabinet.discard record).Consistent where
  listedOnce := consistent.listedOnce.filter _
  mem_order := by
    intro id
    rw [order_discard, get?_discard, List.mem_filter, consistent.mem_order]
    by_cases same : record.id = id
    · simp [same]
    · simp [same, Ne.symm same]
  ownId := by
    intro id other found
    rw [get?_discard] at found
    split at found
    · cases found
    · exact consistent.ownId id other found
  indexed := consistent.indexed.leave present _

theorem get?_place (consistent : cabinet.Consistent) (record : Record)
    (id : RecordId) :
    (cabinet.place record).get? id =
      if record.id = id then some record else cabinet.get? id := by
  cases present : cabinet.get? record.id with
  | none =>
      simp only [Cabinet.place, present]
      simp [get?_eq, index, Std.TreeMap.getElem?_insert]
  | some previous =>
      have same := consistent.ownId record.id previous present
      simp only [Cabinet.place, present]
      by_cases wanted : record.id = id
      · simp [get?_eq, wanted]
      · simpa [get?_eq, index, Std.TreeMap.getElem?_insert, same, wanted]
          using get?_discard cabinet previous id

theorem order_place (consistent : cabinet.Consistent) (record : Record) :
    (cabinet.place record).order =
      cabinet.order.filter (· != record.id) ++ [record.id] := by
  cases present : cabinet.get? record.id with
  | none =>
      have absent := consistent.not_mem_order.mpr present
      simp [place, present, index, filter_of_not_mem absent]
  | some previous =>
      have same := consistent.ownId record.id previous present
      simp [Cabinet.place, present, index, order_discard, same]

theorem place (consistent : cabinet.Consistent) (record : Record) :
    (cabinet.place record).Consistent where
  listedOnce := by
    rw [consistent.order_place]
    refine List.nodup_append.mpr
      ⟨consistent.listedOnce.filter _, List.nodup_singleton _, ?_⟩
    intro id member other single equal
    rw [List.mem_singleton] at single
    simp [← single, equal] at member
  mem_order := by
    intro id
    rw [consistent.order_place, consistent.get?_place, List.mem_append,
      List.mem_filter, consistent.mem_order]
    by_cases same : record.id = id
    · simp [same]
    · simp [same, Ne.symm same]
  ownId := by
    intro id other found
    rw [consistent.get?_place] at found
    split at found
    · next same => exact Option.some.inj found ▸ same
    · exact consistent.ownId id other found
  indexed := by
    cases present : cabinet.get? record.id with
    | none =>
        simp only [Cabinet.place, present]
        exact consistent.indexed.enter present _
    | some previous =>
        have same := consistent.ownId record.id previous present
        simp only [Cabinet.place, present]
        have left := consistent.indexed.leave (consistent.get?_id present)
          (cabinet.order.filter (· != previous.id))
        refine left.enter ?_ _
        simp [get?_eq, same]

theorem nodup_order_replace (consistent : cabinet.Consistent)
    {previous record : Record}
    (room : record.id = previous.id ∨ cabinet.get? record.id = none) :
    (cabinet.replace previous record).order.Nodup := by
  rw [order_replace]
  refine (List.nodup_map_iff_inj_on consistent.listedOnce).mpr ?_
  intro left leftMember right rightMember equal
  have apart : ∀ id ∈ cabinet.order, id ≠ previous.id → id ≠ record.id := by
    intro id member different same
    rcases room with kept | free
    · exact different (same.trans kept)
    · exact consistent.not_mem_order.mpr free (same ▸ member)
  by_cases leftSame : left = previous.id <;>
    by_cases rightSame : right = previous.id
  · exact leftSame.trans rightSame.symm
  · simp only [leftSame, rightSame, beq_self_eq_true, beq_iff_eq,
      if_true, if_false] at equal
    exact absurd equal.symm (apart right rightMember rightSame)
  · simp only [leftSame, rightSame, beq_self_eq_true, beq_iff_eq,
      if_true, if_false] at equal
    exact absurd equal (apart left leftMember leftSame)
  · simpa [leftSame, rightSame] using equal

theorem mem_order_replace (consistent : cabinet.Consistent)
    {previous : Record}
    (present : cabinet.get? previous.id = some previous) (record : Record)
    (id : RecordId) :
    id ∈ (cabinet.replace previous record).order ↔
      ((cabinet.replace previous record).get? id).isSome := by
  have listed : previous.id ∈ cabinet.order := by
    rw [consistent.mem_order, present]
    rfl
  rw [order_replace, get?_replace, List.mem_map]
  constructor
  · rintro ⟨old, member, rfl⟩
    by_cases same : old = previous.id
    · simp [same]
    · have live := (consistent.mem_order old).mp member
      simp only [beq_iff_eq, same, if_false, Ne.symm same]
      split
      · rfl
      · exact live
  · intro live
    split at live
    · next same => exact ⟨previous.id, listed, by simp [same]⟩
    · split at live
      · cases live
      · next different =>
          exact ⟨id, (consistent.mem_order id).mpr live,
            by simp [Ne.symm different]⟩

/-- A record may take the place of another under the same id or a free
one. -/
theorem replace (consistent : cabinet.Consistent) {previous record : Record}
    (present : cabinet.get? previous.id = some previous)
    (room : record.id = previous.id ∨ cabinet.get? record.id = none) :
    (cabinet.replace previous record).Consistent where
  listedOnce := consistent.nodup_order_replace room
  mem_order := consistent.mem_order_replace present record
  ownId := by
    intro id other found
    rw [get?_replace] at found
    split at found
    · next same => exact Option.some.inj found ▸ same
    · split at found
      · cases found
      · exact consistent.ownId id other found
  indexed := by
    have left := consistent.indexed.leave present cabinet.order
    refine left.enter ?_ _
    simp only [get?_eq, Std.TreeMap.getElem?_erase, Std.compare_eq_iff_eq]
    rcases room with kept | free
    · simp [kept]
    · split
      · rfl
      · exact free

theorem get?_merge (consistent : cabinet.Consistent) (record : Record)
    (id : RecordId) :
    (cabinet.merge record).get? id =
      if record.id = id then some record else cabinet.get? id := by
  simp only [Cabinet.merge]
  cases present : cabinet.get? record.id with
  | none => exact consistent.get?_place record id
  | some previous =>
      rw [get?_replace, consistent.ownId record.id previous present]
      split <;> rfl

theorem order_merge (consistent : cabinet.Consistent) (record : Record) :
    (cabinet.merge record).order =
      if record.id ∈ cabinet.order then cabinet.order
      else cabinet.order ++ [record.id] := by
  have listed := consistent.mem_order record.id
  simp only [Cabinet.merge]
  cases present : cabinet.get? record.id with
  | none =>
      have absent := consistent.not_mem_order.mpr present
      simp [Cabinet.place, present, index, absent]
  | some previous =>
      have same := consistent.ownId record.id previous present
      rw [if_pos (listed.mpr (by rw [present]; rfl))]
      rw [order_replace, same, map_rename_self]

theorem merge (consistent : cabinet.Consistent) (record : Record) :
    (cabinet.merge record).Consistent := by
  simp only [Cabinet.merge]
  cases present : cabinet.get? record.id with
  | none => exact consistent.place record
  | some previous =>
      exact consistent.replace (consistent.get?_id present)
        (.inl (consistent.ownId record.id previous present).symm)

theorem get?_of_mem_resolve (consistent : cabinet.Consistent)
    {ids : List RecordId} {record : Record}
    (member : record ∈ cabinet.resolve ids) :
    cabinet.get? record.id = some record := by
  obtain ⟨id, _, present⟩ := List.mem_filterMap.mp member
  exact consistent.get?_id present

theorem map_id_resolve (consistent : cabinet.Consistent)
    {ids : List RecordId} (listed : ids ⊆ cabinet.order) :
    (cabinet.resolve ids).map Record.id = ids := by
  rw [resolve, List.map_filterMap]
  apply Eq.trans (List.filterMap_congr _) List.filterMap_some
  intro id member
  obtain ⟨record, present⟩ :=
    Option.isSome_iff_exists.mp ((consistent.mem_order id).mp (listed member))
  rw [present, Option.map_some, consistent.ownId id record present]

theorem map_id_records (consistent : cabinet.Consistent) :
    cabinet.records.map Record.id = cabinet.order :=
  consistent.map_id_resolve (List.Subset.refl _)

theorem map_id_filter_records (consistent : cabinet.Consistent)
    (test : Record → Bool) :
    (cabinet.records.filter test).map Record.id = cabinet.matching test := by
  simp only [matching, records, resolve]
  induction cabinet.order with
  | nil => rfl
  | cons id ids ih =>
      cases present : cabinet.get? id with
      | none => simp [present, ih]
      | some record =>
          have own := consistent.ownId id record present
          by_cases passes : test record <;> simp [present, passes, own, ih]

theorem perm_keys (consistent : cabinet.Consistent) :
    cabinet.order.Perm cabinet.kept.keys := by
  refine (List.perm_ext_iff_of_nodup consistent.listedOnce
    Std.TreeMap.nodup_keys).mpr ?_
  intro id
  rw [consistent.mem_order, Std.TreeMap.mem_keys,
    Std.TreeMap.mem_iff_isSome_getElem?, get?_eq]

theorem order_length (consistent : cabinet.Consistent) :
    cabinet.order.length = cabinet.kept.size := by
  rw [consistent.perm_keys.length_eq, Std.TreeMap.length_keys]

private theorem ofNat_injective {start left right : Nat}
    (near : left < start) (close : right < start)
    (bounded : start ≤ UInt32.size)
    (same : Int32.ofNat (start + left) = Int32.ofNat (start + right)) :
    left = right := by
  have value := congrArg (fun id : Int32 => id.toBitVec.toNat) same
  simp only [Int32.toBitVec_ofNat', BitVec.toNat_ofNat] at value
  simp only [UInt32.size] at bounded
  omega

theorem contains_kept (consistent : cabinet.Consistent) (id : RecordId) :
    cabinet.kept.contains id = true ↔ id ∈ cabinet.order := by
  rw [consistent.mem_order, get?_eq, Std.TreeMap.isSome_getElem?_eq_contains]

/-- Unless all ids are taken, the next one is not. -/
theorem get?_nextId (consistent : cabinet.Consistent)
    (room : cabinet.count < UInt32.size) :
    cabinet.get? cabinet.nextId = none := by
  obtain ⟨offset, bound, found, free, before⟩ :=
    firstFree_cases cabinet.kept.contains cabinet.count (cabinet.count + 1)
  rw [nextId, found, ← consistent.not_mem_order]
  intro listed
  have taken := (consistent.contains_kept _).mpr listed
  rcases free with last | free
  · -- More numbers were tried than there are records.
    have inside : (List.range (cabinet.count + 1)).map
        (fun tried => Int32.ofNat (cabinet.count + 1 + tried)) ⊆
          cabinet.order := by
      intro id member
      obtain ⟨tried, small, rfl⟩ := List.mem_map.mp member
      rw [List.mem_range] at small
      rw [← consistent.contains_kept]
      rcases Nat.lt_or_eq_of_le (Nat.le_of_lt_succ small) with less | same
      · exact before tried (last ▸ less)
      · rw [same]
        rwa [last] at taken
    have distinct : ((List.range (cabinet.count + 1)).map
        (fun tried => Int32.ofNat (cabinet.count + 1 + tried))).Nodup := by
      refine List.nodup_range.map_on ?_
      intro left leftSmall right rightSmall same
      exact ofNat_injective (List.mem_range.mp leftSmall)
        (List.mem_range.mp rightSmall) room same
    have size := distinct.length_le_of_subset inside
    rw [List.length_map, List.length_range] at size
    exact Nat.not_succ_le_self _ size
  · rw [free] at taken
    cases taken

theorem isIndexed (consistent : cabinet.Consistent) {record : Record}
    (present : cabinet.get? record.id = some record) :
    cabinet.isIndexed record = true := by
  simp [Cabinet.isIndexed, consistent.indexed.firstNames.holds present,
    consistent.indexed.lastNames.holds present,
    consistent.indexed.birthdays.holds present]

theorem verify_eq_ok (consistent : cabinet.Consistent) :
    cabinet.verify = .ok () := by
  have sizes : cabinet.lookupSizes.find?
      (fun size => size.2 != cabinet.kept.size) = none := by
    simp [lookupSizes, consistent.indexed.firstNames.entries_eq_size,
      consistent.indexed.lastNames.entries_eq_size,
      consistent.indexed.birthdays.entries_eq_size]
  have found : cabinet.kept.values.find?
      (fun record => !cabinet.isIndexed record) = none := by
    refine List.find?_eq_none.mpr ?_
    intro record member
    obtain ⟨id, present⟩ := exists_get?_of_mem_values member
    simp [consistent.isIndexed (consistent.get?_id present)]
  simp [verify, flaw?, consistent.order_length, sizes, found]

end Consistent

end Cardfile.Cabinet
