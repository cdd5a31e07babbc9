import Mathlib.Data.List.Induction
import Cardfile.Proofs.Reopening

/-!
# The order of slots

The list of a cabinet and the slots of its file are kept in order by different
means.  A record that gets another id keeps its place in the list, while its
slot is buried and a new one is made behind all others.  So a batch of edits
leaves the two in the same order exactly if it renames a tail of the list and
nothing before, and no other change sets them apart.
-/

namespace Cardfile

open Storage

/-- The order of the slots after a filing. -/
def Filing.reorder (ids : List RecordId) : Filing → List RecordId
  | .write record =>
      if record.id ∈ ids then ids else ids ++ [record.id]
  | .bury id => ids.filter (· != id)

/-- The second list renames all ids of the first from some place on, and none
before. -/
def RenamesTail (before after : List RecordId) : Prop :=
  ∃ kept old new, before = kept ++ old ∧ after = kept ++ new ∧
    List.Forall₂ (· ≠ ·) old new

theorem renamesTail_refl (ids : List RecordId) : RenamesTail ids ids :=
  ⟨ids, [], [], by simp, by simp, .nil⟩

theorem renamesTail_cons_self (id : RecordId)
    {before after : List RecordId} :
    RenamesTail (id :: before) (id :: after) ↔ RenamesTail before after := by
  constructor
  · rintro ⟨kept, old, new, sameBefore, sameAfter, renamed⟩
    cases kept with
    | nil =>
        rw [List.nil_append] at sameBefore sameAfter
        subst sameBefore sameAfter
        cases renamed with
        | cons different _ => exact absurd rfl different
    | cons first kept =>
        rw [List.cons_append, List.cons.injEq] at sameBefore sameAfter
        exact ⟨kept, old, new, sameBefore.2, sameAfter.2, renamed⟩
  · rintro ⟨kept, old, new, rfl, rfl, renamed⟩
    exact ⟨id :: kept, old, new, rfl, rfl, renamed⟩

theorem renamesTail_cons_of_ne {old new : RecordId} (different : old ≠ new)
    {before after : List RecordId} :
    RenamesTail (old :: before) (new :: after) ↔
      List.Forall₂ (· ≠ ·) before after := by
  constructor
  · rintro ⟨kept, olds, news, sameBefore, sameAfter, renamed⟩
    cases kept with
    | nil =>
        rw [List.nil_append] at sameBefore sameAfter
        subst sameBefore sameAfter
        cases renamed with
        | cons _ rest => exact rest
    | cons first kept =>
        rw [List.cons_append, List.cons.injEq] at sameBefore sameAfter
        exact absurd (sameBefore.1.trans sameAfter.1.symm) different
  · intro renamed
    exact ⟨[], _, _, rfl, rfl, .cons different renamed⟩

section Pairs

/-- The second ids of the pairs whose ids are the same. -/
def settled (pairs : List (RecordId × RecordId)) : List RecordId :=
  (pairs.filter fun pair => pair.1 == pair.2).map Prod.snd

/-- The second ids of the pairs whose ids are different. -/
def moved (pairs : List (RecordId × RecordId)) : List RecordId :=
  (pairs.filter fun pair => pair.1 != pair.2).map Prod.snd

theorem settled_subset (pairs : List (RecordId × RecordId)) :
    settled pairs ⊆ pairs.map Prod.snd :=
  List.map_subset _ (List.filter_subset_self _)

theorem moved_subset (pairs : List (RecordId × RecordId)) :
    moved pairs ⊆ pairs.map Prod.snd :=
  List.map_subset _ (List.filter_subset_self _)

/-- A new id with others to come behind it is in its place only if all of them
are new as well. -/
private theorem settled_append_cons_iff {id : RecordId}
    {pairs : List (RecordId × RecordId)} (fresh : id ∉ pairs.map Prod.snd) :
    settled pairs ++ id :: moved pairs = id :: pairs.map Prod.snd ↔
      ∀ pair ∈ pairs, pair.1 ≠ pair.2 := by
  constructor
  · intro same
    cases front : settled pairs with
    | nil =>
        rw [settled, List.map_eq_nil_iff, List.filter_eq_nil_iff] at front
        intro pair member
        simpa using front pair member
    | cons first others =>
        rw [front, List.cons_append, List.cons.injEq] at same
        have member : first ∈ settled pairs := by simp [front]
        exact absurd (same.1 ▸ settled_subset pairs member) fresh
  · intro different
    have none : settled pairs = [] := by
      rw [settled, List.map_eq_nil_iff, List.filter_eq_nil_iff]
      intro pair member
      simpa using different pair member
    have all : moved pairs = pairs.map Prod.snd := by
      rw [moved, List.filter_eq_self.mpr]
      intro pair member
      simpa using different pair member
    rw [none, all, List.nil_append]

/-- Settled ids before moved ones give the second list exactly if a tail was
renamed. -/
theorem settled_append_moved_iff {pairs : List (RecordId × RecordId)}
    (distinct : (pairs.map Prod.snd).Nodup) :
    settled pairs ++ moved pairs = pairs.map Prod.snd ↔
      RenamesTail (pairs.map Prod.fst) (pairs.map Prod.snd) := by
  induction pairs with
  | nil => simp [settled, moved, renamesTail_refl]
  | cons pair pairs ih =>
      obtain ⟨fresh, distinct⟩ := List.nodup_cons.mp distinct
      rw [List.map_cons, List.map_cons]
      by_cases same : pair.1 = pair.2
      · rw [same, renamesTail_cons_self, ← ih distinct]
        simp [settled, moved, same]
      · rw [renamesTail_cons_of_ne same, List.forall₂_map_left_iff,
          List.forall₂_map_right_iff, List.forall₂_same,
          ← settled_append_cons_iff fresh]
        simp [settled, moved, same]

end Pairs

namespace Cabinet

theorem Consistent.edit_order {cabinet : Cabinet}
    (consistent : cabinet.Consistent) (id : RecordId)
    (change : Record → Record) :
    ∃ new,
      (cabinet.edit id change).2.order =
        cabinet.order.map (fun listed => if listed == id then new else listed) ∧
      ∀ slots : List RecordId, id ∈ slots → slots ⊆ cabinet.order →
        (cabinet.editFilings change id).foldl Filing.reorder slots =
          if id = new then slots else slots.filter (· != id) ++ [new] := by
  rcases cabinet.edit_cases id change with
    ⟨absent, failed⟩ | ⟨previous, _, _, present, failed⟩ |
    ⟨previous, present, _, room, edited⟩
  · refine ⟨id, ?_, ?_⟩
    · rw [failed, map_rename_self]
    · intro slots _ _
      simp [editFilings, absent]
  · refine ⟨id, ?_, ?_⟩
    · rw [failed, map_rename_self]
    · intro slots _ _
      simp [editFilings, present, failed]
  · refine ⟨(change previous).id, ?_, ?_⟩
    · rw [edited, order_revised, order_replace,
        consistent.ownId id previous present]
    · intro slots member inside
      simp only [editFilings, present, edited]
      by_cases same : id = (change previous).id
      · simp [Filing.move, Filing.reorder, ← same, member]
      · have fresh : (change previous).id ∉ slots := by
          intro listed
          rcases room with kept | free
          · exact same kept.symm
          · exact consistent.not_mem_order.mpr free (inside listed)
        simp [Filing.move, Filing.reorder, same, Ne.symm same, fresh]

/-- The ids in front of an edit are paired with what they have become.  In the
slots, those that were settled are in front of the rest and the moved ones
behind it, and this is so again after the edit. -/
private theorem edit_pairs {cabinet : Cabinet}
    (consistent : cabinet.Consistent)
    {pairs : List (RecordId × RecordId)} {id : RecordId}
    {rest : List RecordId}
    (order : cabinet.order = pairs.map Prod.snd ++ id :: rest)
    (change : Record → Record) :
    ∃ new,
      (cabinet.edit id change).2.order =
        (pairs ++ [(id, new)]).map Prod.snd ++ rest ∧
      (cabinet.editFilings change id).foldl Filing.reorder
          (settled pairs ++ id :: rest ++ moved pairs) =
        settled (pairs ++ [(id, new)]) ++ rest ++
          moved (pairs ++ [(id, new)]) := by
  obtain ⟨new, renamed, filed⟩ := consistent.edit_order id change
  have distinct := consistent.listedOnce
  rw [order, List.nodup_append, List.nodup_cons] at distinct
  obtain ⟨_, ⟨notBehind, _⟩, apart⟩ := distinct
  have notBefore : id ∉ pairs.map Prod.snd := by
    intro member
    exact apart id member id List.mem_cons_self rfl
  have inside : settled pairs ++ id :: rest ++ moved pairs ⊆
      cabinet.order := by
    rw [order]
    have settledIn := settled_subset pairs
    have movedIn := moved_subset pairs
    grind
  refine ⟨new, ?_, ?_⟩
  · rw [renamed, order, List.map_append, List.map_cons,
      map_rename_of_not_mem notBefore, map_rename_of_not_mem notBehind]
    simp
  · rw [filed _ (by simp) inside]
    by_cases same : id = new
    · simp [settled, moved, same]
    · have notSettled : id ∉ settled pairs :=
        fun member => notBefore (settled_subset pairs member)
      have notMoved : id ∉ moved pairs :=
        fun member => notBefore (moved_subset pairs member)
      rw [if_neg same, List.filter_append, List.filter_append,
        List.filter_cons_of_neg (by simp), filter_of_not_mem notSettled,
        filter_of_not_mem notBehind, filter_of_not_mem notMoved]
      simp [settled, moved, same]

/-- A row of edits goes through the list from front to back, and may leave ids
out. -/
private theorem edits_order (change : Record → Record)
    {chosen rest : List RecordId} (within : chosen.Sublist rest)
    {cabinet : Cabinet} (consistent : cabinet.Consistent)
    {pairs : List (RecordId × RecordId)}
    (order : cabinet.order = pairs.map Prod.snd ++ rest) :
    ∃ all : List (RecordId × RecordId),
      all.map Prod.fst = pairs.map Prod.fst ++ rest ∧
      (chosen.foldl (fun cabinet id => (cabinet.edit id change).2)
        cabinet).order = all.map Prod.snd ∧
      (trail (fun cabinet id => (cabinet.edit id change).2)
        (editFilings change) cabinet chosen).foldl Filing.reorder
          (settled pairs ++ rest ++ moved pairs) =
        settled all ++ moved all := by
  induction within generalizing cabinet pairs with
  | slnil =>
      refine ⟨pairs, by simp, by simpa using order, ?_⟩
      simp [trail]
  | @cons chosen rest id within ih =>
      have next : cabinet.order =
          (pairs ++ [(id, id)]).map Prod.snd ++ rest := by
        simpa using order
      obtain ⟨all, before, after, slots⟩ := ih consistent next
      refine ⟨all, by simpa using before, after, ?_⟩
      simpa [settled, moved] using slots
  | @cons_cons chosen rest id within ih =>
      obtain ⟨new, next, first⟩ := edit_pairs consistent order change
      obtain ⟨all, before, after, slots⟩ := ih
        (consistent.edit id change) next
      refine ⟨all, by simpa using before, after, ?_⟩
      rw [trail, List.foldl_append, first]
      exact slots

/-- After a row of edits the slots are in the order of the list exactly if the
edits renamed a tail of it. -/
theorem Consistent.edits_reorder_iff {cabinet : Cabinet}
    (consistent : cabinet.Consistent) (change : Record → Record)
    {chosen : List RecordId} (within : chosen.Sublist cabinet.order) :
    (trail (fun cabinet id => (cabinet.edit id change).2)
        (editFilings change) cabinet chosen).foldl Filing.reorder
          cabinet.order =
        (chosen.foldl (fun cabinet id => (cabinet.edit id change).2)
          cabinet).order ↔
      RenamesTail cabinet.order
        (chosen.foldl (fun cabinet id => (cabinet.edit id change).2)
          cabinet).order := by
  have front : cabinet.order =
      ([] : List (RecordId × RecordId)).map Prod.snd ++ cabinet.order := rfl
  obtain ⟨all, before, after, slots⟩ :=
    edits_order change within consistent front
  have edited : (chosen.foldl (fun cabinet id => (cabinet.edit id change).2)
      cabinet).Consistent :=
    List.foldlRecOn _ _ consistent
      fun _ intermediate id _ => intermediate.edit id change
  have distinct := edited.listedOnce
  have start : settled [] ++ cabinet.order ++ moved [] = cabinet.order := by
    simp [settled, moved]
  rw [start] at slots
  rw [after] at distinct ⊢
  rw [slots, settled_append_moved_iff distinct, before]
  rfl

/-- Whether a change moves list and slots alike: it renames a tail of the list,
if anything, and a fresh id is put at the end. -/
def KeepsSlotOrder (cabinet : Cabinet) : Change → Prop
  | .create record true =>
      cabinet.order <+: (cabinet.create record true).2.order
  | .edit id change =>
      RenamesTail cabinet.order (cabinet.edit id change).2.order
  | .updateWhere test change =>
      RenamesTail cabinet.order (cabinet.updateWhere test change).2.order
  | _ => True

namespace Consistent

variable {cabinet : Cabinet}

theorem create_reorder (consistent : cabinet.Consistent) (record : Record) :
    (cabinet.createFilings record false).foldl Filing.reorder cabinet.order =
      (cabinet.create record false).2.order := by
  rcases cabinet.create_cases record false with
    ⟨_, _, failed⟩ | ⟨_, entered⟩
  · simp [createFilings, failed]
  · simp only [createFilings, entered, order_revised,
      consistent.order_place]
    cases present : cabinet.get? record.id with
    | some previous => simp [entrant, Filing.move, Filing.reorder]
    | none =>
        have absent := consistent.not_mem_order.mpr present
        simp [entrant, Filing.move, Filing.reorder, absent,
          filter_of_not_mem absent]

theorem createFresh_reorder_iff (consistent : cabinet.Consistent)
    (record : Record) :
    (cabinet.createFilings record true).foldl Filing.reorder cabinet.order =
        (cabinet.create record true).2.order ↔
      cabinet.order <+: (cabinet.create record true).2.order := by
  rcases cabinet.create_cases record true with
    ⟨_, _, failed⟩ | ⟨_, entered⟩
  · simp [createFilings, failed]
  · simp only [createFilings, entered, order_revised,
      consistent.order_place]
    simp only [Bool.not_true, Bool.false_and, Bool.false_eq_true, if_false,
      Filing.move, List.foldl_cons, List.foldl_nil, Filing.reorder]
    generalize (cabinet.entrant record true).id = id
    by_cases listed : id ∈ cabinet.order
    · have size : cabinet.order.length =
          (cabinet.order.filter (· != id) ++ [id]).length := by
        have erased := List.length_erase_of_mem listed
        have filled := List.length_pos_of_mem listed
        rw [consistent.listedOnce.erase_eq_filter] at erased
        rw [List.length_append, List.length_singleton, erased]
        omega
      rw [if_pos listed]
      constructor
      · intro same
        exact ⟨[], by rw [List.append_nil, ← same]⟩
      · intro front
        exact front.eq_of_length size
    · rw [if_neg listed, filter_of_not_mem listed]
      simp

theorem delete_reorder (consistent : cabinet.Consistent) (id : RecordId) :
    (cabinet.deleteFilings id).foldl Filing.reorder cabinet.order =
      (cabinet.delete id).2.order := by
  rcases cabinet.delete_cases id with
    ⟨_, failed⟩ | ⟨record, present, deleted⟩
  · simp [deleteFilings, failed]
  · simp [deleteFilings, deleted, Filing.reorder, order_discard,
      consistent.ownId id record present]

theorem foldl_reorder {inner : Cabinet → α → Cabinet}
    {emit : Cabinet → α → List Filing}
    (keeps : ∀ {cabinet : Cabinet}, cabinet.Consistent →
      ∀ item, (inner cabinet item).Consistent)
    (alike : ∀ {cabinet : Cabinet}, cabinet.Consistent → ∀ item,
      (emit cabinet item).foldl Filing.reorder cabinet.order =
        (inner cabinet item).order)
    (consistent : cabinet.Consistent) (items : List α) :
    (trail inner emit cabinet items).foldl Filing.reorder cabinet.order =
      (items.foldl inner cabinet).order := by
  induction items generalizing cabinet with
  | nil => rfl
  | cons item items ih =>
      rw [trail, List.foldl_append, alike consistent, List.foldl_cons]
      exact ih (keeps consistent item)

theorem reorder_iff (consistent : cabinet.Consistent) (change : Change) :
    (cabinet.filings change).foldl Filing.reorder cabinet.order =
        (cabinet.after change).order ↔
      cabinet.KeepsSlotOrder change := by
  cases change with
  | create record freshId =>
      cases freshId with
      | false => simp [filings, Cabinet.after, KeepsSlotOrder,
          consistent.create_reorder record]
      | true => exact consistent.createFresh_reorder_iff record
  | edit id change =>
      by_cases listed : id ∈ cabinet.order
      · have single := consistent.edits_reorder_iff change
          (List.singleton_sublist.mpr listed)
        simp only [trail, List.append_nil, List.foldl_cons, List.foldl_nil]
          at single
        exact single
      · have absent := consistent.not_mem_order.mp listed
        simp [filings, editFilings, Cabinet.after, KeepsSlotOrder,
          Cabinet.edit, absent, renamesTail_refl]
  | delete id =>
      simp [filings, Cabinet.after, KeepsSlotOrder,
        consistent.delete_reorder id]
  | updateWhere test change =>
      simp only [filings, Cabinet.after, KeepsSlotOrder, updateWhere_snd]
      exact consistent.edits_reorder_iff change List.filter_sublist
  | deleteWhere test =>
      have alike := consistent.foldl_reorder
        (fun consistent id => consistent.delete id)
        (fun consistent id => consistent.delete_reorder id)
        (cabinet.matching test)
      simp only [KeepsSlotOrder, iff_true]
      exact alike
  | restore records =>
      have single : ∀ {cabinet : Cabinet}, cabinet.Consistent → ∀ record,
          [Filing.write record].foldl Filing.reorder cabinet.order =
            (cabinet.merge record).order :=
        fun consistent record => (consistent.order_merge record).symm
      have alike := consistent.foldl_reorder
        (fun consistent record => consistent.merge record) single records
      rw [trail_single] at alike
      simp only [KeepsSlotOrder, iff_true]
      exact alike.trans (cabinet.order_restore records).symm

end Consistent

/-- The order in which a run of changes leaves the slots of a new file: that in
which the records took their present ids. -/
def slotOrder (validator : Validator) (serial : Nat)
    (changes : List Change) : List RecordId :=
  (trail after filings (empty validator serial) changes).foldl
    Filing.reorder []

variable {validator : Validator} {serial : Nat}

theorem slotOrder_append (earlier : List Change) (change : Change) :
    slotOrder validator serial (earlier ++ [change]) =
      ((earlier.foldl after (empty validator serial)).filings change).foldl
        Filing.reorder (slotOrder validator serial earlier) := by
  rw [slotOrder, trail_append, List.foldl_append, trail, trail,
    List.append_nil]
  rfl

/-- The slots are in the order of the list all along a run exactly if every
change of it keeps them so. -/
theorem slotOrder_eq_order_iff (changes : List Change) :
    (∀ earlier, earlier <+: changes →
      slotOrder validator serial earlier =
        (earlier.foldl after (empty validator serial)).order) ↔
    ∀ earlier change, earlier ++ [change] <+: changes →
      (earlier.foldl after (empty validator serial)).KeepsSlotOrder change := by
  have step : ∀ earlier change,
      slotOrder validator serial earlier =
        (earlier.foldl after (empty validator serial)).order →
      (slotOrder validator serial (earlier ++ [change]) =
          ((earlier ++ [change]).foldl after
            (empty validator serial)).order ↔
        (earlier.foldl after (empty validator serial)).KeepsSlotOrder
          change) := by
    intro earlier change alike
    have consistent :=
      (Consistent.empty validator serial).foldl_after earlier
    rw [slotOrder_append, alike, List.foldl_append]
    exact consistent.reorder_iff change
  constructor
  · intro alike earlier change front
    have before := alike earlier ((List.prefix_append _ _).trans front)
    exact (step earlier change before).mp (alike _ front)
  · intro keeps earlier
    induction earlier using List.reverseRecOn with
    | nil =>
        intro _
        rfl
    | append_singleton earlier change ih =>
        intro front
        have before := ih ((List.prefix_append _ _).trans front)
        exact (step earlier change before).mpr (keeps earlier change front)

end Cabinet

theorem Storage.Roll.ids_foldl_refile {filings : List Filing}
    (writable : Writable filings) (roll : List Record) :
    ids (filings.foldl refile roll) =
      filings.foldl Filing.reorder (ids roll) := by
  induction filings generalizing roll with
  | nil => rfl
  | cons filing filings ih =>
      have first : ids (refile roll filing) =
          Filing.reorder (ids roll) filing := by
        cases filing with
        | bury id => exact ids_strike roll id
        | write record =>
            obtain ⟨form, result⟩ :=
              (encodes_iff record).mp (writable record List.mem_cons_self)
            rw [refile_write roll result, ids_put, id_of_stored? result]
            rfl
      rw [List.foldl_cons, List.foldl_cons, ih, first]
      exact fun record member =>
        writable record (List.mem_cons_of_mem _ member)

namespace FiledCabinet

/-- The ids in the order in which loading the file gives them. -/
def loadedIds (filed : FiledCabinet) : Except Fault (List RecordId) :=
  (RecordFile.ofBytes filed.file.bytes.toList).load.1.map Roll.ids

variable {validator : Validator} {serial : Nat}

theorem mirrored_run {changes : List Change}
    (writable : Writable (trail Cabinet.after Cabinet.filings
      (.empty validator serial) changes)) :
    ∃ roll, (run validator serial changes).Mirrored roll ∧
      Roll.ids roll = Cabinet.slotOrder validator serial changes :=
  ⟨_, mirrored_refiled writable, Roll.ids_foldl_refile writable []⟩

theorem loadedIds_of_mirrored {filed : FiledCabinet} {roll : List Record}
    (mirrored : filed.Mirrored roll) :
    filed.loadedIds = .ok (Roll.ids roll) := by
  obtain ⟨file, load, _⟩ := mirrored.files.load
  rw [loadedIds, load]
  rfl

theorem loadedIds_run {changes : List Change}
    (writable : Writable (trail Cabinet.after Cabinet.filings
      (.empty validator serial) changes)) :
    (run validator serial changes).loadedIds =
      .ok (Cabinet.slotOrder validator serial changes) := by
  obtain ⟨roll, mirrored, ids⟩ := mirrored_run writable
  rw [loadedIds_of_mirrored mirrored, ids]

theorem cabinet_run (changes : List Change) :
    (run validator serial changes).cabinet =
      changes.foldl Cabinet.after (.empty validator serial) :=
  cabinet_foldl_after (.empty validator serial) changes

/-- Loading gives the ids in the order of their slots, and this is the order of
the list at every point of a run exactly if no change renames an id and leaves
one behind it as it is. -/
theorem reopened_in_order_iff (validator : Validator) (serial : Nat)
    (changes : List Change)
    (writable : Writable (trail Cabinet.after Cabinet.filings
      (.empty validator serial) changes)) :
    ((run validator serial changes).loadedIds =
        .ok (Cabinet.slotOrder validator serial changes) ∧
      ∀ anew number, ∃ again,
        ofFile (.ofBytes (run validator serial changes).file.bytes.toList)
          (.empty anew number) = .ok again ∧
        again.cabinet.records.map Record.id =
          Cabinet.slotOrder validator serial changes) ∧
    ((∀ earlier, earlier <+: changes →
        (run validator serial earlier).loadedIds =
          .ok (run validator serial earlier).cabinet.order) ↔
      ∀ earlier change, earlier ++ [change] <+: changes →
        (run validator serial earlier).cabinet.KeepsSlotOrder change) := by
  have front : ∀ earlier, earlier <+: changes →
      (run validator serial earlier).loadedIds =
        .ok (Cabinet.slotOrder validator serial earlier) := by
    rintro earlier ⟨later, rfl⟩
    rw [trail_append] at writable
    exact loadedIds_run writable.append.1
  refine ⟨⟨front changes (List.prefix_refl _), ?_⟩, ?_⟩
  · intro anew number
    obtain ⟨roll, mirrored, ids⟩ := mirrored_run writable
    obtain ⟨again, opens, _, _, records⟩ := mirrored.reopen anew number
    exact ⟨again, opens, by rw [records, ← ids, Roll.ids]⟩
  · simp only [cabinet_run]
    rw [← Cabinet.slotOrder_eq_order_iff]
    constructor
    · intro inOrder earlier before
      have same := (front earlier before).symm.trans (inOrder earlier before)
      exact Except.ok.inj same
    · intro inOrder earlier before
      rw [front earlier before, inOrder earlier before]

/-- Two records are created, and the first gets a new id. -/
def renameFirst : List Change :=
  [.create { id := 1 } false, .create { id := 2 } false,
    .edit 1 fun record => { record with id := 3 }]

private theorem filings_renameFirst :
    trail Cabinet.after Cabinet.filings (.empty (fun _ => none) 0)
        renameFirst =
      [.write { id := 1 }, .write { id := 2 }, .bury 1, .write { id := 3 }] :=
  rfl

private theorem writable_renameFirst :
    Writable (trail Cabinet.after Cabinet.filings (.empty (fun _ => none) 0)
      renameFirst) := by
  decide +kernel

/-- The renamed record stays in front in the list, but is loaded last. -/
theorem renamed_first_loaded_last :
    Writable (trail Cabinet.after Cabinet.filings (.empty (fun _ => none) 0)
      renameFirst) ∧
    (run (fun _ => none) 0 renameFirst).cabinet.order = [3, 2] ∧
    (run (fun _ => none) 0 renameFirst).loadedIds = .ok [2, 3] := by
  refine ⟨writable_renameFirst, ?_, ?_⟩
  · rw [cabinet_run]
    rfl
  · rw [loadedIds_run writable_renameFirst, Cabinet.slotOrder,
      filings_renameFirst]
    rfl

/-- So a store that is opened on the file lists it last. -/
theorem renamed_first_reopened_last :
    Writable (trail Cabinet.after Cabinet.filings (.empty (fun _ => none) 0)
      renameFirst) ∧
    ∃ again,
      ofFile
        (.ofBytes (run (fun _ => none) 0 renameFirst).file.bytes.toList)
        (.empty (fun _ => none) 1) = .ok again ∧
      again.cabinet.records.map Record.id = [2, 3] := by
  refine ⟨writable_renameFirst, ?_⟩
  have slots : Cabinet.slotOrder (fun _ => none) 0 renameFirst = [2, 3] := by
    rw [Cabinet.slotOrder, filings_renameFirst]
    rfl
  obtain ⟨⟨_, reopens⟩, _⟩ :=
    reopened_in_order_iff (fun _ => none) 0 renameFirst writable_renameFirst
  obtain ⟨again, opens, ids⟩ := reopens (fun _ => none) 1
  exact ⟨again, opens, ids.trans slots⟩

end FiledCabinet

end Cardfile
