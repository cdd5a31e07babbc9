import Cardfile.Proofs.Tracking

/-!
# Records that come back

A file may be opened that has several slots with one id.  All but the last of
them are out of reach: a deletion buries the slot that is known, and the hidden
ones stay as they are.  When the file is opened again, the last of these can be
seen.
-/

namespace Cardfile

open Storage

namespace Storage

/-- The ids of the records in the whole slots of the bytes, in their order. -/
def slotIds (bytes : List UInt8) : List RecordId :=
  (RecordFile.slots (bytes.length / slotSize) bytes).filterMap fun slot =>
    match decode slot with
    | .ok (some record) => some record.id
    | _ => none

theorem slotIds_of_rows {bytes : List UInt8} {held : List (Option Record)}
    (rows : Rows bytes held) : slotIds bytes = Roll.ids (live held) := by
  rw [slotIds, rows.count]
  induction rows with
  | nil short => rfl
  | @cons slot bytes entry held whole holds rest ih =>
      rw [List.length_cons, RecordFile.slots_append whole,
        List.filterMap_cons, holds, ih]
      cases entry with
      | none => rfl
      | some record => rfl

end Storage

namespace FiledCabinet

variable {filed : FiledCabinet} {roll hidden : List Record}

/-- A cabinet that is opened on the file again lists what the file still has,
and what was hidden in it from the beginning. -/
theorem Tracked.reopen (tracked : filed.Tracked roll hidden)
    (validator : Validator) (serial : Nat) :
    ∃ again,
      ofFile (.ofBytes filed.file.bytes.toList) (.empty validator serial) =
        .ok again ∧
      again.cabinet.Consistent ∧
      ∀ id, id ∈ again.cabinet.order ↔
        id ∈ Roll.ids roll ∨ id ∈ Roll.ids hidden := by
  obtain ⟨held, rows, holds⟩ := tracked.keeps.exists_rows
  obtain ⟨_, hides⟩ := exists_hides_visible held
  have empty := Cabinet.Consistent.empty validator serial
  obtain ⟨again, opens, trackedAgain, cabinet⟩ :=
    tracked_of_rows rows hides empty
  refine ⟨again, opens, trackedAgain.consistent, ?_⟩
  intro id
  rw [← holds, ← mem_ids_live_visible, cabinet, Cabinet.order_restore,
    empty.order_foldl_merge]
  · rfl
  · exact nodup_ids_live_visible held

/-- Ids that are not live come back exactly if they were repeated in the file
when it was opened first. -/
theorem returns_iff_repeated {bytes : List UInt8} {validator : Validator}
    {serial : Nat} {opened : FiledCabinet}
    (opens : ofFile (.ofBytes bytes) (.empty validator serial) = .ok opened)
    (changes : List Change) (anew : Validator) (number : Nat) :
    ∃ again,
      ofFile (.ofBytes (changes.foldl after opened).file.bytes.toList)
        (.empty anew number) = .ok again ∧
      ∀ id, id ∉ (changes.foldl after opened).cabinet.order →
        (id ∈ again.cabinet.records.map Record.id ↔
          2 ≤ (slotIds bytes).count id) := by
  obtain ⟨held, rows⟩ := exists_rows_of_ofFile opens
  obtain ⟨hidden, hides⟩ := exists_hides_visible held
  obtain ⟨first, opensFirst, tracked, _⟩ :=
    tracked_of_rows rows hides (.empty validator serial)
  cases opensFirst.symm.trans opens
  obtain ⟨roll, closed⟩ :=
    tracked.foldl (fun tracked change => tracked.after change) changes
  obtain ⟨again, opensAgain, consistent, listed⟩ := closed.reopen anew number
  refine ⟨again, opensAgain, ?_⟩
  intro id gone
  have unlisted : id ∉ Roll.ids roll := by
    intro member
    apply gone
    rw [closed.consistent.mem_order]
    exact closed.live id member
  rw [consistent.map_id_records, listed, slotIds_of_rows rows,
    ← hides.mem_ids_hidden, or_iff_right unlisted]

/-- So all records that come back are live exactly if all repeated ids are. -/
theorem reopened_live_iff {bytes : List UInt8} {validator : Validator}
    {serial : Nat} {opened : FiledCabinet}
    (opens : ofFile (.ofBytes bytes) (.empty validator serial) = .ok opened)
    (changes : List Change) (anew : Validator) (number : Nat) :
    ∃ again,
      ofFile (.ofBytes (changes.foldl after opened).file.bytes.toList)
        (.empty anew number) = .ok again ∧
      (∀ id, id ∉ (changes.foldl after opened).cabinet.order →
        (id ∈ again.cabinet.records.map Record.id ↔
          2 ≤ (slotIds bytes).count id)) ∧
      ((∀ record ∈ again.cabinet.records,
          record.id ∈ (changes.foldl after opened).cabinet.order) ↔
        ∀ id, 2 ≤ (slotIds bytes).count id →
          id ∈ (changes.foldl after opened).cabinet.order) := by
  obtain ⟨again, opensAgain, returns⟩ :=
    returns_iff_repeated opens changes anew number
  refine ⟨again, opensAgain, returns, ?_⟩
  constructor
  · intro live id repeated
    by_contra gone
    obtain ⟨record, member, rfl⟩ :=
      List.mem_map.mp ((returns id gone).mpr repeated)
    exact gone (live record member)
  · intro live record member
    by_contra gone
    apply gone
    apply live
    rw [← returns record.id gone]
    exact List.mem_map_of_mem member

/-- The bytes of a file with two slots of one record. -/
def filedTwice : List UInt8 :=
  match encode { id := 1 } 0 with
  | .ok slot => slot ++ slot
  | .error _ => []

theorem rows_filedTwice :
    Rows filedTwice [some { id := 1 }, some { id := 1 }] := by
  have result : stored? { id := 1 } = some { id := 1 } := rfl
  obtain ⟨slot, encoded, whole, holding⟩ := decode_encode 0 result
  have second : Rows slot [some { id := 1 }] := by
    rw [← List.append_nil slot]
    exact .cons whole holding (.nil (by decide))
  rw [filedTwice, encoded]
  exact .cons whole holding second

/-- One of the two slots is hidden, and is left when the record is deleted. -/
theorem deleted_filedTwice :
    ∃ opened,
      ofFile (.ofBytes filedTwice) (.empty (fun _ => none) 0) = .ok opened ∧
      opened.cabinet.order = [1] ∧
      (opened.after (.delete 1)).cabinet.order = [] ∧
      (opened.after (.delete 1)).Tracked [] [{ id := 1 }] := by
  have hides : Hides [some { id := 1 }, some { id := 1 }]
      [none, some { id := 1 }] [{ id := 1 }] :=
    .hidden _ (.seen _ .nil)
  obtain ⟨opened, opens, tracked, cabinet⟩ :=
    tracked_of_rows rows_filedTwice hides (.empty (fun _ => none) 0)
  have gone : (opened.after (.delete 1)).cabinet.order = [] := by
    rw [cabinet_after tracked.consistent, cabinet]
    rfl
  obtain ⟨roll, deleted⟩ := tracked.delete 1
  have struck : roll = [] := by
    rw [List.eq_nil_iff_forall_not_mem]
    intro record member
    have live := deleted.live record.id (List.mem_map_of_mem member)
    rw [← deleted.consistent.mem_order] at live
    rw [after] at gone
    rw [gone] at live
    cases live
  refine ⟨opened, opens, ?_, gone, struck ▸ deleted⟩
  rw [cabinet]
  rfl

/-- The record is deleted, and is listed again when the file is reopened. -/
theorem deleted_record_reopened :
    ∃ opened,
      ofFile (.ofBytes filedTwice) (.empty (fun _ => none) 0) = .ok opened ∧
      (opened.after (.delete 1)).cabinet.order = [] ∧
      ∃ again,
        ofFile (.ofBytes (opened.after (.delete 1)).file.bytes.toList)
          (.empty (fun _ => none) 1) = .ok again ∧
        1 ∈ again.cabinet.records.map Record.id := by
  obtain ⟨opened, opens, _, gone, _⟩ := deleted_filedTwice
  obtain ⟨again, opensAgain, returns, _⟩ :=
    reopened_live_iff opens [.delete 1] (fun _ => none) 1
  refine ⟨opened, opens, gone, again, opensAgain, ?_⟩
  rw [returns, slotIds_of_rows rows_filedTwice]
  · decide
  · simp only [List.foldl_cons, List.foldl_nil, gone, List.not_mem_nil,
      not_false_eq_true]

/-- The list of the reopened cabinet is the one before the deletion. -/
theorem deleted_record_comes_back :
    ∃ opened again,
      ofFile (.ofBytes filedTwice) (.empty (fun _ => none) 0) = .ok opened ∧
      opened.cabinet.order = [1] ∧
      (opened.after (.delete 1)).cabinet.order = [] ∧
      ofFile (.ofBytes (opened.after (.delete 1)).file.bytes.toList)
        (.empty (fun _ => none) 1) = .ok again ∧
      again.cabinet.order = [1] := by
  obtain ⟨opened, opens, before, gone, deleted⟩ := deleted_filedTwice
  obtain ⟨again, opensAgain, consistent, listed⟩ :=
    deleted.reopen (fun _ => none) 1
  refine ⟨opened, again, opens, before, gone, opensAgain, ?_⟩
  apply List.perm_singleton.mp
  refine (List.perm_ext_iff_of_nodup consistent.listedOnce
    (List.nodup_singleton 1)).mpr ?_
  intro id
  rw [listed]
  simp [Roll.ids]

end FiledCabinet

end Cardfile
