import Cardfile.Proofs.Reopening

/-!
# Files that fall behind

A record without a stored form is committed and not written, and from then on
its file may lack records.  What it still has follows the cabinet: all ids on
the roll are live.  The hidden records stay what they were when the file was
opened.
-/

namespace Cardfile

open Storage

namespace Storage.Roll

theorem mem_ids_refile_write {roll : List Record} {record : Record}
    {id : RecordId} (member : id ∈ ids (refile roll (.write record))) :
    id = record.id ∨ id ∈ ids roll := by
  by_cases own : record.id = id
  · exact .inl own.symm
  · right
    rwa [← find?_isSome, find?_refile_write_of_ne roll own, find?_isSome]
      at member

theorem mem_ids_move {roll : List Record} {gone : Option RecordId}
    {record : Record} {id : RecordId}
    (member : id ∈ ids ((Filing.move gone record).foldl refile roll)) :
    id = record.id ∨ gone ≠ some id ∧ id ∈ ids roll := by
  by_cases own : record.id = id
  · exact .inl own.symm
  · right
    rw [← find?_isSome, find?_move_of_ne roll gone own] at member
    split at member
    · cases member
    · next kept => exact ⟨kept, (find?_isSome roll id).mp member⟩

end Storage.Roll

namespace FiledCabinet

/-- The file has records of live ids only, besides the hidden ones. -/
structure Tracked (filed : FiledCabinet) (roll hidden : List Record) :
    Prop where
  consistent : filed.cabinet.Consistent
  keeps : filed.file.Keeps roll hidden
  live : ∀ id ∈ Roll.ids roll, (filed.cabinet.get? id).isSome

namespace Tracked

variable {filed : FiledCabinet} {roll hidden : List Record}

theorem move (tracked : filed.Tracked roll hidden) {after : Cabinet}
    {gone : Option RecordId} {record : Record}
    (commits : filed.cabinet.Commits gone record after) :
    ∃ rollAfter,
      ({ filed with cabinet := after }.buryAndFollow gone
        record.id).2.Tracked rollAfter hidden := by
  have same := cabinet_buryAndFollow { filed with cabinet := after } gone
    record.id
  have live : ∀ id, id = record.id ∨ gone ≠ some id ∧ id ∈ Roll.ids roll →
      (after.get? id).isSome := by
    rintro id (rfl | ⟨kept, listed⟩)
    · rw [commits.get?_self]
      rfl
    · rw [commits.get?, if_neg kept]
      split
      · rfl
      · exact tracked.live id listed
  rcases @buryAndFollow_cases ⟨after, filed.file⟩ roll hidden tracked.keeps
      record commits.get?_self gone with
    ⟨old, given, unlisted, stopped⟩ | ⟨_, _, moved⟩
  · -- the id given up is not on the roll, so that nothing on it has died
    refine ⟨roll, ?_⟩
    rw [stopped]
    refine ⟨commits.consistent, tracked.keeps, ?_⟩
    intro id listed
    apply live
    right
    refine ⟨?_, listed⟩
    rintro rfl
    cases given
    exact unlisted listed
  · refine ⟨_, same ▸ commits.consistent, moved, ?_⟩
    intro id listed
    rw [same]
    exact live id (Roll.mem_ids_move listed)

theorem create (tracked : filed.Tracked roll hidden) (record : Record)
    (freshId : Bool) :
    ∃ rollAfter, (filed.create record freshId).2.Tracked rollAfter
      hidden := by
  rcases create_cases tracked.consistent record freshId with
    ⟨_, _, _, failed⟩ | ⟨gone, kept, after, commits, _, _, moved⟩
  · rw [failed]
    exact ⟨roll, tracked⟩
  · rw [moved]
    exact tracked.move commits

theorem edit (tracked : filed.Tracked roll hidden) (id : RecordId)
    (change : Record → Record) :
    ∃ rollAfter, (filed.edit id change).2.Tracked rollAfter hidden := by
  rcases edit_cases tracked.consistent id change with
    ⟨_, _, failed⟩ | ⟨_, _, _, _, _, failed⟩ | ⟨_, after, _, commits, _, _, moved⟩
  · rw [failed]
    exact ⟨roll, tracked⟩
  · rw [failed]
    exact ⟨roll, tracked⟩
  · rw [moved]
    exact tracked.move commits

theorem delete (tracked : filed.Tracked roll hidden) (id : RecordId) :
    ∃ rollAfter, (filed.delete id).2.Tracked rollAfter hidden := by
  rcases filed.delete_cases id with
    ⟨_, _, failed⟩ | ⟨record, present, _, buried⟩
  · rw [failed]
    exact ⟨roll, tracked⟩
  · have own := tracked.consistent.ownId id record present
    have consistent := (tracked.consistent.discard
      (tracked.consistent.get?_id present)).revised
    have live : ∀ other ∈ Roll.ids roll, other ≠ id →
        ((filed.cabinet.discard record).revised.get? other).isSome := by
      intro other listed different
      rw [Cabinet.get?_revised, Cabinet.get?_discard, own,
        if_neg different.symm]
      exact tracked.live other listed
    rw [buried]
    by_cases listed : id ∈ Roll.ids roll
    · refine ⟨_, consistent, (tracked.keeps.tombstone listed).2, ?_⟩
      intro other member
      rw [Roll.ids_strike, List.mem_filter, bne_iff_ne] at member
      exact live other member.1 member.2
    · refine ⟨roll, consistent, ?_, ?_⟩
      · simp only [bury, tracked.keeps.tombstone_absent listed]
        exact tracked.keeps
      · intro other member
        exact live other member (ne_of_mem_of_not_mem member listed)

theorem takeOver (tracked : filed.Tracked roll hidden) (record : Record) :
    ∃ rollAfter, (filed.takeOver record).Tracked rollAfter hidden := by
  refine ⟨_, tracked.consistent.merge record,
    tracked.keeps.refile_write record, ?_⟩
  intro id member
  rw [FiledCabinet.takeOver, tracked.consistent.get?_merge]
  split
  · rfl
  · next different =>
      have listed := (Roll.mem_ids_refile_write member).resolve_left
        (Ne.symm different)
      exact tracked.live id listed

theorem foldl {step : FiledCabinet → α → FiledCabinet}
    (keeps : ∀ {filed : FiledCabinet} {roll : List Record},
      filed.Tracked roll hidden → ∀ item,
        ∃ rollAfter, (step filed item).Tracked rollAfter hidden)
    (tracked : filed.Tracked roll hidden) (items : List α) :
    ∃ rollAfter, (items.foldl step filed).Tracked rollAfter hidden := by
  induction items generalizing filed roll with
  | nil => exact ⟨roll, tracked⟩
  | cons item items ih =>
      obtain ⟨_, next⟩ := keeps tracked item
      exact ih next

theorem restore (tracked : filed.Tracked roll hidden)
    (records : List Record) :
    ∃ rollAfter, (filed.restore records).2.Tracked rollAfter hidden := by
  obtain ⟨rollAfter, taken⟩ := tracked.foldl takeOver records
  have same : (records.foldl FiledCabinet.takeOver filed).cabinet =
      records.foldl Cabinet.merge filed.cabinet :=
    cabinet_foldl (fun _ _ => rfl) records filed
  refine ⟨rollAfter, tracked.consistent.after (.restore records), ?_, ?_⟩
  · rw [file_restore]
    exact taken.keeps
  · intro id listed
    have live := taken.live id listed
    rw [same] at live
    exact (filed.cabinet.get?_restore records id).symm ▸ live

theorem after (tracked : filed.Tracked roll hidden) (change : Change) :
    ∃ rollAfter, (filed.after change).Tracked rollAfter hidden := by
  cases change with
  | create record freshId => exact tracked.create record freshId
  | edit id change => exact tracked.edit id change
  | delete id => exact tracked.delete id
  | updateWhere test change =>
      rw [FiledCabinet.after, updateWhere_snd]
      exact tracked.foldl (fun tracked id => tracked.edit id change) _
  | deleteWhere test =>
      exact tracked.foldl (fun tracked id => tracked.delete id) _
  | restore records => exact tracked.restore records

end Tracked

section Opening

variable {bytes : List UInt8} {held : List (Option Record)}
  {hidden : List Record} {cabinet : Cabinet}

theorem tracked_of_rows (rows : Rows bytes held)
    (hides : Hides held (visible held) hidden)
    (consistent : cabinet.Consistent) :
    ∃ opened, ofFile (.ofBytes bytes) cabinet = .ok opened ∧
      opened.Tracked (live (visible held)) hidden ∧
      opened.cabinet = (cabinet.restore (live (visible held))).2 := by
  obtain ⟨opened, opens, keeps, taken⟩ := ofFile_of_rows rows hides cabinet
  refine ⟨opened, opens, ⟨?_, keeps, ?_⟩, taken⟩
  · rw [taken]
    exact consistent.after (.restore _)
  · intro id listed
    rw [← Roll.find?_isSome] at listed
    rw [taken, Cabinet.get?_restore,
      consistent.get?_foldl_merge (nodup_ids_live_visible held),
      Option.isSome_or, listed, Bool.true_or]

theorem exists_rows_of_ofFile {opened : FiledCabinet}
    (opens : ofFile (.ofBytes bytes) cabinet = .ok opened) :
    ∃ held, Rows bytes held := by
  cases load : (RecordFile.ofBytes bytes).load with
  | mk outcome file =>
      simp only [ofFile, load] at opens
      cases outcome with
      | error fault => cases opens
      | ok records =>
          exact RecordFile.exists_rows_of_load (congrArg Prod.fst load)

end Opening

/-- The filed cabinets that changes and reopenings lead to from an empty file,
whether or not all records can be written. -/
inductive Reachable : FiledCabinet → Prop where
  | opened {filed : FiledCabinet} {cabinet : Cabinet}
      (consistent : cabinet.Consistent)
      (opens : ofFile (.ofBytes []) cabinet = .ok filed) : Reachable filed
  | changed {filed : FiledCabinet} (reachable : Reachable filed)
      (change : Change) : Reachable (filed.after change)
  | reopened {filed again : FiledCabinet} {cabinet : Cabinet}
      (reachable : Reachable filed) (consistent : cabinet.Consistent)
      (opens : ofFile (.ofBytes filed.file.bytes.toList) cabinet =
        .ok again) :
      Reachable again

theorem Reachable.tracked {filed : FiledCabinet}
    (reachable : filed.Reachable) : ∃ roll, filed.Tracked roll [] := by
  induction reachable with
  | opened consistent opens =>
      have rows : Rows [] [] := .nil (by decide)
      obtain ⟨opened, same, tracked, _⟩ := tracked_of_rows rows .nil consistent
      cases same.symm.trans opens
      exact ⟨_, tracked⟩
  | changed _ change ih =>
      obtain ⟨roll, tracked⟩ := ih
      exact tracked.after change
  | reopened _ consistent opens ih =>
      obtain ⟨roll, tracked⟩ := ih
      obtain ⟨held, rows, hides, _⟩ :=
        RecordFile.Files.visible_rows tracked.keeps
      obtain ⟨again, same, tracked, _⟩ := tracked_of_rows rows hides consistent
      cases same.symm.trans opens
      exact ⟨_, tracked⟩

end FiledCabinet

end Cardfile
