import Cardfile.Proofs.Missed

/-!
# Records that are written

A creation or an edit commits a record.  If the record has a stored form, the
file has it afterwards, unless the change gives up a missed id.
-/

namespace Cardfile

open Storage

/-- The record that a creation or an edit commits. -/
inductive Cabinet.Committed (cabinet : Cabinet) : Change → Record → Prop where
  | created {record kept : Record} {freshId : Bool} {id : RecordId}
      {after : Cabinet}
      (entered : cabinet.create record freshId = (.ok id, after))
      (present : after.get? id = some kept) :
      Committed cabinet (.create record freshId) kept
  | edited {id : RecordId} {change : Record → Record} {previous : Record}
      {after : Cabinet} (present : cabinet.get? id = some previous)
      (carried : cabinet.edit id change = (.ok (), after)) :
      Committed cabinet (.edit id change) (change previous)

namespace FiledCabinet

variable {filed : FiledCabinet} {change : Change} {record : Record}

theorem move_of_committed (consistent : filed.cabinet.Consistent)
    (committed : filed.cabinet.Committed change record) :
    ∃ gone after, filed.cabinet.Commits gone record after ∧
      filed.cabinet.filings change = Filing.move gone record ∧
      filed.after change =
        ({ filed with cabinet := after }.buryAndFollow gone record.id).2 := by
  cases committed with
  | @created given _ freshId id after entered present =>
      rcases create_cases consistent given freshId with
        ⟨_, _, refused, _⟩ |
        ⟨gone, kept, next, commits, created, filings, moved⟩
      · cases refused.symm.trans entered
      · cases created.symm.trans entered
        cases commits.get?_self.symm.trans present
        exact ⟨gone, _, commits, filings, congrArg Prod.snd moved⟩
  | @edited id change previous after present carried =>
      rcases edit_cases consistent id change with
        ⟨absent, _, _⟩ | ⟨_, _, _, _, refused, _⟩ |
        ⟨known, next, found, commits, _, filings, moved⟩
      · cases absent.symm.trans present
      · cases refused.symm.trans carried
      · cases found.symm.trans present
        exact ⟨_, _, commits, filings, congrArg Prod.snd moved⟩

/-- A committed record that has a stored form is in the file, unless the change
gives up an id that the file has no slot for. -/
theorem written_of_committed (reachable : filed.Reachable)
    (committed : filed.cabinet.Committed change record) {slot : List UInt8}
    (encoded : encode record 0 = .ok slot) :
    ∃ form loaded file,
      decode slot = .ok (some form) ∧ form.id = record.id ∧
      (RecordFile.ofBytes (filed.after change).file.bytes.toList).load =
        (.ok loaded, file) ∧
      (loaded.map Record.id).Nodup ∧
      (filed.missed change = [] →
        (filed.after change).file.filed? record.id = some form ∧
          form ∈ loaded) ∧
      (filed.missed change ≠ [] →
        (filed.after change).file.filed? record.id = none ∧
          record.id ∉ loaded.map Record.id) := by
  obtain ⟨roll, tracked⟩ := reachable.tracked
  obtain ⟨form, result⟩ := (encodes_iff record).mp ⟨slot, encoded⟩
  obtain ⟨_, encodedAgain, _, holding⟩ := decode_encode 0 result
  cases encodedAgain.symm.trans encoded
  obtain ⟨gone, after, commits, filings, moved⟩ :=
    move_of_committed tracked.consistent committed
  rw [missed, filings, moved]
  rcases move_cases tracked.keeps commits.get?_self gone with
    ⟨old, given, unlisted, missing, stopped⟩ | ⟨missing, _, keeps⟩
  · -- the record's id is the one given up or was free, so it has no slot
    have absent : record.id ∉ Roll.ids roll := by
      rcases commits.room old given with rfl | free
      · exact unlisted
      · intro listed
        have live := tracked.live record.id listed
        rw [free] at live
        cases live
    have unfiled : filed.file.filed? record.id = none := by
      rw [tracked.keeps.filed?_eq]
      exact (Roll.find?_eq_none roll).mpr absent
    obtain ⟨file, load, _⟩ := RecordFile.Files.load tracked.keeps
    rw [missing, stopped]
    refine ⟨form, roll, file, holding, id_of_stored? result, load,
      tracked.keeps.distinct, ?_, ?_⟩
    · intro none
      cases none
    · exact fun _ => ⟨unfiled, absent⟩
  · have found := Roll.find?_move roll gone result
    obtain ⟨file, load, _⟩ := RecordFile.Files.load keeps
    rw [missing]
    refine ⟨form, _, file, holding, id_of_stored? result, load,
      keeps.distinct, ?_, ?_⟩
    · intro _
      rw [keeps.filed?_eq]
      exact ⟨found, List.mem_of_find?_eq_some found⟩
    · exact fun some => absurd rfl some

theorem committed_fallenBehind :
    fallenBehind.cabinet.Committed (.create { id := 1 } false) { id := 1 } :=
  .created rfl rfl

/-- A record takes the place of one that is not in the file, and does not get
into the file either. -/
theorem replacement_not_filed :
    fallenBehind.Reachable ∧
    fallenBehind.cabinet.Committed (.create { id := 1 } false) { id := 1 } ∧
    Encodes { id := 1 } ∧
    (fallenBehind.after (.create { id := 1 } false)).file.filed? 1 =
      none := by
  refine ⟨reachable_fallenBehind, committed_fallenBehind, encodes_idOnly 1,
    ?_⟩
  obtain ⟨slot, encoded⟩ := encodes_idOnly 1
  obtain ⟨_, _, _, _, _, _, _, _, missed⟩ :=
    written_of_committed reachable_fallenBehind committed_fallenBehind encoded
  exact (missed (by decide)).1

/-- Its file still has no bytes, and nothing is loaded from it. -/
theorem replacement_not_loaded :
    fallenBehind.Reachable ∧
    fallenBehind.cabinet.Committed (.create { id := 1 } false) { id := 1 } ∧
    Encodes { id := 1 } ∧
    (fallenBehind.after (.create { id := 1 } false)).cabinet.order = [1] ∧
    (fallenBehind.after (.create { id := 1 } false)).file.bytes = #[] ∧
    (RecordFile.ofBytes (fallenBehind.after
      (.create { id := 1 } false)).file.bytes.toList).load.1 = .ok [] :=
  ⟨reachable_fallenBehind, committed_fallenBehind, encodes_idOnly 1, rfl, rfl,
    rfl⟩

end FiledCabinet

end Cardfile
