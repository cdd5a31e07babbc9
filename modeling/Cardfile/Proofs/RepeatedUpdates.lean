import Cardfile.Engine
import Cardfile.Proofs.BatchUpdate
import Cardfile.Proofs.Query.Assignments

/-!
# Repeated updates

An update that is run again finds other records than the first time: some have
been changed out of the condition, some into it.  It leaves them all as they
are.  A record that was changed has nothing left to change.  One that was
passed over is passed over again, and this rests on what assignments do to
ids: they leave every record its own, or give all records the same one, and
once a record has that one it is never given up within a batch.
-/

namespace Cardfile

/-- Changes that have nothing to do when they are made again and give a record
no other id than its own, or one that they give to all. -/
structure Settles (change : Record → Record) : Prop where
  again : ∀ record, change (change record) = change record
  ids : (∃ id, ∀ record, (change record).id = id) ∨
    ∀ record, (change record).id = record.id

theorem Query.settles_assignAll (assignments : List Assigned) :
    Settles (assignAll assignments) where
  again := assignAll_assignAll assignments
  ids := by
    rcases content_assignAll_or assignments .id with ⟨value, settled⟩ | kept
    · left
      refine ⟨(assignAll assignments {}).id, fun record => ?_⟩
      have same : Field.id.content (assignAll assignments record) =
          Field.id.content (assignAll assignments {}) := by
        rw [settled, settled]
      exact Value.int.inj same
    · exact .inr fun record => Value.int.inj (kept record)

namespace Cabinet

variable {change : Record → Record} {cabinet : Cabinet}

theorem verdict_eq_ok {old : RecordId} {record : Record} :
    cabinet.verdict old record = .ok () ↔
      cabinet.validator record = none ∧
        (record.id = old ∨ cabinet.get? record.id = none) := by
  constructor
  · intro passed
    exact ⟨accepted_of_verdict passed, room_of_verdict passed⟩
  · rintro ⟨accepted, room⟩
    have free : ¬(record.id ≠ old ∧ (cabinet.get? record.id).isSome) := by
      rintro ⟨moves, taken⟩
      rw [room.resolve_left moves] at taken
      cases taken
    rw [verdict, accepted]
    exact if_neg free

section OneId

variable {given : RecordId} (only : ∀ record, (change record).id = given)
include only

theorem isSome_get?_edit (id : RecordId)
    (taken : (cabinet.get? given).isSome) :
    ((cabinet.edit id change).2.get? given).isSome := by
  rcases cabinet.edit_cases id change with
    ⟨_, failed⟩ | ⟨_, _, _, _, failed⟩ | ⟨previous, _, _, _, edited⟩
  · rw [failed]
    exact taken
  · rw [failed]
    exact taken
  · rw [edited, get?_revised, get?_replace, if_pos (only previous)]
    rfl

theorem isSome_get?_editAll (ids : List RecordId)
    (taken : (cabinet.get? given).isSome) :
    ((cabinet.editAll change ids).get? given).isSome := by
  induction ids generalizing cabinet with
  | nil => exact taken
  | cons id ids ih => exact ih (isSome_get?_edit only id taken)

end OneId

theorem editAll_atTurn (ids : List RecordId) (id : RecordId) :
    (cabinet.atTurn change ids id).editAll change
        (ids.dropWhile (· != id)) =
      cabinet.editAll change ids := by
  rw [atTurn, editAll, editAll, ← List.foldl_append,
    List.takeWhile_append_dropWhile]
  rfl

namespace Consistent

theorem records_updateWhere (consistent : cabinet.Consistent)
    (test : Record → Bool) :
    (cabinet.updateWhere test change).2.records =
      cabinet.records.map fun record =>
        if cabinet.Edits change (cabinet.matching test) record then
          change record
        else record := by
  rw [updateWhere_snd]
  exact consistent.records_editAll change (consistent.listedOnce.filter _)
    (List.filter_subset_self _)

/-- A record that a batch has passed over is passed over again. -/
theorem not_edits_again (consistent : cabinet.Consistent)
    (test : Record → Bool) (settles : Settles change) {record : Record}
    (member : record ∈ cabinet.records)
    (unedited : ¬cabinet.Edits change (cabinet.matching test) record) :
    let once := (cabinet.updateWhere test change).2
    ¬once.Edits change (once.matching test) record := by
  rintro once ⟨turn, passed⟩
  have next : once.Consistent := consistent.after (.updateWhere test change)
  have row : once = cabinet.editAll change (cabinet.matching test) :=
    updateWhere_snd cabinet test change
  have still : record ∈ once.records := by
    rw [consistent.records_updateWhere test]
    exact List.mem_map.mpr ⟨record, member, if_neg unedited⟩
  have passes := (next.mem_matching_iff test still).mp turn
  obtain ⟨accepted, room⟩ := verdict_eq_ok.mp passed
  apply unedited
  constructor
  · exact (consistent.mem_matching_iff test member).mpr passes
  rw [verdict_eq_ok]
  constructor
  · rw [atTurn, validator_editAll, row, validator_editAll] at accepted
    rw [atTurn, validator_editAll]
    exact accepted
  · rcases settles.ids with ⟨given, only⟩ | kept
    · rw [only] at room ⊢
      rcases room with own | free
      · exact .inl own
      · -- the id would be taken in the second batch if it were in the first
        right
        by_contra taken
        have first := isSome_get?_editAll only
          ((cabinet.matching test).dropWhile (· != record.id))
          (Option.isSome_iff_ne_none.mpr taken)
        rw [editAll_atTurn, ← row] at first
        have second := isSome_get?_editAll only
          ((once.matching test).takeWhile (· != record.id)) first
        rw [← atTurn, free] at second
        cases second
    · exact .inl (kept record)

/-- A batch that is repeated leaves the records as the first one left them. -/
theorem records_updateWhere_again (consistent : cabinet.Consistent)
    (test : Record → Bool) (settles : Settles change) :
    let once := (cabinet.updateWhere test change).2
    (once.updateWhere test change).2.records = once.records := by
  intro once
  have next : once.Consistent := consistent.after (.updateWhere test change)
  have unchanged : ∀ record ∈ once.records,
      (if once.Edits change (once.matching test) record then change record
        else record) = record := by
    intro record present
    rw [consistent.records_updateWhere test] at present
    obtain ⟨old, member, rfl⟩ := List.mem_map.mp present
    by_cases edited : cabinet.Edits change (cabinet.matching test) old
    · rw [if_pos edited, settles.again, ite_self]
    · rw [if_neg edited,
        if_neg (consistent.not_edits_again test settles member edited)]
  calc (once.updateWhere test change).2.records
      = once.records.map _ := next.records_updateWhere test
    _ = once.records.map fun record => record := List.map_congr_left unchanged
    _ = once.records := List.map_id' _

end Consistent

end Cabinet

namespace Engine

open Cabinet Query

section Update

variable {text : String} {assignments : List Assigned} {condition : Condition}
  (reads : Statement.read text = .ok (.update assignments condition))
include reads

theorem execute_update (engine : Engine) (store : Store) :
    (engine.execute store text).2 =
      (engine,
        (store.updateWhere condition.holds (assignAll assignments)).2) := by
  unfold execute
  rw [reads]
  rfl

/-- An update makes its assignments in the records that it comes to and that
may then be taken over, each in its place.  Executed again it leaves the list
of records as it was after the first time. -/
theorem execute_update_again (validator : Validator) (serial : Nat)
    (changes : List Change) (engine : Engine) :
    let before := changes.foldl after (empty validator serial)
    let first := engine.execute (.memory before) text
    let second := first.2.1.execute first.2.2 text
    first.2.2.cabinet.records = before.records.map (fun record =>
        if before.Edits (assignAll assignments)
            (before.matching condition.holds) record then
          assignAll assignments record
        else record) ∧
      second.2.2.cabinet.records = first.2.2.cabinet.records := by
  intro before first second
  have consistent : before.Consistent :=
    (Consistent.empty validator serial).foldl_after changes
  have once : first.2 =
      (engine, .memory (before.updateWhere condition.holds
        (assignAll assignments)).2) :=
    execute_update reads engine (.memory before)
  have twice : second.2 =
      (first.2.1, (first.2.2.updateWhere condition.holds
        (assignAll assignments)).2) :=
    execute_update reads first.2.1 first.2.2
  rw [twice, once]
  constructor
  · exact consistent.records_updateWhere condition.holds
  · exact consistent.records_updateWhere_again condition.holds
      (settles_assignAll assignments)

end Update

/-- The first record moves to the id that the second one is refused, both
times. -/
theorem execute_update_again_taken :
    let text := "update set id = 9, points = 7 where points = 0 or id = 9"
    let store := Store.memory <|
      [Change.create { id := 1 } false, .create { id := 2 } false].foldl after
        (empty .acceptAll 0)
    let first := (fresh fun _ => 0).execute store text
    let second := first.2.1.execute first.2.2 text
    Statement.read text =
      .ok (.update [⟨.id, .int 9, "9"⟩, ⟨.points, .short 7, "7"⟩]
        (some ⟨⟨.points, .short 0, "0"⟩, [(.or, ⟨.id, .int 9, "9"⟩)]⟩)) ∧
    first.2.2.cabinet.records = [{ id := 9, points := 7 }, { id := 2 }] ∧
    second.2.2.cabinet.records = first.2.2.cabinet.records := by
  intro text store first second
  have reads : Statement.read text =
      .ok (.update [⟨.id, .int 9, "9"⟩, ⟨.points, .short 7, "7"⟩]
        (some ⟨⟨.points, .short 0, "0"⟩, [(.or, ⟨.id, .int 9, "9"⟩)]⟩)) := by
    decide +kernel
  exact ⟨reads, by decide +kernel,
    (execute_update_again reads .acceptAll 0
      [.create { id := 1 } false, .create { id := 2 } false]
      (fresh fun _ => 0)).2⟩

end Engine

end Cardfile
