import Cardfile.Proofs.Tracking

/-!
# Missed ids

A change may give up an id that its file has no slot for, because the record
could not be written earlier.  The file then has nothing to bury, and it stops
before the new record is written.
-/

namespace Cardfile

open Storage

/-- The id that a filing buries, if the file has no slot for it. -/
def Filing.missing? (file : RecordFile) : Filing → Option RecordId
  | .bury id => if file.offsets.contains id then none else some id
  | .write _ => none

theorem Filing.missing_move (file : RecordFile) (gone : Option RecordId)
    (record : Record) :
    (Filing.move gone record).filterMap (Filing.missing? file) =
      (gone.filter fun old => !file.offsets.contains old).toList := by
  cases gone with
  | none => rfl
  | some old =>
      cases known : file.offsets.contains old <;>
        simp [Filing.move, Filing.missing?, Option.filter, known]

namespace Cabinet

variable {cabinet : Cabinet}

theorem edit_gives_up {change : Record → Record} {id old : RecordId}
    (member : .bury old ∈ cabinet.editFilings change id) :
    old = id ∧ (cabinet.get? id).isSome := by
  simp only [editFilings] at member
  split at member
  · next present _ =>
      rw [Filing.bury_mem_move, Option.ite_none_right_eq_some] at member
      exact ⟨(Option.some.inj member.2).symm, by rw [present]; rfl⟩
  · cases member

theorem delete_gives_up {id old : RecordId}
    (member : .bury old ∈ cabinet.deleteFilings id) :
    old = id ∧ (cabinet.get? id).isSome := by
  simp only [deleteFilings] at member
  rcases cabinet.delete_cases id with
    ⟨_, failed⟩ | ⟨record, present, deleted⟩
  · simp [failed] at member
  · rw [deleted, List.mem_singleton] at member
    cases member
    exact ⟨rfl, by rw [present]; rfl⟩

/-- Only ids that are listed are given up. -/
theorem Consistent.listed_of_bury_mem (consistent : cabinet.Consistent)
    {change : Change} {old : RecordId}
    (member : .bury old ∈ cabinet.filings change) : old ∈ cabinet.order := by
  cases change with
  | create record freshId =>
      simp only [filings, createFilings] at member
      rw [consistent.mem_order]
      rcases cabinet.create_cases record freshId with
        ⟨_, _, failed⟩ | ⟨_, entered⟩
      · simp [failed] at member
      · rw [entered, Filing.bury_mem_move] at member
        exact (consistent.commits_place record freshId).known old member
  | edit id change =>
      obtain ⟨rfl, live⟩ := edit_gives_up member
      exact (consistent.mem_order old).mpr live
  | delete id =>
      obtain ⟨rfl, live⟩ := delete_gives_up member
      exact (consistent.mem_order old).mpr live
  | updateWhere test change =>
      obtain ⟨_, id, matched, buried⟩ := mem_trail member
      rw [(edit_gives_up buried).1]
      exact List.mem_of_mem_filter matched
  | deleteWhere test =>
      obtain ⟨_, id, matched, buried⟩ := mem_trail member
      rw [(delete_gives_up buried).1]
      exact List.mem_of_mem_filter matched
  | restore records => simp [filings] at member

end Cabinet

namespace FiledCabinet

/-- The ids that a change gives up and that the file has no slot for. -/
def missed (filed : FiledCabinet) (change : Change) : List RecordId :=
  (filed.cabinet.filings change).filterMap (Filing.missing? filed.file)

theorem mem_missed_iff {filed : FiledCabinet} {change : Change}
    {id : RecordId} :
    id ∈ filed.missed change ↔
      .bury id ∈ filed.cabinet.filings change ∧
        filed.file.offsets.contains id = false := by
  simp only [missed, List.mem_filterMap]
  constructor
  · rintro ⟨filing, member, missing⟩
    cases filing with
    | write record => cases missing
    | bury old =>
        simp only [Filing.missing?, Option.ite_none_left_eq_some,
          Bool.not_eq_true] at missing
        obtain ⟨unknown, same⟩ := missing
        cases same
        exact ⟨member, unknown⟩
  · rintro ⟨member, unknown⟩
    exact ⟨_, member, by simp [Filing.missing?, unknown]⟩

theorem Mirrored.missed_eq_nil {filed : FiledCabinet} {roll : List Record}
    (mirrored : filed.Mirrored roll) (change : Change) :
    filed.missed change = [] := by
  rw [List.eq_nil_iff_forall_not_mem]
  intro id member
  obtain ⟨buried, unknown⟩ := mem_missed_iff.mp member
  have listed := mirrored.consistent.listed_of_bury_mem buried
  rw [mirrored.consistent.mem_order, ← mirrored.agrees.mem_ids,
    ← mirrored.files.contains_iff, unknown] at listed
  cases listed

variable {filed : FiledCabinet} {roll hidden : List Record}

/-- A move stops exactly if the file has no slot for what is given up. -/
theorem move_cases (keeps : filed.file.Keeps roll hidden) {after : Cabinet}
    {record : Record} (present : after.get? record.id = some record)
    (gone : Option RecordId) :
    (∃ old, gone = some old ∧ old ∉ Roll.ids roll ∧
      (Filing.move gone record).filterMap (Filing.missing? filed.file) =
        [old] ∧
      { filed with cabinet := after }.buryAndFollow gone record.id =
        (.error (.absent old), { filed with cabinet := after })) ∨
    ((Filing.move gone record).filterMap (Filing.missing? filed.file) = [] ∧
      ({ filed with cabinet := after }.buryAndFollow gone record.id).1 =
        RecordFile.reply record ∧
      ({ filed with cabinet := after }.buryAndFollow gone
        record.id).2.file.Keeps
          ((Filing.move gone record).foldl Roll.refile roll) hidden) := by
  rw [Filing.missing_move]
  rcases @buryAndFollow_cases ⟨after, filed.file⟩ roll hidden keeps record
      present gone with
    ⟨old, rfl, unlisted, stopped⟩ | ⟨listed, answered, moved⟩
  · left
    refine ⟨old, rfl, unlisted, ?_, stopped⟩
    rw [← keeps.contains_iff, Bool.not_eq_true] at unlisted
    simp [Option.filter, unlisted]
  · right
    refine ⟨?_, answered, moved⟩
    cases gone with
    | none => rfl
    | some old =>
        have known := (keeps.contains_iff old).mpr (listed old rfl)
        simp [Option.filter, known]

/-- A record is committed whose letter has no stored form. -/
def fallenBehind : FiledCabinet :=
  (blank (fun _ => none) 0).after
    (.create { id := 1, letter := '😀' } false)

theorem reachable_fallenBehind : fallenBehind.Reachable :=
  (Reachable.opened (.empty _ 0) (ofFile_nil (fun _ => none) 0)).changed _

end FiledCabinet

end Cardfile
