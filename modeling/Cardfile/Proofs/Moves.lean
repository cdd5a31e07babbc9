import Cardfile.Proofs.Filings

/-!
# Moves

A cabinet that commits a record may give up an id for it.  The file then moves
the record: it buries the slot of this id and writes the record.  It stops at
the first fault, so that a record whose old slot is missing is not written.
-/

namespace Cardfile

open Storage

namespace Cabinet

/-- A cabinet commits a record, and gives an id up for it or none. -/
structure Commits (before : Cabinet) (gone : Option RecordId)
    (record : Record) (after : Cabinet) : Prop where
  consistent : after.Consistent
  known : ∀ old ∈ gone, (before.get? old).isSome
  room : ∀ old ∈ gone, old = record.id ∨ before.get? record.id = none
  get? : ∀ id, after.get? id =
    if record.id = id then some record
    else if gone = some id then none else before.get? id

theorem Commits.get?_self {before after : Cabinet} {gone : Option RecordId}
    {record : Record} (commits : before.Commits gone record after) :
    after.get? record.id = some record := by
  rw [commits.get?, if_pos rfl]

/-- The id that a creation gives up: that of the record it replaces. -/
def replaced? (cabinet : Cabinet) (record : Record) (freshId : Bool) :
    Option RecordId :=
  if !freshId && (cabinet.get? record.id).isSome then
    some (cabinet.entrant record freshId).id
  else none

/-- The id that an edit gives up, if the record gets another one. -/
def renamed? (id : RecordId) (record : Record) : Option RecordId :=
  if record.id != id then some id else none

namespace Consistent

variable {cabinet : Cabinet}

theorem commits_place (consistent : cabinet.Consistent) (record : Record)
    (freshId : Bool) :
    cabinet.Commits (cabinet.replaced? record freshId)
      (cabinet.entrant record freshId)
      (cabinet.place (cabinet.entrant record freshId)).revised := by
  have same : ∀ old ∈ cabinet.replaced? record freshId,
      old = (cabinet.entrant record freshId).id ∧
        (cabinet.get? old).isSome := by
    intro old member
    simp only [replaced?] at member
    split at member
    · next replaces =>
        cases member
        simp only [Bool.and_eq_true, Bool.not_eq_true'] at replaces
        refine ⟨rfl, ?_⟩
        simpa [entrant, replaces.1] using replaces.2
    · cases member
  constructor
  · exact (consistent.place _).revised
  · exact fun old member => (same old member).2
  · exact fun old member => .inl (same old member).1
  · intro id
    rw [get?_revised, consistent.get?_place]
    split
    · rfl
    · next different =>
        rw [if_neg]
        intro given
        exact different (same id given).1.symm

theorem commits_replace (consistent : cabinet.Consistent) {id : RecordId}
    {previous record : Record} (present : cabinet.get? id = some previous)
    (room : record.id = id ∨ cabinet.get? record.id = none) :
    cabinet.Commits (renamed? id record) record
      (cabinet.replace previous record).revised := by
  have own := consistent.ownId id previous present
  constructor
  · exact (consistent.replace (consistent.get?_id present)
      (own ▸ room)).revised
  · intro old member
    simp only [renamed?] at member
    split at member
    · cases member
      rw [present]
      rfl
    · cases member
  · intro old member
    simp only [renamed?] at member
    split at member
    · next different =>
        cases member
        rw [bne_iff_ne] at different
        exact .inr (room.resolve_left different)
    · cases member
  · intro other
    rw [get?_revised, get?_replace, own]
    split
    · rfl
    · next unwanted =>
        by_cases same : id = other
        · subst other
          simp [renamed?, unwanted]
        · simp [renamed?, same]

end Consistent

end Cabinet

namespace FiledCabinet

variable {filed : FiledCabinet}

/-- A creation is refused and changes nothing, or the record is committed and
the file moves it. -/
theorem create_cases (consistent : filed.cabinet.Consistent)
    (record : Record) (freshId : Bool) :
    (∃ holder reason,
      filed.cabinet.create record freshId =
        (.error (.rejected holder reason), filed.cabinet) ∧
      filed.create record freshId =
        (.error (.rejected holder reason), filed)) ∨
    (∃ gone kept after, filed.cabinet.Commits gone kept after ∧
      filed.cabinet.create record freshId = (.ok kept.id, after) ∧
      filed.cabinet.createFilings record freshId = Filing.move gone kept ∧
      filed.create record freshId =
        (({ filed with cabinet := after }.buryAndFollow gone kept.id).1.map
            fun () => kept.id,
          ({ filed with cabinet := after }.buryAndFollow gone kept.id).2)) := by
  rcases filed.cabinet.create_cases record freshId with
    ⟨reason, _, failed⟩ | ⟨_, entered⟩
  · left
    exact ⟨_, _, failed, by simp only [create, failed]⟩
  · right
    refine ⟨_, _, _, consistent.commits_place record freshId, entered, ?_, ?_⟩
    · simp only [Cabinet.createFilings, entered, Cabinet.replaced?]
    · simp only [create, entered, Cabinet.replaced?]

/-- So is an edit, unless there is no record with the id. -/
theorem edit_cases (consistent : filed.cabinet.Consistent) (id : RecordId)
    (change : Record → Record) :
    (filed.cabinet.get? id = none ∧
      filed.cabinet.edit id change = (.error (.absent id), filed.cabinet) ∧
      filed.edit id change = (.error (.absent id), filed)) ∨
    (∃ previous holder reason, filed.cabinet.get? id = some previous ∧
      filed.cabinet.edit id change =
        (.error (.rejected holder reason), filed.cabinet) ∧
      filed.edit id change = (.error (.rejected holder reason), filed)) ∨
    (∃ previous after, filed.cabinet.get? id = some previous ∧
      filed.cabinet.Commits (Cabinet.renamed? id (change previous))
        (change previous) after ∧
      filed.cabinet.edit id change = (.ok (), after) ∧
      filed.cabinet.editFilings change id =
        Filing.move (Cabinet.renamed? id (change previous))
          (change previous) ∧
      filed.edit id change =
        { filed with cabinet := after }.buryAndFollow
          (Cabinet.renamed? id (change previous)) (change previous).id) := by
  rcases filed.cabinet.edit_cases id change with
    ⟨absent, failed⟩ | ⟨previous, holder, reason, present, failed⟩ |
    ⟨previous, present, _, room, edited⟩
  · left
    exact ⟨absent, failed, by simp only [edit, absent]⟩
  · right
    left
    exact ⟨previous, holder, reason, present, failed, by
      simp only [edit, present, failed]⟩
  · right
    right
    refine ⟨previous, _, present, consistent.commits_replace present room,
      edited, ?_, ?_⟩
    · simp only [Cabinet.editFilings, present, edited, Cabinet.renamed?]
    · simp only [edit, present, edited, Cabinet.renamed?]

theorem delete_cases (filed : FiledCabinet) (id : RecordId) :
    (filed.cabinet.get? id = none ∧
      filed.cabinet.deleteFilings id = [] ∧
      filed.delete id = (.error (.absent id), filed)) ∨
    (∃ record, filed.cabinet.get? id = some record ∧
      filed.cabinet.deleteFilings id = [.bury id] ∧
      filed.delete id =
        { filed with
          cabinet := (filed.cabinet.discard record).revised }.bury id) := by
  rcases filed.cabinet.delete_cases id with
    ⟨absent, failed⟩ | ⟨record, present, deleted⟩
  · left
    refine ⟨absent, ?_, ?_⟩
    · simp only [Cabinet.deleteFilings, failed]
    · simp only [delete, failed]
  · right
    refine ⟨record, present, ?_, ?_⟩
    · simp only [Cabinet.deleteFilings, deleted]
    · simp only [delete, deleted]

end FiledCabinet

namespace RecordFile.Keeps

variable {file : RecordFile} {roll hidden : List Record}

theorem refile_write (keeps : file.Keeps roll hidden) (record : Record) :
    (file.write record).2.Keeps (Roll.refile roll (.write record))
      hidden := by
  cases result : stored? record with
  | some form =>
      rw [Roll.refile_write roll result]
      exact (keeps.write result).2
  | none =>
      obtain ⟨fault, failed⟩ := encode_of_not_stored? 0 result
      simp only [Roll.refile, result, RecordFile.write, failed]
      exact keeps

end RecordFile.Keeps

namespace FiledCabinet

variable {filed : FiledCabinet} {roll hidden : List Record}

/-- The file stops if there is no slot to bury, and otherwise answers what it
answers to the record. -/
theorem buryAndFollow_cases (keeps : filed.file.Keeps roll hidden)
    {record : Record}
    (present : filed.cabinet.get? record.id = some record)
    (gone : Option RecordId) :
    (∃ old, gone = some old ∧ old ∉ Roll.ids roll ∧
      filed.buryAndFollow gone record.id = (.error (.absent old), filed)) ∨
    ((∀ old ∈ gone, old ∈ Roll.ids roll) ∧
      (filed.buryAndFollow gone record.id).1 = RecordFile.reply record ∧
      (filed.buryAndFollow gone record.id).2.file.Keeps
        ((Filing.move gone record).foldl Roll.refile roll) hidden) := by
  have follows : ∀ {start : FiledCabinet} {others : List Record},
      start.cabinet = filed.cabinet → start.file.Keeps others hidden →
      (start.follow record.id).1 = RecordFile.reply record ∧
        (start.follow record.id).2.file.Keeps
          (Roll.refile others (.write record)) hidden := by
    intro start others same keeps
    simp only [follow, same, present]
    exact ⟨start.file.fst_write record, keeps.refile_write record⟩
  cases gone with
  | none =>
      right
      exact ⟨by simp, follows rfl keeps⟩
  | some old =>
      by_cases listed : old ∈ Roll.ids roll
      · right
        obtain ⟨outcome, buried⟩ := keeps.tombstone listed
        simp only [buryAndFollow, bury]
        generalize filed.file.tombstone old = struck at outcome buried ⊢
        obtain ⟨_, file⟩ := struck
        cases outcome
        refine ⟨by simpa using listed, ?_⟩
        exact @follows ⟨filed.cabinet, file⟩ _ rfl buried
      · left
        refine ⟨old, rfl, listed, ?_⟩
        simp only [buryAndFollow, bury, keeps.tombstone_absent listed]

end FiledCabinet

end Cardfile
