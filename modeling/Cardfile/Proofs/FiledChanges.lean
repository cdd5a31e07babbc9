import Cardfile.Store
import Cardfile.Proofs.Changes

/-!
# Changes of a store

A cabinet with a file, and a store around it, take the same changes as a
cabinet.  Whatever happens to the file, the cabinet inside changes exactly as
it would alone.
-/

namespace Cardfile

namespace FiledCabinet

/-- The filed cabinet after a change, carried out or not. -/
def after (filed : FiledCabinet) : Change → FiledCabinet
  | .create record freshId => (filed.create record freshId).2
  | .edit id change => (filed.edit id change).2
  | .delete id => (filed.delete id).2
  | .updateWhere test change => (filed.updateWhere test change).2
  | .deleteWhere test => (filed.deleteWhere test).2
  | .restore records => (filed.restore records).2

@[simp]
theorem cabinet_follow (filed : FiledCabinet) (id : RecordId) :
    (filed.follow id).2.cabinet = filed.cabinet := by
  simp only [follow]
  cases filed.cabinet.get? id with
  | none => rfl
  | some record => rfl

@[simp]
theorem cabinet_bury (filed : FiledCabinet) (id : RecordId) :
    (filed.bury id).2.cabinet = filed.cabinet := rfl

@[simp]
theorem cabinet_buryAndFollow (filed : FiledCabinet)
    (gone : Option RecordId) (id : RecordId) :
    (filed.buryAndFollow gone id).2.cabinet = filed.cabinet := by
  cases gone with
  | none => exact cabinet_follow filed id
  | some old =>
      have kept := cabinet_bury filed old
      simp only [buryAndFollow]
      generalize filed.bury old = result at kept ⊢
      obtain ⟨outcome, buried⟩ := result
      cases outcome with
      | error fault => exact kept
      | ok => exact (cabinet_follow buried id).trans kept

theorem cabinet_create (filed : FiledCabinet) (record : Record)
    (freshId : Bool) :
    (filed.create record freshId).2.cabinet =
      (filed.cabinet.create record freshId).2 := by
  simp only [create]
  rcases filed.cabinet.create record freshId with ⟨outcome, cabinet⟩
  cases outcome with
  | error fault => rfl
  | ok id => simp

theorem cabinet_edit (filed : FiledCabinet) (id : RecordId)
    (change : Record → Record) :
    (filed.edit id change).2.cabinet = (filed.cabinet.edit id change).2 := by
  simp only [edit]
  cases present : filed.cabinet.get? id with
  | none => simp [Cabinet.edit, present]
  | some record =>
      simp only
      rcases filed.cabinet.edit id change with ⟨outcome, cabinet⟩
      cases outcome with
      | error fault => rfl
      | ok => simp

theorem cabinet_delete (filed : FiledCabinet) (id : RecordId) :
    (filed.delete id).2.cabinet = (filed.cabinet.delete id).2 := by
  simp only [delete]
  rcases filed.cabinet.delete id with ⟨outcome, cabinet⟩
  cases outcome with
  | error fault => rfl
  | ok => rfl

theorem updateWhere_snd (filed : FiledCabinet) (test : Record → Bool)
    (change : Record → Record) :
    (filed.updateWhere test change).2 =
      (filed.matching test).foldl
        (fun filed id => (filed.edit id change).2) filed :=
  Cabinet.snd_foldl (fun _ _ _ => rfl) (filed.matching test) 0 filed

/-- A filed cabinet goes through the records that it lists, and a cabinet
through the ids of its list. -/
theorem matching_eq {filed : FiledCabinet}
    (consistent : filed.cabinet.Consistent) (test : Record → Bool) :
    filed.matching test = filed.cabinet.matching test :=
  consistent.map_id_filter_records test

theorem cabinet_foldl {step : FiledCabinet → α → FiledCabinet}
    {inner : Cabinet → α → Cabinet}
    (follows : ∀ filed item,
      (step filed item).cabinet = inner filed.cabinet item)
    (items : List α) (filed : FiledCabinet) :
    (items.foldl step filed).cabinet = items.foldl inner filed.cabinet := by
  induction items generalizing filed with
  | nil => rfl
  | cons item items ih =>
      simp only [List.foldl_cons]
      rw [ih, follows]

/-- Takes over one record of a list. -/
def takeOver (filed : FiledCabinet) (record : Record) : FiledCabinet where
  cabinet := filed.cabinet.merge record
  file := (filed.file.write record).2

theorem file_restore (filed : FiledCabinet) (records : List Record) :
    (filed.restore records).2.file = (records.foldl takeOver filed).file := by
  suffices aside : ∀ start : FiledCabinet,
      records.foldl (fun file record => (file.write record).2) start.file =
        (records.foldl takeOver start).file by
    exact aside filed
  induction records with
  | nil =>
      intro start
      rfl
  | cons record records ih =>
      intro start
      exact ih (start.takeOver record)

/-- The file does not disturb the cabinet. -/
theorem cabinet_after {filed : FiledCabinet}
    (consistent : filed.cabinet.Consistent) (change : Change) :
    (filed.after change).cabinet = filed.cabinet.after change := by
  cases change with
  | create record freshId => exact filed.cabinet_create record freshId
  | edit id change => exact filed.cabinet_edit id change
  | delete id => exact filed.cabinet_delete id
  | updateWhere test change =>
      simp only [after, Cabinet.after, updateWhere_snd,
        Cabinet.updateWhere_snd, matching_eq consistent]
      exact cabinet_foldl (fun filed id => filed.cabinet_edit id change) _ _
  | deleteWhere test =>
      simp only [after, Cabinet.after, deleteWhere, Cabinet.deleteWhere,
        matching_eq consistent]
      exact cabinet_foldl (fun filed id => filed.cabinet_delete id) _ _
  | restore records => rfl

theorem cabinet_foldl_after {filed : FiledCabinet}
    (consistent : filed.cabinet.Consistent) (changes : List Change) :
    (changes.foldl after filed).cabinet =
      changes.foldl Cabinet.after filed.cabinet := by
  induction changes generalizing filed with
  | nil => rfl
  | cons change changes ih =>
      have next := cabinet_after consistent change
      rw [List.foldl_cons, List.foldl_cons, ← next]
      apply ih
      rw [next]
      exact consistent.after change

theorem edit_advances (filed : FiledCabinet) (id : RecordId)
    (change : Record → Record) :
    filed.cabinet.Advances (filed.edit id change).2.cabinet := by
  rw [cabinet_edit]
  exact filed.cabinet.edit_advances id change

theorem delete_advances (filed : FiledCabinet) (id : RecordId) :
    filed.cabinet.Advances (filed.delete id).2.cabinet := by
  rw [cabinet_delete]
  exact filed.cabinet.delete_advances id

theorem foldl_advances {step : FiledCabinet → α → FiledCabinet}
    (advances : ∀ (filed : FiledCabinet) item,
      filed.cabinet.Advances (step filed item).cabinet)
    (items : List α) (filed : FiledCabinet) :
    filed.cabinet.Advances (items.foldl step filed).cabinet := by
  induction items generalizing filed with
  | nil => exact .refl filed.cabinet
  | cons item items ih => exact (advances filed item).trans (ih _)

theorem after_advances (filed : FiledCabinet) (change : Change) :
    filed.cabinet.Advances (filed.after change).cabinet := by
  cases change with
  | create record freshId =>
      rw [after, cabinet_create]
      exact filed.cabinet.create_advances record freshId
  | edit id change => exact filed.edit_advances id change
  | delete id => exact filed.delete_advances id
  | updateWhere test change =>
      rw [after, updateWhere_snd]
      exact foldl_advances (fun filed id => filed.edit_advances id change) _ _
  | deleteWhere test =>
      exact foldl_advances (fun filed id => filed.delete_advances id) _ _
  | restore records => exact filed.cabinet.restore_advances records

end FiledCabinet

namespace Store

/-- The store after a change, carried out or not. -/
def after (store : Store) : Change → Store
  | .create record freshId => (store.create record freshId).2
  | .edit id change => (store.edit id change).2
  | .delete id => (store.delete id).2
  | .updateWhere test change => (store.updateWhere test change).2
  | .deleteWhere test => (store.deleteWhere test).2
  | .restore records => (store.restore records).2

theorem after_memory (cabinet : Cabinet) (change : Change) :
    (memory cabinet).after change = .memory (cabinet.after change) := by
  cases change <;> rfl

theorem after_onFile (filed : FiledCabinet) (change : Change) :
    (onFile filed).after change = .onFile (filed.after change) := by
  cases change <;> rfl

theorem after_watched (journal : List ChangeKind) (store : Store)
    (change : Change) :
    ∃ noted, (watched journal store).after change =
      .watched noted (store.after change) := by
  cases change <;> exact ⟨_, rfl⟩

/-- Every store reads as a cabinet that takes the same changes. -/
theorem cabinet_after {store : Store} (consistent : store.cabinet.Consistent)
    (change : Change) :
    (store.after change).cabinet = store.cabinet.after change := by
  induction store with
  | memory cabinet =>
      rw [after_memory]
      rfl
  | onFile filed =>
      rw [after_onFile]
      exact FiledCabinet.cabinet_after consistent change
  | watched journal store ih =>
      obtain ⟨noted, carried⟩ := after_watched journal store change
      rw [carried]
      exact ih consistent

theorem after_advances (store : Store) (change : Change) :
    store.cabinet.Advances (store.after change).cabinet := by
  induction store with
  | memory cabinet =>
      rw [after_memory]
      exact cabinet.after_advances change
  | onFile filed =>
      rw [after_onFile]
      exact filed.after_advances change
  | watched journal store ih =>
      obtain ⟨noted, carried⟩ := after_watched journal store change
      rw [carried]
      exact ih

end Store

end Cardfile
