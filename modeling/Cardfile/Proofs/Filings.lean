import Cardfile.Proofs.FiledChanges
import Cardfile.Proofs.Storage.RecordFile

/-!
# Filings

A change that a cabinet carries out asks its file for some filings: to write a
record that was committed, or to bury an id that was given up.  As long as all
written records have a stored form, the file does as it is asked, so that its
roll is known from the changes of the cabinet alone.
-/

namespace Cardfile

/-- What a cabinet asks of its file. -/
inductive Filing where
  | write (record : Record)
  | bury (id : RecordId)

/-- Writes a record, once the id that was given up for it is buried. -/
def Filing.move (gone : Option RecordId) (record : Record) : List Filing :=
  match gone with
  | none => [.write record]
  | some old => [.bury old, .write record]

theorem Filing.write_mem_move (gone : Option RecordId) (record : Record) :
    .write record ∈ Filing.move gone record := by
  cases gone <;> simp [Filing.move]

theorem Filing.bury_mem_move {gone : Option RecordId} {record : Record}
    {old : RecordId} :
    .bury old ∈ Filing.move gone record ↔ gone = some old := by
  cases gone <;> simp [Filing.move, eq_comm]

/-- The record that a filing writes. -/
def Filing.written? : Filing → Option Record
  | .write record => some record
  | .bury _ => none

theorem Filing.written?_eq_some {filing : Filing} {record : Record} :
    filing.written? = some record ↔ filing = .write record := by
  cases filing <;> simp [written?]

/-- What the steps of a run leave behind, one after the other. -/
def trail (step : σ → α → σ) (emit : σ → α → List β) : σ → List α → List β
  | _, [] => []
  | state, item :: items =>
      emit state item ++ trail step emit (step state item) items

theorem mem_trail {step : σ → α → σ} {emit : σ → α → List β} {state : σ}
    {items : List α} {left : β} (member : left ∈ trail step emit state items) :
    ∃ reached, ∃ item ∈ items, left ∈ emit reached item := by
  induction items generalizing state with
  | nil => cases member
  | cons item items ih =>
      rcases List.mem_append.mp member with here | later
      · exact ⟨state, item, List.mem_cons_self, here⟩
      · obtain ⟨reached, other, listed, there⟩ := ih later
        exact ⟨reached, other, List.mem_cons_of_mem _ listed, there⟩

theorem trail_append (step : σ → α → σ) (emit : σ → α → List β)
    (state : σ) (earlier later : List α) :
    trail step emit state (earlier ++ later) =
      trail step emit state earlier ++
        trail step emit (earlier.foldl step state) later := by
  induction earlier generalizing state with
  | nil => rfl
  | cons item earlier ih =>
      rw [List.cons_append, trail, ih, trail, List.append_assoc,
        List.foldl_cons]

theorem trail_single (step : σ → α → σ) (leave : α → β) (state : σ)
    (items : List α) :
    trail step (fun _ item => [leave item]) state items =
      items.map leave := by
  induction items generalizing state with
  | nil => rfl
  | cons item items ih => rw [trail, ih, List.map_cons, List.singleton_append]

namespace Cabinet

/-- The filings of a creation.  A record that is replaced under its own id is
buried first. -/
def createFilings (cabinet : Cabinet) (record : Record) (freshId : Bool) :
    List Filing :=
  match (cabinet.create record freshId).1 with
  | .error _ => []
  | .ok id =>
      Filing.move
        (if !freshId && (cabinet.get? record.id).isSome then some id else none)
        (cabinet.entrant record freshId)

/-- The filings of an edit.  The old id is buried if there is a new one. -/
def editFilings (change : Record → Record) (cabinet : Cabinet)
    (id : RecordId) : List Filing :=
  match cabinet.get? id, (cabinet.edit id change).1 with
  | some previous, .ok () =>
      Filing.move (if (change previous).id != id then some id else none)
        (change previous)
  | _, _ => []

/-- The filings of a deletion. -/
def deleteFilings (cabinet : Cabinet) (id : RecordId) : List Filing :=
  match (cabinet.delete id).1 with
  | .ok () => [.bury id]
  | .error _ => []

/-- The filings of a change. -/
def filings (cabinet : Cabinet) : Change → List Filing
  | .create record freshId => cabinet.createFilings record freshId
  | .edit id change => cabinet.editFilings change id
  | .delete id => cabinet.deleteFilings id
  | .updateWhere test change =>
      trail (fun cabinet id => (cabinet.edit id change).2)
        (editFilings change) cabinet (cabinet.matching test)
  | .deleteWhere test =>
      trail (fun cabinet id => (cabinet.delete id).2) deleteFilings cabinet
        (cabinet.matching test)
  | .restore records => records.map .write

end Cabinet

namespace Storage

/-- A record that a slot can hold. -/
def Encodes (record : Record) : Prop := ∃ slot, encode record 0 = .ok slot

theorem encodes_iff (record : Record) :
    Encodes record ↔ ∃ form, stored? record = some form := by
  constructor
  · rintro ⟨slot, encoded⟩
    cases result : stored? record with
    | some form => exact ⟨form, rfl⟩
    | none =>
        obtain ⟨fault, failed⟩ := encode_of_not_stored? 0 result
        rw [failed] at encoded
        cases encoded
  · rintro ⟨form, result⟩
    exact ⟨_, encode_of_stored? 0 result⟩

theorem encodes_idOnly (id : RecordId) : Encodes { id := id } :=
  (encodes_iff _).mpr ⟨{ id := id }, rfl⟩

instance (record : Record) : Decidable (Encodes record) :=
  decidable_of_iff ((stored? record).isSome = true)
    (Option.isSome_iff_exists.trans (encodes_iff record).symm)

/-- Every record that is written can be encoded. -/
def Writable (filings : List Filing) : Prop :=
  ∀ record, .write record ∈ filings → Encodes record

instance (filings : List Filing) : Decidable (Writable filings) :=
  decidable_of_iff
    (∀ record ∈ filings.filterMap Filing.written?, Encodes record) <| by
      simp only [Writable, List.mem_filterMap, Filing.written?_eq_some]
      simp

theorem Writable.append {first second : List Filing}
    (writable : Writable (first ++ second)) :
    Writable first ∧ Writable second :=
  ⟨fun record member => writable record (List.mem_append_left _ member),
    fun record member => writable record (List.mem_append_right _ member)⟩

/-- The roll after a filing. -/
def Roll.refile (roll : List Record) : Filing → List Record
  | .write record =>
      match stored? record with
      | some form => put roll form
      | none => roll
  | .bury id => strike roll id

theorem Roll.refile_write (roll : List Record) {record form : Record}
    (result : stored? record = some form) :
    refile roll (.write record) = put roll form := by
  simp only [refile, result]

theorem Roll.find?_refile_write (roll : List Record) {record form : Record}
    (result : stored? record = some form) :
    find? (refile roll (.write record)) record.id = some form := by
  rw [refile_write roll result, find?_put, if_pos (id_of_stored? result)]

theorem Roll.find?_refile_write_of_ne (roll : List Record)
    {record : Record} {id : RecordId} (different : record.id ≠ id) :
    find? (refile roll (.write record)) id = find? roll id := by
  cases result : stored? record with
  | none => simp only [refile, result]
  | some form =>
      rw [refile_write roll result, find?_put, id_of_stored? result,
        if_neg different]

/-- A move touches the record that it writes and the one that it buries. -/
theorem Roll.find?_move_of_ne (roll : List Record) (gone : Option RecordId)
    {record : Record} {id : RecordId} (different : record.id ≠ id) :
    find? ((Filing.move gone record).foldl refile roll) id =
      if gone = some id then none else find? roll id := by
  cases gone with
  | none => exact find?_refile_write_of_ne roll different
  | some old =>
      have written := find?_refile_write_of_ne (strike roll old) different
      rw [find?_strike] at written
      simpa [Filing.move, refile] using written

theorem Roll.find?_move (roll : List Record) (gone : Option RecordId)
    {record form : Record} (result : stored? record = some form) :
    find? ((Filing.move gone record).foldl refile roll) record.id =
      some form := by
  cases gone with
  | none => exact find?_refile_write roll result
  | some old => exact find?_refile_write (strike roll old) result

theorem Roll.refile_move_none (roll : List Record) {record form : Record}
    (result : stored? record = some form) :
    (Filing.move none record).foldl refile roll = put roll form :=
  refile_write roll result

theorem Roll.refile_move_some (roll : List Record) (old : RecordId)
    {record form : Record} (result : stored? record = some form) :
    (Filing.move (some old) record).foldl refile roll =
      put (strike roll old) form :=
  refile_write (strike roll old) result

end Storage

end Cardfile
