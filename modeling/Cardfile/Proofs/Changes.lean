import Cardfile.Proofs.Cabinet

/-!
# Changes of a cabinet

The six ways to change a cabinet as data, so that a run is a list of changes.
Each single change either leaves the cabinet as it was or carries out one
step; a batch is a row of single changes.  What every step keeps, a whole run
keeps.
-/

namespace Cardfile

/-- A change that a cabinet can be asked for. -/
inductive Change where
  | create (record : Record) (freshId : Bool)
  | edit (id : RecordId) (change : Record → Record)
  | delete (id : RecordId)
  | updateWhere (test : Record → Bool) (change : Record → Record)
  | deleteWhere (test : Record → Bool)
  | restore (records : List Record)

namespace Cabinet

/-- The cabinet after a change, carried out or not. -/
def after (cabinet : Cabinet) : Change → Cabinet
  | .create record freshId => (cabinet.create record freshId).2
  | .edit id change => (cabinet.edit id change).2
  | .delete id => (cabinet.delete id).2
  | .updateWhere test change => (cabinet.updateWhere test change).2
  | .deleteWhere test => (cabinet.deleteWhere test).2
  | .restore records => (cabinet.restore records).2

/-- The record that a creation enters, under the id it gets. -/
def entrant (cabinet : Cabinet) (record : Record) (freshId : Bool) :
    Record :=
  if freshId then { record with id := cabinet.nextId } else record

theorem create_cases (cabinet : Cabinet) (record : Record)
    (freshId : Bool) :
    (∃ reason,
      cabinet.validator (cabinet.entrant record freshId) = some reason ∧
      cabinet.create record freshId =
        (.error (.rejected (cabinet.entrant record freshId).id reason),
          cabinet)) ∨
    (cabinet.validator (cabinet.entrant record freshId) = none ∧
      cabinet.create record freshId =
        (.ok (cabinet.entrant record freshId).id,
          (cabinet.place (cabinet.entrant record freshId)).revised)) := by
  cases verdict : cabinet.validator (cabinet.entrant record freshId) with
  | none =>
      right
      refine ⟨rfl, ?_⟩
      simp only [entrant] at verdict ⊢
      simp [create, validate, verdict]
  | some reason =>
      left
      refine ⟨reason, rfl, ?_⟩
      simp only [entrant] at verdict ⊢
      simp [create, validate, verdict]

theorem edit_cases (cabinet : Cabinet) (id : RecordId)
    (change : Record → Record) :
    (cabinet.get? id = none ∧
      cabinet.edit id change = (.error (.absent id), cabinet)) ∨
    (∃ previous holder reason, cabinet.get? id = some previous ∧
      cabinet.edit id change =
        (.error (.rejected holder reason), cabinet)) ∨
    (∃ previous, cabinet.get? id = some previous ∧
      cabinet.validator (change previous) = none ∧
      ((change previous).id = id ∨
        cabinet.get? (change previous).id = none) ∧
      cabinet.edit id change =
        (.ok (), (cabinet.replace previous (change previous)).revised)) := by
  cases present : cabinet.get? id with
  | none => exact .inl ⟨rfl, by simp [edit, present]⟩
  | some previous =>
      right
      cases verdict : cabinet.validator (change previous) with
      | some reason =>
          exact .inl ⟨previous, (change previous).id, reason, rfl, by
            simp [edit, present, validate, verdict]⟩
      | none =>
          by_cases taken : (change previous).id != id &&
              cabinet.kept.contains (change previous).id
          · exact .inl ⟨previous, id, .idTaken (change previous).id, rfl, by
              simp only [edit, present, validate, verdict, if_pos taken]⟩
          · refine .inr ⟨previous, rfl, verdict, ?_, by
              simp only [edit, present, validate, verdict, if_neg taken]⟩
            by_cases same : (change previous).id = id
            · exact .inl same
            · right
              have free : (change previous).id ∉ cabinet.kept := by
                simpa [same] using taken
              exact Std.TreeMap.getElem?_eq_none free

theorem delete_cases (cabinet : Cabinet) (id : RecordId) :
    (cabinet.get? id = none ∧
      cabinet.delete id = (.error (.absent id), cabinet)) ∨
    (∃ record, cabinet.get? id = some record ∧
      cabinet.delete id = (.ok (), (cabinet.discard record).revised)) := by
  cases present : cabinet.get? id with
  | none => exact .inl ⟨rfl, by simp [delete, present]⟩
  | some record => exact .inr ⟨record, rfl, by simp [delete, present]⟩

theorem snd_foldl {step : Nat × σ → α → Nat × σ} {inner : σ → α → σ}
    (follows : ∀ count state item,
      (step (count, state) item).2 = inner state item)
    (items : List α) (count : Nat) (state : σ) :
    (items.foldl step (count, state)).2 = items.foldl inner state := by
  induction items generalizing count state with
  | nil => rfl
  | cons item items ih =>
      rw [List.foldl_cons, List.foldl_cons, ← follows count state item]
      exact ih _ _

theorem updateWhere_snd (cabinet : Cabinet) (test : Record → Bool)
    (change : Record → Record) :
    (cabinet.updateWhere test change).2 =
      (cabinet.matching test).foldl
        (fun cabinet id => (cabinet.edit id change).2) cabinet := by
  refine snd_foldl ?_ (cabinet.matching test) 0 cabinet
  intro count start id
  simp only
  rcases start.edit id change with ⟨outcome, next⟩
  cases outcome with
  | ok => rfl
  | error => rfl

theorem restore_snd (cabinet : Cabinet) (records : List Record) :
    (cabinet.restore records).2 =
      if records.isEmpty then cabinet
      else (records.foldl merge cabinet).revised := by
  cases records with
  | nil => rfl
  | cons record records => rfl

@[simp]
theorem get?_restore (cabinet : Cabinet) (records : List Record)
    (id : RecordId) :
    (cabinet.restore records).2.get? id =
      (records.foldl merge cabinet).get? id := by
  cases records with
  | nil => rfl
  | cons record records => rfl

@[simp]
theorem order_restore (cabinet : Cabinet) (records : List Record) :
    (cabinet.restore records).2.order =
      (records.foldl merge cabinet).order := by
  cases records with
  | nil => rfl
  | cons record records => rfl

namespace Consistent

variable {cabinet : Cabinet}

theorem create (consistent : cabinet.Consistent) (record : Record)
    (freshId : Bool) : (cabinet.create record freshId).2.Consistent := by
  rcases cabinet.create_cases record freshId with
    ⟨_, _, failed⟩ | ⟨_, entered⟩
  · rw [failed]
    exact consistent
  · rw [entered]
    exact (consistent.place _).revised

theorem edit (consistent : cabinet.Consistent) (id : RecordId)
    (change : Record → Record) :
    (cabinet.edit id change).2.Consistent := by
  rcases cabinet.edit_cases id change with
    ⟨_, failed⟩ | ⟨_, _, _, _, failed⟩ | ⟨previous, present, _, room, edited⟩
  · rw [failed]
    exact consistent
  · rw [failed]
    exact consistent
  · rw [edited]
    have own := consistent.ownId id previous present
    exact (consistent.replace (consistent.get?_id present)
      (own ▸ room)).revised

theorem delete (consistent : cabinet.Consistent) (id : RecordId) :
    (cabinet.delete id).2.Consistent := by
  rcases cabinet.delete_cases id with
    ⟨_, failed⟩ | ⟨record, present, deleted⟩
  · rw [failed]
    exact consistent
  · rw [deleted]
    exact (consistent.discard (consistent.get?_id present)).revised

theorem after (consistent : cabinet.Consistent) (change : Change) :
    (cabinet.after change).Consistent := by
  cases change with
  | create record freshId => exact consistent.create record freshId
  | edit id change => exact consistent.edit id change
  | delete id => exact consistent.delete id
  | updateWhere test change =>
      simp only [Cabinet.after, updateWhere_snd]
      exact List.foldlRecOn _ _ consistent
        fun _ intermediate id _ => intermediate.edit id change
  | deleteWhere test =>
      exact List.foldlRecOn _ _ consistent
        fun _ intermediate id _ => intermediate.delete id
  | restore records =>
      simp only [Cabinet.after, restore_snd]
      split
      · exact consistent
      · exact (List.foldlRecOn (motive := Consistent) records _ consistent
          fun _ intermediate record _ => intermediate.merge record).revised

theorem foldl_after (consistent : cabinet.Consistent)
    (changes : List Change) :
    (changes.foldl Cabinet.after cabinet).Consistent :=
  List.foldlRecOn changes _ consistent
    fun _ intermediate change _ => intermediate.after change

end Consistent

/-- Every cabinet that changes lead to from an empty one is consistent, and so
it passes its own check. -/
theorem consistent_of_changes (validator : Validator) (serial : Nat)
    (changes : List Change) :
    let cabinet := changes.foldl after (empty validator serial)
    cabinet.Consistent ∧ cabinet.verify = .ok () := by
  have consistent :=
    (Consistent.empty validator serial).foldl_after changes
  exact ⟨consistent, consistent.verify_eq_ok⟩

/-- Two cabinets agree in what is not about records. -/
structure SameStanding (left right : Cabinet) : Prop where
  serial : right.serial = left.serial
  validator : right.validator = left.validator
  revision : right.revision = left.revision

theorem SameStanding.trans {first second third : Cabinet}
    (earlier : SameStanding first second)
    (later : SameStanding second third) : SameStanding first third :=
  ⟨later.serial.trans earlier.serial,
    later.validator.trans earlier.validator,
    later.revision.trans earlier.revision⟩

theorem sameStanding_place (cabinet : Cabinet) (record : Record) :
    SameStanding cabinet (cabinet.place record) := by
  simp only [place]
  cases cabinet.get? record.id with
  | none => exact ⟨rfl, rfl, rfl⟩
  | some previous => exact ⟨rfl, rfl, rfl⟩

theorem sameStanding_merge (cabinet : Cabinet) (record : Record) :
    SameStanding cabinet (cabinet.merge record) := by
  simp only [merge]
  cases cabinet.get? record.id with
  | none => exact cabinet.sameStanding_place record
  | some previous => exact ⟨rfl, rfl, rfl⟩

theorem sameStanding_foldl_merge (cabinet : Cabinet)
    (records : List Record) :
    SameStanding cabinet (records.foldl merge cabinet) :=
  List.foldlRecOn (motive := SameStanding cabinet) records _
    ⟨rfl, rfl, rfl⟩ fun merged same record _ =>
      same.trans (merged.sameStanding_merge record)

/-- What a change does to the rest of a cabinet: it never goes back in
revisions, and without a new revision nothing has changed. -/
structure Advances (before after : Cabinet) : Prop where
  serial : after.serial = before.serial
  validator : after.validator = before.validator
  grows : before.revision ≤ after.revision
  still : after.revision = before.revision → after = before

namespace Advances

theorem refl (cabinet : Cabinet) : Advances cabinet cabinet :=
  ⟨rfl, rfl, Nat.le_refl _, fun _ => rfl⟩

theorem trans {first second third : Cabinet}
    (earlier : Advances first second) (later : Advances second third) :
    Advances first third where
  serial := later.serial.trans earlier.serial
  validator := later.validator.trans earlier.validator
  grows := Nat.le_trans earlier.grows later.grows
  still := by
    intro same
    have between : second.revision = first.revision := by
      have lower := earlier.grows
      have upper := later.grows
      omega
    rw [later.still (same.trans between.symm), earlier.still between]

theorem of_revised {before changed : Cabinet}
    (same : SameStanding before changed) :
    Advances before changed.revised := by
  have next : changed.revised.revision = before.revision + 1 := by
    rw [← same.revision]
    rfl
  refine ⟨same.serial, same.validator, by omega, ?_⟩
  intro still
  omega

theorem foldl {step : Cabinet → α → Cabinet}
    (advances : ∀ cabinet item, Advances cabinet (step cabinet item))
    (items : List α) (cabinet : Cabinet) :
    Advances cabinet (items.foldl step cabinet) := by
  induction items generalizing cabinet with
  | nil => exact refl cabinet
  | cons item items ih =>
      exact (advances cabinet item).trans (ih (step cabinet item))

end Advances

theorem create_advances (cabinet : Cabinet) (record : Record)
    (freshId : Bool) :
    Advances cabinet (cabinet.create record freshId).2 := by
  rcases cabinet.create_cases record freshId with
    ⟨_, _, failed⟩ | ⟨_, entered⟩
  · rw [failed]
    exact .refl cabinet
  · rw [entered]
    exact .of_revised (cabinet.sameStanding_place _)

theorem edit_advances (cabinet : Cabinet) (id : RecordId)
    (change : Record → Record) :
    Advances cabinet (cabinet.edit id change).2 := by
  rcases cabinet.edit_cases id change with
    ⟨_, failed⟩ | ⟨_, _, _, _, failed⟩ | ⟨previous, _, _, _, edited⟩
  · rw [failed]
    exact .refl cabinet
  · rw [failed]
    exact .refl cabinet
  · rw [edited]
    exact .of_revised ⟨rfl, rfl, rfl⟩

theorem delete_advances (cabinet : Cabinet) (id : RecordId) :
    Advances cabinet (cabinet.delete id).2 := by
  rcases cabinet.delete_cases id with ⟨_, failed⟩ | ⟨record, _, deleted⟩
  · rw [failed]
    exact .refl cabinet
  · rw [deleted]
    exact .of_revised ⟨rfl, rfl, rfl⟩

theorem restore_advances (cabinet : Cabinet) (records : List Record) :
    Advances cabinet (cabinet.restore records).2 := by
  rw [restore_snd]
  split
  · exact .refl cabinet
  · exact .of_revised (cabinet.sameStanding_foldl_merge records)

/-- A cabinet whose revision is the same has not changed. -/
theorem after_advances (cabinet : Cabinet) (change : Change) :
    Advances cabinet (cabinet.after change) := by
  cases change with
  | create record freshId => exact cabinet.create_advances record freshId
  | edit id change => exact cabinet.edit_advances id change
  | delete id => exact cabinet.delete_advances id
  | updateWhere test change =>
      simp only [after, updateWhere_snd]
      exact .foldl (fun cabinet id => cabinet.edit_advances id change) _ _
  | deleteWhere test =>
      exact .foldl (fun cabinet id => cabinet.delete_advances id) _ _
  | restore records => exact cabinet.restore_advances records

end Cabinet

end Cardfile
