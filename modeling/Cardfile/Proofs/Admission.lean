import Cardfile.Proofs.Changes

/-!
# Admission

A record becomes live because the validator has accepted it, or because it was
restored.  So where nothing is restored only accepted records are live, and no
other records are shown for the ids in the list and in the lookups.
-/

namespace Cardfile

/-- The records that a change takes over without asking the validator. -/
def Change.unchecked : Change → List Record
  | .restore records => records
  | _ => []

namespace Cabinet

/-- Ids that stand together in the list or in a bucket, and the records that
are shown for them. -/
inductive Shows (cabinet : Cabinet) : List RecordId → List Record → Prop where
  | list : Shows cabinet cabinet.order cabinet.records
  | firstName (name : String) :
      Shows cabinet (cabinet.firstNames.find (nameKey name))
        (cabinet.findByFirstName name)
  | lastName (name : String) :
      Shows cabinet (cabinet.lastNames.find (nameKey name))
        (cabinet.findByLastName name)
  | dateOfBirth (day : Date) :
      Shows cabinet (cabinet.birthdays.find day)
        (cabinet.findByDateOfBirth day)

/-- Whatever the validator accepts has a property, and so has every live
record. -/
structure Guards (admitted : Record → Prop) (cabinet : Cabinet) : Prop where
  consistent : cabinet.Consistent
  accepts : ∀ record, cabinet.validator record = none → admitted record
  live : ∀ id record, cabinet.get? id = some record → admitted record

namespace Guards

variable {admitted : Record → Prop} {cabinet : Cabinet}

theorem empty {validator : Validator}
    (accepts : ∀ record, validator record = none → admitted record)
    (serial : Nat) : Guards admitted (Cabinet.empty validator serial) := by
  constructor
  · exact .empty validator serial
  · exact accepts
  · intro id record found
    simp at found

theorem pass (guards : cabinet.Guards admitted) {later : Cabinet}
    (consistent : later.Consistent)
    (validator : later.validator = cabinet.validator)
    (newcomers : ∀ id record, later.get? id = some record →
      admitted record ∨ cabinet.get? id = some record) :
    later.Guards admitted := by
  constructor
  · exact consistent
  · intro record accepted
    rw [validator] at accepted
    exact guards.accepts record accepted
  · intro id record found
    rcases newcomers id record found with new | old
    · exact new
    · exact guards.live id record old

theorem create (guards : cabinet.Guards admitted) (record : Record)
    (freshId : Bool) : Guards admitted (cabinet.create record freshId).2 := by
  apply guards.pass (guards.consistent.create record freshId)
    (cabinet.create_advances record freshId).validator
  intro id other found
  rcases cabinet.create_cases record freshId with
    ⟨_, _, failed⟩ | ⟨accepted, entered⟩
  · rw [failed] at found
    exact .inr found
  · rw [entered, get?_revised, guards.consistent.get?_place] at found
    split at found
    · cases found
      exact .inl (guards.accepts _ accepted)
    · exact .inr found

theorem edit (guards : cabinet.Guards admitted) (id : RecordId)
    (change : Record → Record) :
    Guards admitted (cabinet.edit id change).2 := by
  apply guards.pass (guards.consistent.edit id change)
    (cabinet.edit_advances id change).validator
  intro wanted other found
  rcases cabinet.edit_cases id change with
    ⟨_, failed⟩ | ⟨_, _, _, _, failed⟩ | ⟨previous, _, accepted, _, edited⟩
  · rw [failed] at found
    exact .inr found
  · rw [failed] at found
    exact .inr found
  · rw [edited, get?_revised, get?_replace] at found
    split at found
    · cases found
      exact .inl (guards.accepts _ accepted)
    · split at found
      · cases found
      · exact .inr found

theorem delete (guards : cabinet.Guards admitted) (id : RecordId) :
    Guards admitted (cabinet.delete id).2 := by
  apply guards.pass (guards.consistent.delete id)
    (cabinet.delete_advances id).validator
  intro wanted other found
  rcases cabinet.delete_cases id with ⟨_, failed⟩ | ⟨record, _, deleted⟩
  · rw [failed] at found
    exact .inr found
  · rw [deleted, get?_revised, get?_discard] at found
    split at found
    · cases found
    · exact .inr found

theorem merge (guards : cabinet.Guards admitted) {record : Record}
    (takenOver : admitted record) :
    Guards admitted (cabinet.merge record) := by
  apply guards.pass (guards.consistent.merge record)
    (cabinet.sameStanding_merge record).validator
  intro id other found
  rw [guards.consistent.get?_merge] at found
  split at found
  · cases found
    exact .inl takenOver
  · exact .inr found

theorem restore (guards : cabinet.Guards admitted) {records : List Record}
    (takenOver : ∀ record ∈ records, admitted record) :
    Guards admitted (cabinet.restore records).2 := by
  have merged : Guards admitted (records.foldl Cabinet.merge cabinet) :=
    List.foldlRecOn records _ guards
      fun _ intermediate record member =>
        intermediate.merge (takenOver record member)
  rw [restore_snd]
  split
  · exact guards
  · exact ⟨merged.consistent.revised, merged.accepts, merged.live⟩

theorem after (guards : cabinet.Guards admitted) {change : Change}
    (takenOver : ∀ record ∈ change.unchecked, admitted record) :
    Guards admitted (cabinet.after change) := by
  cases change with
  | create record freshId => exact guards.create record freshId
  | edit id change => exact guards.edit id change
  | delete id => exact guards.delete id
  | updateWhere test change =>
      simp only [Cabinet.after, updateWhere_snd]
      exact List.foldlRecOn _ _ guards
        fun _ intermediate id _ => intermediate.edit id change
  | deleteWhere test =>
      exact List.foldlRecOn _ _ guards
        fun _ intermediate id _ => intermediate.delete id
  | restore records => exact guards.restore takenOver

theorem foldl_after (guards : cabinet.Guards admitted)
    {changes : List Change}
    (takenOver : ∀ change ∈ changes, ∀ record ∈ change.unchecked,
      admitted record) :
    Guards admitted (changes.foldl Cabinet.after cabinet) :=
  List.foldlRecOn changes _ guards
    fun _ intermediate change member =>
      intermediate.after (takenOver change member)

end Guards

/-- Every live record has been accepted or restored. -/
theorem accepted_or_restored (validator : Validator) (serial : Nat)
    (changes : List Change) :
    Guards
      (fun record => validator record = none ∨
        ∃ change ∈ changes, record ∈ change.unchecked)
      (changes.foldl after (empty validator serial)) := by
  apply Guards.foldl_after
  · apply Guards.empty
    intro record accepted
    exact .inl accepted
  · intro change member record restored
    exact .inr ⟨change, member, restored⟩

namespace Consistent

variable {cabinet : Cabinet}

theorem live_of_indexes (consistent : cabinet.Consistent) {κ : Type} [Ord κ]
    {lookup : Lookup κ} {keyOf : Record → κ}
    (indexes : lookup.Indexes keyOf cabinet.kept) {key : κ} {id : RecordId}
    (found : id ∈ lookup.find key) : id ∈ cabinet.order := by
  obtain ⟨record, present, _⟩ := (indexes.mem_find key id).mp found
  rw [consistent.mem_order, get?_eq, present]
  rfl

theorem resolve_live (consistent : cabinet.Consistent) {ids : List RecordId}
    (listed : ids ⊆ cabinet.order) :
    (cabinet.resolve ids).map Record.id = ids ∧
      ∀ record ∈ cabinet.resolve ids,
        cabinet.get? record.id = some record := by
  constructor
  · exact consistent.map_id_resolve listed
  · intro record member
    exact consistent.get?_of_mem_resolve member

/-- For every id in the list and in the lookups a live record is shown. -/
theorem shows_live (consistent : cabinet.Consistent) {ids : List RecordId}
    {records : List Record} (shown : cabinet.Shows ids records) :
    records.map Record.id = ids ∧
      ∀ record ∈ records, cabinet.get? record.id = some record := by
  cases shown with
  | list => exact consistent.resolve_live (List.Subset.refl _)
  | firstName name =>
      apply consistent.resolve_live
      intro id found
      exact consistent.live_of_indexes consistent.indexed.firstNames found
  | lastName name =>
      apply consistent.resolve_live
      intro id found
      exact consistent.live_of_indexes consistent.indexed.lastNames found
  | dateOfBirth day =>
      apply consistent.resolve_live
      intro id found
      exact consistent.live_of_indexes consistent.indexed.birthdays found

end Consistent

/-- As long as nothing is restored the validator accepts every live record,
and the records shown for the ids in the list and in the lookups are such
records, one for each id. -/
theorem live_accepted_of_changes (validator : Validator) (serial : Nat)
    {changes : List Change}
    (validated : ∀ change ∈ changes, change.unchecked = []) :
    let cabinet := changes.foldl after (empty validator serial)
    (∀ id record, cabinet.get? id = some record →
      record.id = id ∧ validator record = none) ∧
    ∀ ids records, cabinet.Shows ids records →
      records.map Record.id = ids ∧
      ∀ record ∈ records,
        cabinet.get? record.id = some record ∧ validator record = none := by
  intro cabinet
  have guards := accepted_or_restored validator serial changes
  have accepted : ∀ id record, cabinet.get? id = some record →
      validator record = none := by
    intro id record found
    rcases guards.live id record found with accepted | restored
    · exact accepted
    · obtain ⟨change, member, restored⟩ := restored
      rw [validated change member] at restored
      cases restored
  constructor
  · intro id record found
    exact ⟨guards.consistent.ownId id record found,
      accepted id record found⟩
  · intro ids records shown
    obtain ⟨same, live⟩ := guards.consistent.shows_live shown
    refine ⟨same, ?_⟩
    intro record member
    have present := live record member
    exact ⟨present, accepted record.id record present⟩

/-- A validator that wants few points, and changes of which it refuses some. -/
theorem live_accepted_of_refused :
    let validator : Validator := fun record =>
      if record.points ≤ 10 then none else some (.points ⟨0, 10⟩)
    let changes : List Change :=
      [.create { id := 1, firstName := "Ann" } false,
        .create { points := 30 } true,
        .updateWhere (fun _ => true) fun record =>
          { record with id := record.id + 1 },
        .edit 2 fun record => { record with points := 20 }]
    (∀ change ∈ changes, change.unchecked = []) ∧
      ((changes.foldl after (empty validator 0)).get? 2).isSome ∧
      ∀ id record,
        (changes.foldl after (empty validator 0)).get? id = some record →
          record.id = id ∧ validator record = none := by
  intro validator changes
  have validated : ∀ change ∈ changes, change.unchecked = [] := by
    simp [changes, Change.unchecked]
  refine ⟨validated, by decide +kernel, ?_⟩
  exact (live_accepted_of_changes validator 0 validated).1

end Cabinet

end Cardfile
