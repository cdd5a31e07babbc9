import Cardfile.Proofs.Query.Inserts

/-!
# Assignments in a row

Names and values that belong together can be given to an insert as two lists,
or be written out as the assignments of an update.  Both ways look up the same
fields and convert the same values, so they fail with the same fault, and the
record that is inserted is the empty one with all assignments made.

What assignments do to a record is said field by field: the last of those to a
field counts, whatever stands between them.
-/

namespace Cardfile.Query

theorem assignAll_cons (assigned : Assigned) (assignments : List Assigned)
    (record : Record) :
    assignAll (assigned :: assignments) record =
      assignAll assignments (assigned.apply record) :=
  rfl

/-- Assignments give a field the same content in every record, or leave it as
it is in every record. -/
theorem content_assignAll_or (assignments : List Assigned) (field : Field) :
    (∃ value, ∀ record,
        field.content (assignAll assignments record) = value) ∨
      ∀ record,
        field.content (assignAll assignments record) =
          field.content record := by
  induction assignments with
  | nil => exact .inr fun _ => rfl
  | cons assigned assignments ih =>
      simp only [assignAll_cons]
      rcases ih with ⟨value, settled⟩ | kept
      · exact .inl ⟨value, fun record => settled _⟩
      · simp only [kept, Assigned.apply]
        by_cases same : assigned.field = field
        · subst same
          rcases assigned.field.content_set_or assigned.value with set | unset
          · exact .inl ⟨assigned.value, set⟩
          · exact .inr fun record => by rw [unset]
        · exact .inr fun record =>
            Field.content_set_of_ne (Ne.symm same) _ record

theorem assignAll_assignAll (assignments : List Assigned) (record : Record) :
    assignAll assignments (assignAll assignments record) =
      assignAll assignments record := by
  apply Record.eq_of_content
  intro field
  rcases content_assignAll_or assignments field with ⟨value, settled⟩ | kept
  · rw [settled, settled]
  · exact kept _

/-- The assignments of an update with every value in quotes. -/
def assignmentText (bindings : List Binding) : String :=
  ", ".intercalate <|
    bindings.map fun binding => binding.name ++ " = " ++ quoted binding.text

/-- A binding whose name is one and whose text can stand in quotes. -/
structure Binding.Quotable (binding : Binding) : Prop where
  name : NameForm binding.name .word binding.name.toList
  text : '\'' ∉ binding.text.toList

theorem Binding.Quotable.form {binding : Binding}
    (quotable : binding.Quotable) :
    BindingForm binding .closed
      (binding.name ++ " = " ++ quoted binding.text).toList := by
  have form := BindingForm.mk quotable.name gap_space gap_space
    (valueForm_quoted quotable.text)
  simpa using form

theorem assignmentsForm {bindings : List Binding} (filled : bindings ≠ [])
    (quotable : ∀ binding ∈ bindings, binding.Quotable) :
    RowForm BindingForm bindings .closed (assignmentText bindings).toList :=
  .of_intercalate _ filled fun binding member => (quotable binding member).form

theorem readAssignments_of_form {text : String} {bindings : List Binding}
    {ending : Ending}
    (rowForm : RowForm BindingForm bindings ending text.toList) :
    readAssignments text = bindings.mapM Assigned.ofBinding := by
  obtain ⟨rest, taken, same⟩ := Parser.assignments_takes.complete_behind
    gap_nil rowForm (Ending.stops_gap gap_nil) (closes_of_gap gap_nil).noComma
  rw [List.nil_append, List.append_nil] at taken
  have blank : Gap rest := skipGap_eq_nil.mp same
  have whole : Parser.setClause.read text.toList = some (bindings, []) :=
    Parser.read_whole.mpr ⟨rest, taken, blank, rfl⟩
  rw [readAssignments, read_of_some whole]
  rfl

theorem recordOf_bindings (bindings : List Binding) :
    recordOf (bindings.map Binding.name) (bindings.map Binding.text) =
      (bindings.mapM Assigned.ofBinding).map (assignAll · {}) := by
  have zipped : ((bindings.map Binding.name).zip
      (bindings.map Binding.text)).map
        (fun pair => Binding.mk pair.1 pair.2) = bindings := by
    rw [List.zip_map', List.map_map]
    exact List.map_id bindings
  rw [recordOf_eq, zipped, if_pos (by simp)]
  cases bindings.mapM Assigned.ofBinding <;> rfl

/-- Bindings given to an insert and written out as assignments have the same
first fault.  Without one the insert makes the record that the assignments
make of the empty one.  In every record each field gets the value of the last
assignment to it and the other fields are kept, and making the assignments
again changes nothing. -/
theorem recordOf_agrees_with_assignments {bindings : List Binding}
    (filled : bindings ≠ [])
    (quotable : ∀ binding ∈ bindings, binding.Quotable) :
    let inserted :=
      recordOf (bindings.map Binding.name) (bindings.map Binding.text)
    let written := readAssignments (assignmentText bindings)
    match firstFault? (bindings.map Binding.meaning) with
    | some fault => inserted = .error fault ∧ written = .error fault
    | none => ∃ changes,
        written = .ok changes ∧ inserted = .ok (assignAll changes {}) ∧
        ∀ record,
          (∀ field : Field,
            match lastOf? field bindings with
            | some binding =>
                field.read binding.text =
                  .ok (field.content (assignAll changes record))
            | none =>
                field.content (assignAll changes record) =
                  field.content record) ∧
          assignAll changes (assignAll changes record) =
            assignAll changes record := by
  intro inserted written
  have plain : ∀ binding ∈ bindings, Text.Plain binding.name :=
    fun binding member => (quotable binding member).name.plain
  have read : written = bindings.mapM Assigned.ofBinding :=
    readAssignments_of_form (assignmentsForm filled quotable)
  have made : inserted =
      (bindings.mapM Assigned.ofBinding).map (assignAll · {}) :=
    recordOf_bindings bindings
  cases faulty : firstFault? (bindings.map Binding.meaning) with
  | some fault =>
      have failed := (assignments_error plain).mpr faulty
      rw [failed] at read made
      exact ⟨made, read⟩
  | none =>
      cases compiled : bindings.mapM Assigned.ofBinding with
      | error fault =>
          rw [assignments_error plain, faulty] at compiled
          cases compiled
      | ok changes =>
          rw [compiled] at read made
          refine ⟨changes, read, made, fun record => ⟨?_, ?_⟩⟩
          · exact assignments_ok plain compiled record
          · exact assignAll_assignAll changes record

theorem recordOf_agrees_with_assignments_repeated :
    let bindings : List Binding :=
      [⟨"points", "7"⟩, ⟨"FirstName", "Ann, (1)"⟩, ⟨"Points", " 9"⟩]
    (bindings ≠ [] ∧ ∀ binding ∈ bindings, binding.Quotable) ∧
    assignmentText bindings =
      "points = '7', FirstName = 'Ann, (1)', Points = ' 9'" ∧
    ∃ changes, readAssignments (assignmentText bindings) = .ok changes ∧
      recordOf (bindings.map Binding.name) (bindings.map Binding.text) =
        .ok (assignAll changes {}) ∧
      assignAll changes {} = { firstName := "Ann, (1)", points := 9 } ∧
      ∀ record, (assignAll changes record).lastName = record.lastName := by
  intro bindings
  have filled : bindings ≠ [] := List.cons_ne_nil _ _
  have quotable : ∀ binding ∈ bindings, binding.Quotable := by
    intro binding member
    simp only [bindings, List.mem_cons, List.not_mem_nil, or_false] at member
    rcases member with rfl | rfl | rfl
    all_goals
      exact ⟨.of_words rfl rfl, by decide⟩
  have agrees := recordOf_agrees_with_assignments filled quotable
  have faultless : firstFault? (bindings.map Binding.meaning) = none := by
    decide +kernel
  rw [faultless] at agrees
  obtain ⟨changes, written, inserted, assigned⟩ := agrees
  have made : recordOf (bindings.map Binding.name)
      (bindings.map Binding.text) =
        .ok { firstName := "Ann, (1)", points := 9 } := by
    decide +kernel
  refine ⟨⟨filled, quotable⟩, by decide +kernel, changes, written, inserted,
    Except.ok.inj (inserted.symm.trans made), fun record => ?_⟩
  have unnamed : lastOf? .lastName bindings = none := by decide +kernel
  have kept := (assigned record).1 .lastName
  rw [unnamed] at kept
  exact Value.text.inj kept

end Cardfile.Query
