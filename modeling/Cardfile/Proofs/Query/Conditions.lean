import Cardfile.Proofs.Query.Inserts

/-!
# Conditions in statements

A text that is read as a condition is read as the same one behind the `where`
of a select and of a delete.  Only a blank text is different: by itself it
holds of every record, and behind a `where` it makes no statement.
-/

namespace Cardfile.Query

/-- The select of columns of the records that a condition holds of. -/
def selectText (columns condition : String) : String :=
  "select " ++ columns ++ " where " ++ condition

/-- The delete of the records that a condition holds of. -/
def deleteText (condition : String) : String :=
  "delete where " ++ condition

theorem namesForm_id : NamesForm (.list ["id"]) .word "id".toList :=
  .list (.one (nameForm_name .id))

theorem parts_space (ending : Ending) : ending.Parts [' '] :=
  ⟨gap_space, .inr (List.cons_ne_nil _ _)⟩

theorem Gap.append {left right : List Char} (blank : Gap left)
    (blank' : Gap right) : Gap (left ++ right) := by
  intro c member
  rcases List.mem_append.mp member with first | second
  · exact blank c first
  · exact blank' c second

section Clauses

variable {chain : Chain Binding} {cs : List Char}
  (clauseForm : ClauseForm (some chain) cs)
include clauseForm

theorem ClauseForm.selectForm {names : Names} {ending : Ending}
    {written : List Char} (namesForm : NamesForm names ending written) :
    StatementForm (.select names (some chain))
      ("select ".toList ++ (written ++ (" where ".toList ++ cs))) := by
  cases clauseForm with
  | condition gapBefore conditionForm gapAfter =>
      have selectWord : KeywordForm "select" "select".toList := rfl
      have whereWord : KeywordForm "where" "where".toList := rfl
      have filter := FilterForm.present (parts_space ending) whereWord
        ⟨gap_space.append gapBefore, .inr (List.cons_ne_nil _ _)⟩
        conditionForm
      have form := StatementForm.bare gap_nil
        (.select (.mk selectWord gap_space (.inr (List.cons_ne_nil _ _))
          namesForm filter)) gapAfter
      simpa using form

theorem ClauseForm.deleteForm :
    StatementForm (.delete chain) ("delete where ".toList ++ cs) := by
  cases clauseForm with
  | condition gapBefore conditionForm gapAfter =>
      have deleteWord : KeywordForm "delete" "delete".toList := rfl
      have whereWord : KeywordForm "where" "where".toList := rfl
      have form := StatementForm.bare gap_nil
        (.delete (.mk deleteWord (parts_space .word) whereWord
          ⟨gap_space.append gapBefore, .inr (List.cons_ne_nil _ _)⟩
          conditionForm)) gapAfter
      simpa using form

end Clauses

theorem exists_clauseForm {text : String} {condition : Condition}
    (compiled : readCondition text = .ok condition) :
    ∃ clause : Clause, ClauseForm clause text.toList ∧
      Condition.ofChain clause = .ok condition := by
  by_contra none
  have noForm : ∀ clause, ¬ClauseForm clause text.toList := by
    intro clause clauseForm
    apply none
    refine ⟨clause, clauseForm, ?_⟩
    rw [← readCondition_of_form clauseForm]
    exact compiled
  obtain ⟨failure, failed⟩ := malformed_of_no_form noForm
  rw [failed] at compiled
  cases compiled

section Compiled

variable {text : String} {chain : Chain Assigned}
  (compiled : readCondition text = .ok (some chain))
include compiled

theorem exists_chainForm :
    ∃ written : Chain Binding, ClauseForm (some written) text.toList ∧
      Condition.ofChain (some written) = .ok (some chain) := by
  obtain ⟨clause, clauseForm, means⟩ := exists_clauseForm compiled
  cases clause with
  | none => cases means
  | some written => exact ⟨written, clauseForm, means⟩

theorem read_selectText {columns : String} {names : Names} {ending : Ending}
    (namesForm : NamesForm names ending columns.toList) {fields : List Field}
    (named : columnsOf names = .ok fields) :
    Statement.read (selectText columns text) =
      .ok (.select fields (some chain)
        (Text.trim (selectText columns text))) := by
  obtain ⟨written, clauseForm, means⟩ := exists_chainForm compiled
  have form : StatementForm (.select names (some written))
      (selectText columns text).toList := by
    simpa [selectText] using clauseForm.selectForm namesForm
  rw [Statement.read_of_form form, Statement.ofSentence, named]
  simp only [bind, Except.bind, means]
  rfl

theorem read_selectIds :
    Statement.read (selectText "id" text) =
      .ok (.select [.id] (some chain) (Text.trim (selectText "id" text))) :=
  read_selectText compiled namesForm_id (by decide +kernel)

theorem read_selectStar :
    Statement.read (selectText "*" text) =
      .ok (.select Field.all (some chain)
        (Text.trim (selectText "*" text))) :=
  read_selectText compiled .star rfl

theorem read_deleteText :
    Statement.read (deleteText text) = .ok (.delete (some chain)) := by
  obtain ⟨written, clauseForm, means⟩ := exists_chainForm compiled
  have form : StatementForm (.delete written) (deleteText text).toList := by
    simpa [deleteText] using clauseForm.deleteForm
  rw [Statement.read_of_form form, Statement.ofSentence]
  simp only [bind, Except.bind, means]
  rfl

end Compiled

theorem BindingForm.equals_mem {binding : Binding} {ending : Ending}
    {written : List Char} (bindingForm : BindingForm binding ending written) :
    '=' ∈ written := by
  cases bindingForm
  simp

/-- Nothing but a select does without an equals sign and brackets. -/
theorem SentenceForm.announces_select {sentence : Sentence} {ending : Ending}
    {written : List Char}
    (sentenceForm : SentenceForm sentence ending written)
    (noEquals : '=' ∉ written) (noBracket : '(' ∉ written) :
    Announces "select" written := by
  cases sentenceForm with
  | select selectForm => exact selectForm.announces
  | insert insertForm =>
      obtain ⟨_, _, bracketForm, _, _, _, _⟩ := insertForm
      cases bracketForm
      exact absurd (by simp) noBracket
  | update updateForm =>
      obtain ⟨_, _, _, _, assignmentsForm, _⟩ := updateForm
      obtain ⟨_, _, _, _, bindingForm, rfl⟩ := assignmentsForm.front
      exact absurd (by simp [bindingForm.equals_mem]) noEquals
  | delete deleteForm =>
      obtain ⟨_, _, _, _, ⟨bindingForm, _⟩⟩ := deleteForm
      exact absurd (by simp [bindingForm.equals_mem]) noEquals

theorem StatementForm.front {sentence : Sentence} {cs : List Char}
    (form : StatementForm sentence cs) :
    ∃ before ending written rest, Gap before ∧
      SentenceForm sentence ending written ∧
      cs = before ++ (written ++ rest) := by
  cases form with
  | bare gapBefore sentenceForm =>
      exact ⟨_, _, _, _, gapBefore, sentenceForm, rfl⟩
  | semicolon gapBefore sentenceForm =>
      exact ⟨_, _, _, _, gapBefore, sentenceForm, rfl⟩

theorem read_deleteText_blank {text : String}
    (compiled : readCondition text = .ok none) :
    ∃ failure, Statement.read (deleteText text) =
      .error (.malformed failure) := by
  obtain ⟨clause, clauseForm, means⟩ := exists_clauseForm compiled
  have blank : Gap text.toList := by
    cases clause with
    | none =>
        generalize text.toList = cs at clauseForm ⊢
        cases clauseForm with
        | blank gapForm => exact gapForm
    | some written =>
        obtain ⟨_, _, same⟩ := map_eq_ok.mp means
        cases same
  have written : (deleteText text).toList =
      "delete where ".toList ++ text.toList := String.toList_append
  have absent {c : Char} (noGap : isGap c = false)
      (unwritten : c ∉ "delete where ".toList) :
      c ∉ (deleteText text).toList := by
    rw [written, List.mem_append]
    rintro (here | there)
    · exact unwritten here
    · rw [blank.isGap there] at noGap
      cases noGap
  have noEquals := absent (c := '=') rfl (by decide)
  have noBracket := absent (c := '(') rfl (by decide)
  have announced : Announces "delete" (deleteText text).toList :=
    ⟨"delete".toList, " where ".toList ++ text.toList, rfl, written⟩
  apply Statement.malformed_of_no_form
  intro sentence form
  obtain ⟨before, _, front, rest, gapBefore, sentenceForm, split⟩ := form.front
  have selects := sentenceForm.announces_select
    (fun member => noEquals (by simp [split, member]))
    (fun member => noBracket (by simp [split, member]))
  have same : (deleteText text).toList = front ++ rest := by
    rw [← (skipGap_eq (announced.solid rfl)).mpr ⟨[], .nil, rfl⟩, split]
    exact gapBefore.skipGap_solid (selects.solid rfl) rest
  rw [same] at announced
  have words : "delete" = "select" :=
    announced.unique (selects.append rest) (by decide)
  exact absurd words (by decide)

end Cardfile.Query
