import Cardfile.Statement
import Cardfile.Proofs.Query.Meaning
import Cardfile.Proofs.Query.Sentences

/-!
# What statements mean

A text is read as a statement exactly if it has the form of one, however it is
laid out.  The parts of the form decide what is read: nothing is lost between
the names, the values and the condition, and the first fault is the one that
comes first in the text.
-/

namespace Cardfile

namespace Query

/-- The last binding whose name is that of a field. -/
def lastOf? (field : Field) (bindings : List Binding) : Option Binding :=
  bindings.reverse.find? fun binding =>
    Field.called? binding.name == some field

/-- Every field has the value of the last binding to it, or what it had before
if there is none. -/
def Assigns (bindings : List Binding) (before after : Record) : Prop :=
  ∀ field : Field,
    match lastOf? field bindings with
    | some binding => field.read binding.text = .ok (field.content after)
    | none => field.content after = field.content before

section Assigns

variable {bindings : List Binding} {before after : Record}
  (assigns : Assigns bindings before after) (field : Field)
include assigns

theorem Assigns.content_eq (binding : Binding)
    (last : lastOf? field bindings = some binding)
    {value : Value} (reads : field.read binding.text = .ok value) :
    field.content after = value := by
  have assigned := assigns field
  rw [last] at assigned
  exact Except.ok.inj (assigned.symm.trans reads)

theorem Assigns.content_kept
    (unnamed : lastOf? field bindings = none) :
    field.content after = field.content before := by
  have assigned := assigns field
  rw [unnamed] at assigned
  exact assigned

end Assigns

theorem lastOf?_cons (field : Field) (binding : Binding)
    (bindings : List Binding) :
    lastOf? field (binding :: bindings) =
      (lastOf? field bindings).or
        (if Field.called? binding.name = some field then some binding
          else none) := by
  rw [lastOf?, List.reverse_cons, List.find?_append, List.find?_singleton]
  simp only [lastOf?, beq_iff_eq]

theorem Binding.meaning_eq_ok {binding : Binding} {assigned : Assigned}
    (means : binding.meaning = .ok assigned) :
    Field.called? binding.name = some assigned.field ∧
      assigned.field.read binding.text = .ok assigned.value := by
  unfold meaning at means
  split at means
  case h_1 => cases means
  case h_2 field called =>
    split at means
    case h_1 => cases means
    case h_2 value reads =>
      cases means
      exact ⟨called, reads⟩

theorem assigns_assignAll {bindings : List Binding} {changes : List Assigned}
    (meant : List.Forall₂
      (fun binding assigned => binding.meaning = .ok assigned)
      bindings changes) (record : Record) :
    Assigns bindings record (assignAll changes record) := by
  induction meant generalizing record with
  | nil => exact fun _ => rfl
  | @cons binding assigned bindings changes means _ ih =>
      intro field
      have later := ih (assigned.apply record) field
      obtain ⟨called, reads⟩ := Binding.meaning_eq_ok means
      rw [lastOf?_cons, called]
      cases last : lastOf? field bindings with
      | some other =>
          rw [last] at later
          exact later
      | none =>
          rw [last] at later
          by_cases own : assigned.field = field
          · subst own
            rw [if_pos rfl, Option.none_or]
            change _ = Except.ok (assigned.field.content (assignAll changes _))
            rw [later, reads, Assigned.apply, Field.content_set_of_read reads]
          · rw [if_neg (by simpa using own), Option.none_or]
            exact later.trans (Field.content_set_of_ne (Ne.symm own) _ _)

section Assignments

variable {bindings : List Binding}
  (plain : ∀ binding ∈ bindings, Text.Plain binding.name)
include plain

theorem assignments_error {fault : Fault} :
    bindings.mapM Assigned.ofBinding = .error fault ↔
      firstFault? (bindings.map Binding.meaning) = some fault := by
  rw [mapM_eq_error, outcomes_plain plain]

theorem assignments_ok {changes : List Assigned}
    (compiled : bindings.mapM Assigned.ofBinding = .ok changes)
    (record : Record) :
    Assigns bindings record (assignAll changes record) := by
  apply assigns_assignAll
  have related := List.forall₂_and_left _ _ |>.mpr
    ⟨plain, mapM_eq_ok.mp compiled⟩
  apply related.imp
  rintro binding assigned ⟨plainName, means⟩
  rwa [Binding.ofBinding_plain plainName] at means

end Assignments

/-- What each name of a column stands for; the star has no names to look up. -/
def Names.meant : Names → List (Except Fault Field)
  | .star => []
  | .list names => names.map Field.meant

/-- The fields that names stand for, in order; the star stands for all. -/
def Names.Columns : Names → List Field → Prop
  | .star, columns =>
      columns = [.id, .firstName, .lastName, .dateOfBirth, .number, .points,
        .letter]
  | .list names, columns =>
      List.Forall₂ (fun name field => Text.lowerAscii name = field.name)
        names columns

theorem columnsOf_error {names : Names}
    (plain : ∀ name ∈ names.words, Text.Plain name) {fault : Fault} :
    columnsOf names = .error fault ↔ firstFault? names.meant = some fault := by
  cases names with
  | star => simp [columnsOf, Names.meant, firstFault?]
  | list names =>
      have outcomes : names.map Field.resolve = names.map Field.meant :=
        List.map_congr_left fun name mem => Field.resolve_plain (plain name mem)
      rw [columnsOf, mapM_eq_error, Names.meant, outcomes]

theorem columnsOf_ok {names : Names}
    (plain : ∀ name ∈ names.words, Text.Plain name) {columns : List Field}
    (compiled : columnsOf names = .ok columns) : names.Columns columns := by
  cases names with
  | star => exact (Except.ok.inj compiled).symm
  | list names =>
      have related := List.forall₂_and_left _ _ |>.mpr
        ⟨plain, mapM_eq_ok.mp compiled⟩
      apply related.imp
      rintro name field ⟨plainName, means⟩
      rwa [Field.resolve_plain plainName, Field.meant_eq_ok,
        Field.called?_eq_some] at means

/-- The names of an insert with the values that stand at the same place. -/
def pairs (names : Names) (values : List String) : List Binding :=
  (names.words.zip values).map fun pair => ⟨pair.1, pair.2⟩

theorem recordOf_eq (names values : List String) :
    recordOf names values =
      if names.length = values.length then do
        let changes ← ((names.zip values).map fun pair =>
          Binding.mk pair.1 pair.2).mapM Assigned.ofBinding
        pure (assignAll changes {})
      else .error (.unequalLists names.length values.length) := by
  by_cases same : names.length = values.length
  · simp [recordOf, same, List.mapM_map, Function.comp_def]
  · simp [recordOf, same, throw, throwThe, MonadExceptOf.throw, bind,
      Except.bind]

namespace Sentence

/-- The first fault of a statement. -/
def fault? : Sentence → Option Fault
  | .insert names values =>
      if names.words.length = values.length then
        firstFault? ((pairs names values).map Binding.meaning)
      else some (.unequalLists names.words.length values.length)
  | .select names condition =>
      (firstFault? names.meant).or (Clause.fault? condition)
  | .update assignments condition =>
      (firstFault? (assignments.map Binding.meaning)).or
        (Clause.fault? condition)
  | .delete condition => Clause.fault? (some condition)

/-- Every name in a statement is plain. -/
def Plain : Sentence → Prop
  | .insert names _ => ∀ name ∈ names.words, Text.Plain name
  | .select names condition =>
      (∀ name ∈ names.words, Text.Plain name) ∧
        ∀ binding ∈ Clause.bindings condition, Text.Plain binding.name
  | .update assignments condition =>
      (∀ binding ∈ assignments, Text.Plain binding.name) ∧
        ∀ binding ∈ Clause.bindings condition, Text.Plain binding.name
  | .delete condition =>
      ∀ binding ∈ Clause.bindings (some condition), Text.Plain binding.name

end Sentence

end Query

open Query

namespace Statement

/-- A statement does what is written in a text. -/
inductive Means (text : String) : Statement → Sentence → Prop where
  | insert {names : Names} {values : List String} {record : Record}
      {freshId : Bool} (assigned : Assigns (pairs names values) {} record)
      (unnamed : freshId = true ↔
        ∀ name ∈ names.words, Field.called? name ≠ some .id) :
      Means text (.insert record freshId) (.insert names values)
  | select {names : Names} {columns : List Field} {clause : Clause}
      {condition : Condition} (named : names.Columns columns)
      (means : condition.Means clause) :
      Means text (.select columns condition (Text.trim text))
        (.select names clause)
  | update {assignments : List Binding} {changes : List Assigned}
      {clause : Clause} {condition : Condition}
      (assigned : ∀ record,
        Assigns assignments record (assignAll changes record))
      (means : condition.Means clause) :
      Means text (.update changes condition) (.update assignments clause)
  | delete {chain : Chain Binding} {condition : Condition}
      (means : condition.Means (some chain)) :
      Means text (.delete condition) (.delete chain)

theorem pairs_plain {names : Names} {values : List String}
    (plain : ∀ name ∈ names.words, Text.Plain name) :
    ∀ binding ∈ pairs names values, Text.Plain binding.name := by
  intro binding mem
  obtain ⟨pair, zipped, rfl⟩ := List.mem_map.mp mem
  exact plain pair.1 (List.of_mem_zip zipped).1

theorem recordOf_error {names : Names} {values : List String}
    (plain : ∀ name ∈ names.words, Text.Plain name) {fault : Fault} :
    recordOf names.words values = .error fault ↔
      Sentence.fault? (.insert names values) = some fault := by
  rw [recordOf_eq, Sentence.fault?]
  split
  · rw [bind_eq_error, ← pairs, assignments_error (pairs_plain plain)]
    simp [pure, Except.pure]
  · simp

theorem recordOf_ok {names : Names} {values : List String}
    (plain : ∀ name ∈ names.words, Text.Plain name) {record : Record}
    (compiled : recordOf names.words values = .ok record) :
    Assigns (pairs names values) {} record := by
  rw [recordOf_eq] at compiled
  split at compiled
  · obtain ⟨changes, changesOk, same⟩ := bind_eq_ok.mp compiled
    obtain rfl : assignAll changes {} = record := by
      simpa [pure, Except.pure] using same
    exact assignments_ok (pairs_plain plain) changesOk {}
  · simp at compiled

private theorem pure_eq_error {α : Type} {value : α} {fault : Fault} :
    (pure value : Except Fault α) = .error fault ↔ none = some fault := by
  simp [pure, Except.pure]

theorem ofSentence_error {text : String} {sentence : Sentence}
    (plain : sentence.Plain) {fault : Fault} :
    ofSentence text sentence = .error fault ↔
      sentence.fault? = some fault := by
  cases sentence with
  | insert names values =>
      rw [← Option.or_none (o := Sentence.fault? _)]
      exact bind_eq_error_iff (fun _ => recordOf_error plain)
        fun _ => pure_eq_error
  | select names clause =>
      obtain ⟨plainNames, plainClause⟩ := plain
      apply bind_eq_error_iff fun _ => columnsOf_error plainNames
      intro columns
      rw [← Option.or_none (o := Clause.fault? clause)]
      exact bind_eq_error_iff (fun _ => Condition.ofChain_error plainClause)
        fun _ => pure_eq_error
  | update assignments clause =>
      obtain ⟨plainAssignments, plainClause⟩ := plain
      apply bind_eq_error_iff fun _ => assignments_error plainAssignments
      intro changes
      rw [← Option.or_none (o := Clause.fault? clause)]
      exact bind_eq_error_iff (fun _ => Condition.ofChain_error plainClause)
        fun _ => pure_eq_error
  | delete chain =>
      rw [← Option.or_none (o := Sentence.fault? _)]
      exact bind_eq_error_iff (fun _ => Condition.ofChain_error plain)
        fun _ => pure_eq_error

theorem ofSentence_ok {text : String} {sentence : Sentence}
    (plain : sentence.Plain) {statement : Statement}
    (compiled : ofSentence text sentence = .ok statement) :
    statement.Means text sentence := by
  cases sentence with
  | insert names values =>
      obtain ⟨record, recordOk, same⟩ := bind_eq_ok.mp compiled
      obtain rfl := Except.ok.inj same
      apply Means.insert (recordOf_ok plain recordOk)
      simp [Field.called?_eq_some, Field.name]
  | select names clause =>
      obtain ⟨columns, columnsOk, rest⟩ := bind_eq_ok.mp compiled
      obtain ⟨condition, conditionOk, same⟩ := bind_eq_ok.mp rest
      obtain rfl := Except.ok.inj same
      exact .select (columnsOf_ok plain.1 columnsOk)
        (Condition.ofChain_means plain.2 conditionOk)
  | update assignments clause =>
      obtain ⟨changes, changesOk, rest⟩ := bind_eq_ok.mp compiled
      obtain ⟨condition, conditionOk, same⟩ := bind_eq_ok.mp rest
      obtain rfl := Except.ok.inj same
      exact .update (assignments_ok plain.1 changesOk)
        (Condition.ofChain_means plain.2 conditionOk)
  | delete chain =>
      obtain ⟨condition, conditionOk, same⟩ := bind_eq_ok.mp compiled
      obtain rfl := Except.ok.inj same
      exact .delete (Condition.ofChain_means plain conditionOk)

end Statement

namespace Query

theorem RowForm.forall_mem {α : Type} {form : Form α} {items : List α}
    {ending : Ending} {written : List Char}
    (rowForm : RowForm form items ending written) {good : α → Prop}
    (each : ∀ item ending written, form item ending written → good item) :
    ∀ item ∈ items, good item := by
  induction rowForm with
  | one itemForm => simpa using each _ _ _ itemForm
  | cons itemForm _ _ _ ih => simpa using ⟨each _ _ _ itemForm, ih⟩

theorem NamesForm.plain {names : Names} {ending : Ending}
    {written : List Char} (namesForm : NamesForm names ending written) :
    ∀ name ∈ names.words, Text.Plain name := by
  cases namesForm with
  | star => simp [Names.words, Text.Plain]
  | list rowForm => exact rowForm.forall_mem fun _ _ _ => NameForm.plain

theorem FilterForm.plain {start ending : Ending} {clause : Clause}
    {written : List Char}
    (filterForm : FilterForm start clause ending written) :
    ∀ binding ∈ clause.bindings, Text.Plain binding.name := by
  cases filterForm with
  | absent => simp [Clause.bindings]
  | present _ _ _ conditionForm => exact conditionForm.plain

theorem SentenceForm.plain {sentence : Sentence} {ending : Ending}
    {written : List Char}
    (sentenceForm : SentenceForm sentence ending written) :
    sentence.Plain := by
  rcases sentenceForm with ⟨_, _, ⟨_, namesForm, _⟩⟩ |
    ⟨_, _, _, namesForm, filterForm⟩ |
    ⟨_, _, _, _, assignmentsForm, filterForm⟩ | ⟨_, _, _, _, conditionForm⟩
  · exact namesForm.plain
  · exact ⟨namesForm.plain, filterForm.plain⟩
  · exact ⟨assignmentsForm.forall_mem fun _ _ _ => BindingForm.plain,
      filterForm.plain⟩
  · exact conditionForm.plain

theorem StatementForm.plain {sentence : Sentence} {written : List Char}
    (statementForm : StatementForm sentence written) : sentence.Plain := by
  cases statementForm with
  | bare _ sentenceForm => exact sentenceForm.plain
  | semicolon _ sentenceForm => exact sentenceForm.plain

theorem StatementForm.unique {sentence other : Sentence}
    {written : List Char} (left : StatementForm sentence written)
    (right : StatementForm other written) : sentence = other := by
  have taken := Parser.statement_read.mpr ⟨left, rfl⟩
  have taken' := Parser.statement_read.mpr ⟨right, rfl⟩
  simpa using taken.symm.trans taken'

theorem Names.meant_ne_malformed (names : Names) (failure : Failure) :
    firstFault? names.meant ≠ some (.malformed failure) := by
  intro found
  cases names with
  | star => simp [Names.meant, firstFault?] at found
  | list names =>
      obtain ⟨name, -, failed⟩ := List.mem_map.mp (exists_of_firstFault? found)
      unfold Field.meant at failed
      split at failed <;> simp at failed

theorem Sentence.fault?_ne_malformed (sentence : Sentence)
    (failure : Failure) : sentence.fault? ≠ some (.malformed failure) := by
  intro found
  cases sentence with
  | insert names values =>
      simp only [fault?] at found
      split at found
      · exact meanings_ne_malformed _ failure found
      · simp at found
  | select names clause =>
      rcases Option.or_eq_some_iff.mp found with found | ⟨-, found⟩
      · exact names.meant_ne_malformed failure found
      · exact meanings_ne_malformed _ failure found
  | update assignments clause =>
      rcases Option.or_eq_some_iff.mp found with found | ⟨-, found⟩
      · exact meanings_ne_malformed _ failure found
      · exact meanings_ne_malformed _ failure found
  | delete chain => exact meanings_ne_malformed _ failure found

end Query

namespace Statement

theorem read_of_form {text : String} {sentence : Sentence}
    (statementForm : StatementForm sentence text.toList) :
    Statement.read text = ofSentence text sentence := by
  have taken := Parser.statement_read.mpr ⟨statementForm, rfl⟩
  rw [Statement.read, read_of_some taken]
  rfl

theorem malformed_of_no_form {text : String}
    (none : ∀ sentence, ¬StatementForm sentence text.toList) :
    ∃ failure, Statement.read text = .error (.malformed failure) := by
  cases taken : Parser.statement.read text.toList with
  | some result =>
      exact absurd (Parser.statement_read.mp taken).1 (none result.1)
  | none =>
      obtain ⟨failure, failed⟩ := read_of_none taken
      exact ⟨failure, by rw [Statement.read, failed]; rfl⟩

/-- A text is read as a statement exactly if it has the form of one.  What is
written is unique; its first fault is the answer, or else the statement does
what is written. -/
theorem read_means (text : String) :
    ((∃ failure, Statement.read text = .error (.malformed failure)) ↔
      ∀ sentence, ¬StatementForm sentence text.toList) ∧
    ∀ sentence, StatementForm sentence text.toList →
      (∀ other, StatementForm other text.toList → other = sentence) ∧
      match sentence.fault? with
      | some fault => Statement.read text = .error fault
      | none => ∃ statement, Statement.read text = .ok statement ∧
          statement.Means text sentence := by
  refine ⟨⟨?_, malformed_of_no_form⟩, ?_⟩
  · rintro ⟨failure, failed⟩ sentence statementForm
    rw [read_of_form statementForm,
      ofSentence_error statementForm.plain] at failed
    exact sentence.fault?_ne_malformed failure failed
  · intro sentence statementForm
    refine ⟨fun other otherForm => otherForm.unique statementForm, ?_⟩
    rw [read_of_form statementForm]
    cases fault : sentence.fault? with
    | some fault => exact (ofSentence_error statementForm.plain).mpr fault
    | none =>
        cases compiled : ofSentence text sentence with
        | ok statement =>
            exact ⟨statement, rfl, ofSentence_ok statementForm.plain compiled⟩
        | error other =>
            rw [ofSentence_error statementForm.plain, fault] at compiled
            simp at compiled

theorem read_means_mixed :
    (∃ record,
      Statement.read "INSERT(FirstName,points)\tvalues ( 'Ann, B' , 7 )" =
        .ok (.insert record true) ∧
      record.firstName = "Ann, B" ∧ record.points = 7 ∧
      record.lastName = "") ∧
    ∃ changes condition,
      Statement.read
          "Update SET Points=1,points = '2'WHERE id=7 or id=8 and letter=b;" =
        .ok (.update changes condition) ∧
      (∀ record, (assignAll changes record).points = 2 ∧
        (assignAll changes record).id = record.id) ∧
      condition.holds { id := 7 } = false ∧
      condition.holds { id := 7, letter := 'b' } = true := by
  constructor
  · let sentence :=
      Sentence.insert (.list ["FirstName", "points"]) ["Ann, B", "7"]
    have taken : Parser.statement.read
        "INSERT(FirstName,points)\tvalues ( 'Ann, B' , 7 )".toList =
          some (sentence, []) := by
      decide +kernel
    have answer :=
      (read_means _).2 sentence (Parser.statement_read.mp taken).1
    rw [show sentence.fault? = none by decide +kernel] at answer
    obtain ⟨_, statement, compiled, means⟩ := answer
    change statement.Means _ (.insert _ _) at means
    cases means with
    | @insert _ _ record _ assigned unnamed =>
        rw [unnamed.mpr (by decide +kernel)] at compiled
        have firstName : record.firstName = "Ann, B" :=
          Value.text.inj (assigned.content_eq .firstName
            ⟨"FirstName", "Ann, B"⟩ (by decide +kernel) rfl)
        have points : record.points = 7 :=
          Value.short.inj (assigned.content_eq .points ⟨"points", "7"⟩
            (by decide +kernel) (by decide +kernel))
        have lastName : record.lastName = "" :=
          Value.text.inj (assigned.content_kept .lastName (by decide +kernel))
        exact ⟨record, compiled, firstName, points, lastName⟩
  · let sentence := Sentence.update [⟨"Points", "1"⟩, ⟨"points", "2"⟩]
      (some ⟨⟨"id", "7"⟩, [(.or, ⟨"id", "8"⟩), (.and, ⟨"letter", "b"⟩)]⟩)
    have taken : Parser.statement.read
        "Update SET Points=1,points = '2'WHERE id=7 or id=8 and letter=b;".toList
          = some (sentence, []) := by
      decide +kernel
    have answer :=
      (read_means _).2 sentence (Parser.statement_read.mp taken).1
    rw [show sentence.fault? = none by decide +kernel] at answer
    obtain ⟨_, statement, compiled, means⟩ := answer
    change statement.Means _ (.update _ _) at means
    cases means with
    | @update _ changes _ condition assigned means =>
        refine ⟨changes, condition, compiled, ?_, ?_, ?_⟩
        · intro record
          have points : (assignAll changes record).points = 2 :=
            Value.short.inj ((assigned record).content_eq .points
              ⟨"points", "2"⟩ (by decide +kernel) (by decide +kernel))
          have id : (assignAll changes record).id = record.id :=
            Value.int.inj
              ((assigned record).content_kept .id (by decide +kernel))
          exact ⟨points, id⟩
        · rw [means.holds]
          decide +kernel
        · rw [means.holds]
          decide +kernel

end Statement

end Cardfile
