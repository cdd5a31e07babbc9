import Cardfile.Proofs.Field
import Cardfile.Proofs.Statements

/-!
# Rows written as inserts

A row of cells is written as an insert with every cell in quotes.  Where no
cell has an apostrophe in it this has the form of a statement, and the cells
that are shown of a record are read as the record they are written for.
-/

namespace Cardfile.Query

/-- A cell in quotes. -/
def quoted (cell : String) : String := "'" ++ cell ++ "'"

/-- The insert that brings a row back. -/
def insertText (columns cells : List String) : String :=
  "insert (" ++ ", ".intercalate columns ++ ") values (" ++
    ", ".intercalate (cells.map quoted) ++ ")"

theorem gap_nil : Gap [] := by
  simp [Gap]

theorem gap_space : Gap [' '] := by
  simp [Gap]

/-- Items that are written with a comma and a space between them. -/
theorem RowForm.of_intercalate {α : Type} {form : Form α} {ending : Ending}
    (write : α → String) {items : List α} (filled : items ≠ [])
    (each : ∀ item ∈ items, form item ending (write item).toList) :
    RowForm form items ending
      (", ".intercalate (items.map write)).toList := by
  induction items with
  | nil => exact absurd rfl filled
  | cons item items ih =>
      have first := each item List.mem_cons_self
      cases items with
      | nil => simpa using RowForm.one first
      | cons second items =>
          have rest := ih (List.cons_ne_nil _ _)
            fun other member => each other (.tail item member)
          have row := RowForm.cons first gap_nil gap_space rest
          simpa [String.intercalate_cons_cons] using row

theorem valueForm_quoted {cell : String} (free : '\'' ∉ cell.toList) :
    ValueForm cell .closed (quoted cell).toList := by
  have form := ValueForm.quoted free
  rw [String.ofList_toList] at form
  simpa [quoted] using form

theorem nameForm_name (field : Field) :
    NameForm field.name .word field.name.toList := by
  cases field <;> exact .of_words rfl rfl

theorem insertForm {columns cells : List String} (named : columns ≠ [])
    (names : ∀ column ∈ columns, NameForm column .word column.toList)
    (filled : cells ≠ []) (free : ∀ cell ∈ cells, '\'' ∉ cell.toList) :
    StatementForm (.insert (.list columns) cells)
      (insertText columns cells).toList := by
  have namesForm : NamesForm (.list columns) .word
      (", ".intercalate columns).toList := by
    have row := RowForm.of_intercalate id named names
    rw [List.map_id] at row
    exact .list row
  have valuesForm : RowForm ValueForm cells .closed
      (", ".intercalate (cells.map quoted)).toList :=
    .of_intercalate quoted filled fun cell member =>
      valueForm_quoted (free cell member)
  have insertWord : KeywordForm "insert" "insert".toList := rfl
  have valuesWord : KeywordForm "values" "values".toList := rfl
  have form := StatementForm.bare gap_nil
    (.insert (.mk insertWord gap_space (.mk gap_nil namesForm gap_nil)
      gap_space valuesWord gap_space (.mk gap_nil valuesForm gap_nil)))
    gap_nil
  simpa [insertText] using form

theorem lowerAscii_name (field : Field) :
    Text.lowerAscii field.name = field.name := by
  cases field <;> decide

theorem called?_name (field : Field) :
    Field.called? field.name = some field :=
  Field.called?_eq_some.mpr (lowerAscii_name field)

theorem ofBinding_display {record : Record} (writable : record.Writable)
    (field : Field) :
    Assigned.ofBinding ⟨field.name, field.display record⟩ =
      .ok ⟨field, field.value record, field.display record⟩ := by
  rw [Binding.ofBinding_plain (nameForm_name field).plain, Binding.meaning,
    called?_name]
  simp only [Field.read_display writable]

theorem recordOf_display {record : Record} (writable : record.Writable) :
    recordOf (headers Field.all) (project Field.all record) =
      .ok record.asWritten := by
  have zipped : ((headers Field.all).zip (project Field.all record)).map
      (fun pair => Binding.mk pair.1 pair.2) =
        Field.all.map fun field => ⟨field.name, field.display record⟩ := rfl
  have assigned : (Field.all.map fun field =>
        Binding.mk field.name (field.display record)).mapM
          Assigned.ofBinding =
      .ok (Field.all.map fun field =>
        ⟨field, field.value record, field.display record⟩) := by
    rw [mapM_eq_ok, List.forall₂_map_left_iff, List.forall₂_map_right_iff,
      List.forall₂_same]
    intro field _
    exact ofBinding_display writable field
  have same : (headers Field.all).length =
      (project Field.all record).length := rfl
  rw [recordOf_eq, if_pos same, zipped, assigned]
  rfl

theorem project_asWritten (columns : List Field) (record : Record) :
    project columns record.asWritten = project columns record := by
  apply List.map_congr_left
  intro field _
  exact field.display_asWritten record

theorem map_project_asWritten (columns : List Field)
    (records : List Record) :
    (records.map Record.asWritten).map (project columns) =
      records.map (project columns) := by
  rw [List.map_map]
  apply List.map_congr_left
  intro record _
  exact project_asWritten columns record

/-- No cell of a record ends a quote. -/
structure Quotable (record : Record) : Prop extends record.Writable where
  firstName : '\'' ∉ record.firstName.toList
  lastName : '\'' ∉ record.lastName.toList
  letter : record.letter ≠ '\''

/-- The insert of all cells of a record. -/
def insertOf (record : Record) : String :=
  insertText (headers Field.all) (project Field.all record)

theorem read_insertOf {record : Record} (quotable : Quotable record) :
    Statement.read (insertOf record) =
      .ok (.insert record.asWritten false) := by
  have names : ∀ column ∈ headers Field.all,
      NameForm column .word column.toList := by
    intro column member
    obtain ⟨field, _, rfl⟩ := List.mem_map.mp member
    exact nameForm_name field
  have free : ∀ cell ∈ project Field.all record, '\'' ∉ cell.toList := by
    intro cell member
    obtain ⟨field, _, rfl⟩ := List.mem_map.mp member
    exact field.apostrophe_not_mem_display quotable.toWritable
      quotable.firstName quotable.lastName quotable.letter
  have named : headers Field.all ≠ [] := List.cons_ne_nil _ _
  have filled : project Field.all record ≠ [] := List.cons_ne_nil _ _
  have form := insertForm named names filled free
  have made := recordOf_display quotable.toWritable
  rw [insertOf, Statement.read_of_form form, Statement.ofSentence,
    Names.words, made]
  rfl

example :
    insertOf
        { id := 7, lastName := "Lee", number := ⟨-15, -20⟩, letter := 'A' } =
      "insert (id, firstname, lastname, dateofbirth, " ++
        "identificationnumber, points, letter) values ('7', '', 'Lee', " ++
        "'1970-01-01', '-15e+20', '0', 'A')" := by
  decide +kernel

theorem read_selectAll :
    Statement.read "select *" =
      .ok (.select Field.all none "select *") := by
  decide +kernel

/-- The characters that are no white space. -/
def inked (cs : List Char) : List Char :=
  cs.filter fun c => !Text.isBlank c

theorem inked_append (left right : List Char) :
    inked (left ++ right) = inked left ++ inked right :=
  List.filter_append ..

theorem inked_trimmed (cs : List Char) :
    inked (Text.trimmed cs) = inked cs := by
  have dropped (cs : List Char) : inked (cs.dropWhile Text.isBlank) =
      inked cs := by
    induction cs with
    | nil => rfl
    | cons c cs ih =>
        rw [List.dropWhile_cons]
        split
        · next blank => rw [ih, inked, inked, List.filter_cons, blank]; rfl
        · rfl
  have turned (cs : List Char) : inked cs.reverse = (inked cs).reverse :=
    List.filter_reverse ..
  rw [Text.trimmed, turned, dropped, turned, List.reverse_reverse, dropped]

theorem inked_gap {gap : List Char} (gapForm : Gap gap) : inked gap = [] := by
  apply List.filter_eq_nil_iff.mpr
  intro c member
  rcases isGap_eq_true.mp (gapForm.isGap member) with rfl | rfl | rfl | rfl <;>
    decide

theorem inked_words {cs : List Char}
    (words : ∀ c ∈ cs, isWordChar c = true) : inked cs = cs := by
  apply List.filter_eq_self.mpr
  intro c member
  have bounds := plain_of_isWordChar (words c member)
  simp [Text.isBlank]
  omega

theorem inked_startsWord {cs : List Char} (word : StartsWord cs) :
    StartsWord (inked cs) := by
  cases cs with
  | nil => simp [StartsWord] at word
  | cons c cs =>
      have wordChar : isWordChar c = true := by simpa [StartsWord] using word
      have kept : inked [c] = [c] :=
        inked_words fun other member =>
          List.mem_singleton.mp member ▸ wordChar
      rw [← List.singleton_append, inked_append, kept]
      simpa [StartsWord] using wordChar

theorem RowForm.startsWord {names : List String} {ending : Ending}
    {written : List Char} (rowForm : RowForm NameForm names ending written) :
    StartsWord written := by
  cases rowForm with
  | one nameForm => exact nameForm.startsWord
  | cons nameForm => exact nameForm.startsWord.append _

/-- A select with no more ink than that of everything is this select. -/
theorem SelectForm.eq_of_ink {sentence : Sentence} {ending : Ending}
    {written : List Char} (selectForm : SelectForm sentence ending written)
    (ink : inked written = "select*".toList) :
    sentence = .select .star none := by
  obtain @⟨names, clause, _, _, word, gap, names', filter, keyword, gapForm,
    _, namesForm, filterForm⟩ := selectForm
  have letters : inked word = word :=
    inked_words (keyword.words (List.all_eq_true.mp rfl))
  have length : word.length = 6 := by
    have same := congrArg List.length keyword
    rwa [List.length_map] at same
  rw [inked_append, inked_append, inked_append, letters, inked_gap gapForm,
    List.nil_append] at ink
  have parted : word ++ (inked names' ++ inked filter) =
      "select".toList ++ ['*'] := ink
  obtain ⟨_, star⟩ := List.append_inj parted length
  cases namesForm with
  | list rowForm =>
      have starts := (inked_startsWord rowForm.startsWord).append
        (inked filter)
      rw [star, StartsWord] at starts
      exact absurd starts (by decide)
  | star =>
      cases filterForm with
      | absent => rfl
      | present gapBefore keyword =>
          have starts := inked_startsWord (keyword.startsWord rfl)
          have marked : inked ['*'] = ['*'] := rfl
          simp only [inked_append, inked_gap gapBefore.blank, marked,
            List.nil_append, List.cons_append, List.cons.injEq, true_and,
            List.append_eq_nil_iff] at star
          rw [star.1, StartsWord] at starts
          exact absurd starts (by decide)

/-- Whatever white space surrounds it, the select of all columns without a
condition is the only statement of its text. -/
theorem select_of_trim {text : String} {columns : List Field}
    {condition : Condition} {shown : String}
    (reads : Statement.read text = .ok (.select columns condition shown))
    (alike : Text.trim text = "select *") :
    columns = Field.all ∧ condition = none := by
  have ink : inked text.toList = "select*".toList := by
    have trimmed : Text.trimmed text.toList = "select *".toList := by
      rw [← alike, Text.trim, String.toList_ofList]
    rw [← inked_trimmed, trimmed]
    rfl
  have formed : ∃ sentence, StatementForm sentence text.toList := by
    by_contra none
    obtain ⟨_, failed⟩ := @Statement.malformed_of_no_form text
      fun sentence form => none ⟨sentence, form⟩
    rw [failed] at reads
    cases reads
  obtain ⟨sentence, form⟩ := formed
  rw [Statement.read_of_form form] at reads
  have means := Statement.ofSentence_ok form.plain reads
  have only : sentence = .select .star none := by
    generalize text.toList = cs at form ink
    cases form with
    | bare gapBefore sentenceForm gapAfter =>
        simp only [inked_append, inked_gap gapBefore, inked_gap gapAfter,
          List.nil_append, List.append_nil] at ink
        cases sentenceForm with
        | select selectForm => exact selectForm.eq_of_ink ink
        | insert insertForm =>
            cases insertForm
            cases means
        | update updateForm =>
            cases updateForm
            cases means
        | delete deleteForm =>
            cases deleteForm
            cases means
    | @semicolon _ before written between after =>
        have mark : ';' ∈
            inked (before ++ (written ++ (between ++ ';' :: after))) :=
          List.mem_filter.mpr ⟨by simp, rfl⟩
        rw [ink] at mark
        exact absurd mark (by decide)
  subst only
  cases reads
  exact ⟨rfl, rfl⟩

end Cardfile.Query
