import Cardfile.Proofs.Query.Clauses

/-!
# Reading statements

Each of the four statements is told by its first word, and a whole text is a
statement exactly if it has the form of one.
-/

namespace Cardfile.Query

namespace Parser

/-- The condition of a statement. -/
def filter : Parser (Option (Chain Binding)) :=
  optional (whereKeyword.keepRight condition)

theorem filter_sound {start : Ending} {condition : Option (Chain Binding)}
    {cs rest : List Char}
    (taken : filter.read (skipGap cs) = some (condition, rest))
    (stops : start.Stops cs) :
    ∃ ending written behind, FilterForm start condition ending written ∧
      cs = written ++ behind ∧ ending.Stops behind ∧
      skipGap behind = skipGap rest := by
  simp only [filter, read_optional, read_keepRight, whereKeyword] at taken
  rcases taken with ⟨chain, rfl, _, _, keywordTaken, conditionTaken⟩ |
    ⟨rfl, -, rfl⟩
  · obtain ⟨before, word, blank, keyword, rfl, stops'⟩ :=
      (keyword_read_behind "where" rfl).mp keywordTaken
    obtain ⟨after, ending, written, behind, blank', conditionForm, rfl,
      stopped, same⟩ := condition_takes.sound_behind conditionTaken
    have gapBefore := stops.parts blank
      ((keyword.startsWord rfl).append _)
    have gapAfter := stops'.parts blank' (conditionForm.startsWord.append _)
    exact ⟨ending, _, behind, .present gapBefore keyword gapAfter conditionForm,
      by simp, stopped, same⟩
  · exact ⟨start, [], cs, .absent, rfl, stops, by simp⟩

theorem whereKeyword_read_eq_none {rest : List Char} (closes : Closes rest) :
    (whereKeyword.keepRight condition).read (skipGap rest) = none := by
  cases taken : (whereKeyword.keepRight condition).read (skipGap rest) with
  | none => rfl
  | some result =>
      obtain ⟨_, middle, keywordTaken, -⟩ := read_keepRight.mp taken
      obtain ⟨word, keyword, front, -⟩ := keyword_read.mp keywordTaken
      have starts := (keyword.startsWord rfl).append middle
      rw [← front] at starts
      exact absurd starts closes.not_startsWord

theorem filter_complete {start ending : Ending}
    {condition : Option (Chain Binding)} {written behind : List Char}
    (filterForm : FilterForm start condition ending written)
    (closes : Closes behind) :
    ∃ rest, filter.read (skipGap (written ++ behind)) = some (condition, rest) ∧
      skipGap rest = skipGap behind := by
  simp only [filter, read_optional]
  cases filterForm with
  | absent =>
      exact ⟨_, .inr ⟨rfl, whereKeyword_read_eq_none closes, rfl⟩, by simp⟩
  | present gapBefore keyword gapAfter conditionForm =>
      obtain ⟨rest, taken, same⟩ := condition_takes.complete_behind
        gapAfter.blank conditionForm (closes.stops _) closes
      refine ⟨rest, .inl ⟨_, rfl, ?_⟩, same⟩
      simp only [List.append_assoc, read_keepRight, whereKeyword]
      exact ⟨(), _, (keyword_read_behind "where" rfl).mpr
        ⟨_, _, gapBefore.blank, keyword, rfl, gapAfter.stops⟩, taken⟩

end Parser

theorem FilterForm.stops {start ending : Ending}
    {condition : Option (Chain Binding)} {written behind : List Char}
    (filterForm : FilterForm start condition ending written)
    (closes : Closes behind) : start.Stops (written ++ behind) := by
  cases filterForm with
  | absent => exact closes.stops start
  | present gapBefore =>
      rw [List.append_assoc]
      exact gapBefore.stops

theorem FilterForm.noComma {start ending : Ending}
    {condition : Option (Chain Binding)} {written behind : List Char}
    (filterForm : FilterForm start condition ending written)
    (closes : Closes behind) : NoComma (written ++ behind) := by
  cases filterForm with
  | absent => exact closes.noComma
  | present gapBefore keyword =>
      have starts := keyword.startsWord rfl
      apply noComma_of_startsWord
      simp only [List.append_assoc]
      rw [gapBefore.blank.skipGap_solid starts.solid]
      exact starts.append _

/-- A text that begins with a word in any case. -/
def Announces (word : String) (cs : List Char) : Prop :=
  ∃ front others, KeywordForm word front ∧ cs = front ++ others

namespace Announces

variable {word other : String} {cs : List Char}

theorem append (announced : Announces word cs) (rest : List Char) :
    Announces word (cs ++ rest) := by
  obtain ⟨front, others, keyword, rfl⟩ := announced
  exact ⟨front, others ++ rest, keyword, List.append_assoc ..⟩

theorem solid (announced : Announces word cs)
    (starts : StartsWord word.toList) : Solid cs := by
  obtain ⟨front, others, keyword, rfl⟩ := announced
  exact ((keyword.startsWord starts).append others).solid

theorem unique (left : Announces word cs) (right : Announces other cs)
    (sameLength : word.length = other.length) : word = other := by
  obtain ⟨front, others, keyword, rfl⟩ := left
  obtain ⟨front', others', keyword', same⟩ := right
  have lowered : front.map Char.toLower = word.toList := keyword
  have lowered' : front'.map Char.toLower = other.toList := keyword'
  have lengths : front.length = front'.length := by
    rw [← List.length_map Char.toLower, lowered, String.length_toList,
      sameLength, ← String.length_toList, ← lowered', List.length_map]
  obtain ⟨rfl, -⟩ := List.append_inj same lengths
  exact String.toList_inj.mp (lowered.symm.trans lowered')

end Announces

theorem InsertForm.announces {sentence : Sentence} {ending : Ending}
    {written : List Char} (insertForm : InsertForm sentence ending written) :
    Announces "insert" written := by
  obtain ⟨keyword, -⟩ := insertForm
  exact ⟨_, _, keyword, rfl⟩

theorem SelectForm.announces {sentence : Sentence} {ending : Ending}
    {written : List Char} (selectForm : SelectForm sentence ending written) :
    Announces "select" written := by
  obtain ⟨keyword, -⟩ := selectForm
  exact ⟨_, _, keyword, rfl⟩

theorem UpdateForm.announces {sentence : Sentence} {ending : Ending}
    {written : List Char} (updateForm : UpdateForm sentence ending written) :
    Announces "update" written := by
  obtain ⟨keyword, -⟩ := updateForm
  exact ⟨_, _, keyword, rfl⟩

theorem DeleteForm.announces {sentence : Sentence} {ending : Ending}
    {written : List Char} (deleteForm : DeleteForm sentence ending written) :
    Announces "delete" written := by
  obtain ⟨keyword, -⟩ := deleteForm
  exact ⟨_, _, keyword, rfl⟩

/-- A part that another word announces is not read. -/
theorem Takes.read_eq_none {part : Parser Sentence} {form : Form Sentence}
    {fit : List Char → Prop} (takes : Takes part form fit)
    {word other : String} {cs : List Char}
    (announces : ∀ {sentence ending written},
      form sentence ending written → Announces word written)
    (announced : Announces other cs) (sameLength : word.length = other.length)
    (different : word ≠ other) : part.read cs = none := by
  cases taken : part.read cs with
  | none => rfl
  | some result =>
      obtain ⟨_, written, behind, hasForm, rfl, -⟩ := takes.sound taken
      have begun := (announces hasForm).append behind
      exact absurd (begun.unique announced sameLength) different

namespace Parser

theorem values_takes : Takes values (RowForm ValueForm) NoComma :=
  value_reads.separated.named .valueList

theorem assignments_takes :
    Takes assignments (RowForm BindingForm) NoComma :=
  (binding_reads.named .assignment).separated.named .assignments

theorem insert_takes : Takes insert InsertForm Closes where
  solid insertForm := insertForm.announces.solid rfl
  sound := by
    intro sentence cs rest taken
    simp only [insert, read_named, read_map, read_seq, read_keepLeft,
      read_keepRight, read_literal] at taken
    obtain ⟨_, ⟨_, ⟨_, ⟨_, ⟨_, _, ⟨_, insertTaken, opening⟩, namesTaken⟩,
      _, _, ⟨_, closing, valuesTaken⟩, opening'⟩, listTaken⟩, -, closing'⟩,
      rfl⟩ := taken
    obtain ⟨insertWord, insertKeyword, rfl, -⟩ := keyword_read.mp insertTaken
    obtain ⟨gap₁, blank₁, rfl⟩ := (skipGap_eq_sign '(' rfl).mp opening
    obtain ⟨gap₂, _, names, behind, blank₂, namesForm, rfl, -, same⟩ :=
      names_takes.sound_behind namesTaken
    obtain ⟨gap₃, blank₃, rfl⟩ :=
      (skipGap_eq_sign ')' rfl).mp (same.trans closing)
    obtain ⟨gap₄, valuesWord, blank₄, valuesKeyword, rfl, -⟩ :=
      (keyword_read_behind "values" rfl).mp valuesTaken
    obtain ⟨gap₅, blank₅, rfl⟩ := (skipGap_eq_sign '(' rfl).mp opening'
    obtain ⟨gap₆, _, values, behind', blank₆, valuesForm, rfl, -, same'⟩ :=
      values_takes.sound_behind listTaken
    obtain ⟨gap₇, blank₇, rfl⟩ :=
      (skipGap_eq_sign ')' rfl).mp (same'.trans closing')
    exact ⟨.closed, _, rest, .mk insertKeyword blank₁
      (.mk blank₂ namesForm blank₃) blank₄ valuesKeyword blank₅
      (.mk blank₆ valuesForm blank₇), by simp, Ending.closed_stops, rfl⟩
  complete := by
    rintro _ _ _ rest ⟨insertKeyword, blank₁, ⟨blank₂, namesForm, blank₃⟩,
      blank₄, valuesKeyword, blank₅, ⟨blank₆, valuesForm, blank₇⟩⟩ - -
    obtain ⟨left, listTaken, same⟩ := values_takes.complete_behind
      blank₆ valuesForm (Ending.stops_sign blank₇ rfl)
      (noComma_bracket blank₇ rest)
    obtain ⟨left', namesTaken, same'⟩ := names_takes.complete_behind
      blank₂ namesForm (Ending.stops_sign blank₃ rfl)
      (noComma_bracket blank₃ _)
    refine ⟨rest, ?_, rfl⟩
    simp only [insert, read_named, read_map, read_seq, read_keepLeft,
      read_keepRight, read_literal, List.append_assoc, List.cons_append]
    refine ⟨(_, _), ⟨left, ⟨_, ⟨left', ⟨((), ()), _, ⟨_,
      keyword_read.mpr ⟨_, insertKeyword, rfl, Ending.stops_sign blank₁ rfl⟩,
      (skipGap_eq_sign '(' rfl).mpr ⟨_, blank₁, rfl⟩⟩, namesTaken⟩,
      (((), ()), ()), _, ⟨_, ?closing,
      (keyword_read_behind "values" rfl).mpr ⟨_, _, blank₄, valuesKeyword, rfl,
        Ending.stops_sign blank₅ rfl⟩⟩,
      (skipGap_eq_sign '(' rfl).mpr ⟨_, blank₅, rfl⟩⟩, listTaken⟩, (),
      ?closing'⟩, rfl⟩
    case closing =>
      exact same'.trans ((skipGap_eq_sign ')' rfl).mpr ⟨_, blank₃, rfl⟩)
    case closing' =>
      exact same.trans ((skipGap_eq_sign ')' rfl).mpr ⟨_, blank₇, rfl⟩)

theorem select_takes : Takes select SelectForm Closes where
  solid selectForm := selectForm.announces.solid rfl
  sound := by
    intro sentence cs rest taken
    simp only [select, read_named, read_map, read_seq, read_keepRight] at taken
    obtain ⟨⟨names, condition⟩, ⟨_, ⟨_, _, keywordTaken, namesTaken⟩,
      filterTaken⟩, rfl⟩ := taken
    dsimp only at namesTaken filterTaken ⊢
    obtain ⟨word, keyword, rfl, stops⟩ := keyword_read.mp keywordTaken
    obtain ⟨gap, middle, written, between, blank, namesForm, rfl, stops',
      same⟩ := names_takes.sound_behind namesTaken
    rw [← same] at filterTaken
    obtain ⟨ending, filter, behind, filterForm, rfl, stopped, same'⟩ :=
      filter_sound filterTaken stops'
    refine ⟨ending, _, behind, .mk keyword blank ?_ namesForm filterForm,
      by simp, stopped, same'⟩
    cases namesForm with
    | star => exact .inl rfl
    | list rowForm =>
        right
        obtain ⟨_, _, first, others, nameForm, rfl⟩ := rowForm.front
        have starts := (nameForm.startsWord.append others).append
          (filter ++ behind)
        exact (stops.parts blank starts).apart.resolve_left (by decide)
  complete := by
    rintro _ ending _ behind ⟨keyword, blank, apart, namesForm, filterForm⟩
      stops closes
    obtain ⟨left, namesTaken, same⟩ := names_takes.complete_behind blank
      namesForm (filterForm.stops closes) (filterForm.noComma closes)
    obtain ⟨rest, filterTaken, same'⟩ := filter_complete filterForm closes
    refine ⟨rest, ?_, same'⟩
    simp only [select, read_named, read_map, read_seq, read_keepRight,
      List.append_assoc]
    refine ⟨(_, _), ⟨left, ⟨(), _, keyword_read.mpr ⟨_, keyword, rfl, ?_⟩,
      namesTaken⟩, ?_⟩, rfl⟩
    · rcases apart with rfl | some
      · cases namesForm
        exact Ending.Stops.behind (by simp [Ending.extends?, isWordChar]) blank
      · exact Ending.Parts.stops ⟨blank, .inr some⟩
    · rw [same]
      exact filterTaken

theorem update_takes : Takes update UpdateForm Closes where
  solid updateForm := updateForm.announces.solid rfl
  sound := by
    intro sentence cs rest taken
    simp only [update, read_named, read_map, read_seq, read_keepRight] at taken
    obtain ⟨_, ⟨_, ⟨_, _, ⟨_, updateTaken, setTaken⟩, assignmentsTaken⟩,
      filterTaken⟩, rfl⟩ := taken
    obtain ⟨updateWord, updateKeyword, rfl, stops⟩ :=
      keyword_read.mp updateTaken
    obtain ⟨gap, setWord, blank, setKeyword, rfl, stops'⟩ :=
      (keyword_read_behind "set" rfl).mp setTaken
    obtain ⟨gap', middle, written, between, blank', assignmentsForm, rfl,
      stops'', same⟩ := assignments_takes.sound_behind assignmentsTaken
    rw [← same] at filterTaken
    obtain ⟨ending, filter, behind, filterForm, rfl, stopped, same'⟩ :=
      filter_sound filterTaken stops''
    obtain ⟨_, _, first, others, bindingForm, rfl⟩ := assignmentsForm.front
    have parts := stops.parts blank ((setKeyword.startsWord rfl).append _)
    have parts' := stops'.parts blank'
      ((bindingForm.startsWord.append others).append (filter ++ behind))
    exact ⟨ending, _, behind, .mk updateKeyword parts setKeyword parts'
      assignmentsForm filterForm, by simp, stopped, same'⟩
  complete := by
    rintro _ ending _ behind ⟨updateKeyword, parts, setKeyword, parts',
      assignmentsForm, filterForm⟩ stops closes
    obtain ⟨left, assignmentsTaken, same⟩ := assignments_takes.complete_behind
      parts'.blank assignmentsForm (filterForm.stops closes)
      (filterForm.noComma closes)
    obtain ⟨rest, filterTaken, same'⟩ := filter_complete filterForm closes
    refine ⟨rest, ?_, same'⟩
    simp only [update, read_named, read_map, read_seq, read_keepRight,
      List.append_assoc]
    rw [← same] at filterTaken
    exact ⟨(_, _), ⟨left, ⟨((), ()), _, ⟨_,
      keyword_read.mpr ⟨_, updateKeyword, rfl, parts.stops⟩,
      (keyword_read_behind "set" rfl).mpr
        ⟨_, _, parts.blank, setKeyword, rfl, parts'.stops⟩⟩,
      assignmentsTaken⟩, filterTaken⟩, rfl⟩

theorem delete_takes : Takes delete DeleteForm Closes where
  solid deleteForm := deleteForm.announces.solid rfl
  sound := by
    intro sentence cs rest taken
    simp only [delete, read_named, read_map, read_seq, read_keepRight,
      whereKeyword] at taken
    obtain ⟨_, ⟨_, _, ⟨_, deleteTaken, whereTaken⟩, conditionTaken⟩, rfl⟩ :=
      taken
    obtain ⟨deleteWord, deleteKeyword, rfl, stops⟩ :=
      keyword_read.mp deleteTaken
    obtain ⟨gap, whereWord, blank, whereKeyword, rfl, stops'⟩ :=
      (keyword_read_behind "where" rfl).mp whereTaken
    obtain ⟨gap', ending, written, behind, blank', conditionForm, rfl, stopped,
      same⟩ := condition_takes.sound_behind conditionTaken
    have parts := stops.parts blank ((whereKeyword.startsWord rfl).append _)
    have parts' := stops'.parts blank' (conditionForm.startsWord.append behind)
    exact ⟨ending, _, behind, .mk deleteKeyword parts whereKeyword parts'
      conditionForm, by simp, stopped, same⟩
  complete := by
    rintro _ ending _ behind ⟨deleteKeyword, parts, whereKeyword', parts',
      conditionForm⟩ stops closes
    obtain ⟨rest, conditionTaken, same⟩ := condition_takes.complete_behind
      parts'.blank conditionForm stops closes
    refine ⟨rest, ?_, same⟩
    simp only [delete, read_named, read_map, read_seq, read_keepRight,
      whereKeyword, List.append_assoc]
    exact ⟨_, ⟨((), ()), _, ⟨_,
      keyword_read.mpr ⟨_, deleteKeyword, rfl, parts.stops⟩,
      (keyword_read_behind "where" rfl).mpr
        ⟨_, _, parts.blank, whereKeyword', rfl, parts'.stops⟩⟩,
      conditionTaken⟩, rfl⟩

/-- One of the four statements. -/
def sentence : Parser Sentence :=
  insert.orElse (select.orElse (update.orElse delete))

theorem sentence_takes : Takes sentence SentenceForm Closes where
  solid := by
    rintro _ _ _ (form | form | form | form)
    all_goals exact form.announces.solid rfl
  sound := by
    intro value cs rest taken
    simp only [sentence, read_orElse] at taken
    rcases taken with taken | ⟨-, taken | ⟨-, taken | ⟨-, taken⟩⟩⟩
    · obtain ⟨ending, written, behind, form, split⟩ := insert_takes.sound taken
      exact ⟨ending, written, behind, .insert form, split⟩
    · obtain ⟨ending, written, behind, form, split⟩ := select_takes.sound taken
      exact ⟨ending, written, behind, .select form, split⟩
    · obtain ⟨ending, written, behind, form, split⟩ := update_takes.sound taken
      exact ⟨ending, written, behind, .update form, split⟩
    · obtain ⟨ending, written, behind, form, split⟩ := delete_takes.sound taken
      exact ⟨ending, written, behind, .delete form, split⟩
  complete := by
    intro value ending written behind sentenceForm stops closes
    simp only [sentence, read_orElse]
    -- All four first words are six letters long, so a text that begins with
    -- one of them begins with no other.
    have notInsert {word} (announced : Announces word written) :=
      insert_takes.read_eq_none InsertForm.announces
        (announced.append behind)
    have notSelect {word} (announced : Announces word written) :=
      select_takes.read_eq_none SelectForm.announces
        (announced.append behind)
    have notUpdate {word} (announced : Announces word written) :=
      update_takes.read_eq_none UpdateForm.announces
        (announced.append behind)
    cases sentenceForm with
    | insert form =>
        obtain ⟨rest, taken, same⟩ := insert_takes.complete form stops closes
        exact ⟨rest, .inl taken, same⟩
    | select form =>
        obtain ⟨rest, taken, same⟩ := select_takes.complete form stops closes
        have first := notInsert form.announces (by decide) (by decide)
        exact ⟨rest, .inr ⟨first, .inl taken⟩, same⟩
    | update form =>
        obtain ⟨rest, taken, same⟩ := update_takes.complete form stops closes
        have first := notInsert form.announces (by decide) (by decide)
        have second := notSelect form.announces (by decide) (by decide)
        exact ⟨rest, .inr ⟨first, .inr ⟨second, .inl taken⟩⟩, same⟩
    | delete form =>
        obtain ⟨rest, taken, same⟩ := delete_takes.complete form stops closes
        have first := notInsert form.announces (by decide) (by decide)
        have second := notSelect form.announces (by decide) (by decide)
        have third := notUpdate form.announces (by decide) (by decide)
        exact ⟨rest, .inr ⟨first, .inr ⟨second, .inr ⟨third, taken⟩⟩⟩, same⟩

theorem statement_read {value : Sentence} {cs rest : List Char} :
    statement.read cs = some (value, rest) ↔
      StatementForm value cs ∧ rest = [] := by
  simp only [statement, ← sentence.eq_1, read_whole, read_keepLeft,
    read_optional, read_literal]
  constructor
  · rintro ⟨behind, ⟨middle, taken, other, semicolon⟩, blank, rfl⟩
    obtain ⟨gap, ending, written, after, gapBefore, sentenceForm, rfl, -,
      same⟩ := sentence_takes.sound_behind taken
    rw [← same] at semicolon
    rcases semicolon with ⟨-, -, sign⟩ | ⟨-, -, rfl⟩
    · obtain ⟨between, gapBetween, rfl⟩ := (skipGap_eq_sign ';' rfl).mp sign
      exact ⟨.semicolon gapBefore sentenceForm gapBetween blank, rfl⟩
    · rw [← skipGap_eq_nil, skipGap_skipGap, skipGap_eq_nil] at blank
      exact ⟨.bare gapBefore sentenceForm blank, rfl⟩
  · rintro ⟨⟨gapBefore, sentenceForm, gapAfter⟩ |
      ⟨gapBefore, sentenceForm, gapBetween, gapAfter⟩, rfl⟩
    · obtain ⟨middle, taken, same⟩ := sentence_takes.complete_behind gapBefore
        sentenceForm (Ending.stops_gap gapAfter) (closes_of_gap gapAfter)
      rw [skipGap_eq_nil.mpr gapAfter] at same
      exact ⟨[], ⟨middle, taken, none,
        .inr ⟨rfl, by rw [same]; rfl, same.symm⟩⟩, .nil, rfl⟩
    · obtain ⟨middle, taken, same⟩ := sentence_takes.complete_behind gapBefore
        sentenceForm (Ending.stops_sign gapBetween rfl)
        (closes_semicolon gapBetween _)
      exact ⟨_, ⟨middle, taken, some (), .inl ⟨(), rfl, same.trans
        ((skipGap_eq_sign ';' rfl).mpr ⟨_, gapBetween, rfl⟩)⟩⟩, gapAfter, rfl⟩

end Parser

end Cardfile.Query
