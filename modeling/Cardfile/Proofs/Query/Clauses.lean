import Cardfile.Proofs.Query.Tokens

/-!
# Reading clauses

The parsers of names, assignments and conditions take what is written in their
forms, and a whole text is a clause exactly if it has the form of one.
-/

namespace Cardfile.Query

variable {α : Type}

theorem NameForm.ending_eq {name : String} {ending : Ending}
    {written : List Char} (nameForm : NameForm name ending written) :
    ending = .word := by
  cases nameForm
  rfl

theorem BindingForm.startsWord {binding : Binding} {ending : Ending}
    {written : List Char} (bindingForm : BindingForm binding ending written) :
    StartsWord written := by
  obtain ⟨nameForm, -, -, -⟩ := bindingForm
  exact nameForm.startsWord.append _

theorem Parser.binding_reads : Reads Parser.binding BindingForm where
  solid bindingForm := bindingForm.startsWord.solid
  sound := by
    intro value cs rest taken
    simp only [Parser.binding, read_map, read_seq, read_keepLeft,
      read_literal] at taken
    obtain ⟨_, ⟨_, ⟨_, nameTaken, -, sign⟩, valueTaken⟩, rfl⟩ := taken
    obtain ⟨_, left, nameForm, rfl, -⟩ := name_reads.sound nameTaken
    obtain ⟨before, blank, rfl⟩ := (skipGap_eq_sign '=' rfl).mp sign
    obtain ⟨after, ending, right, blank', valueForm, rfl, stops⟩ :=
      value_reads.sound_behind valueTaken
    obtain rfl := nameForm.ending_eq
    exact ⟨ending, _, .mk nameForm blank blank' valueForm, by simp, stops⟩
  complete := by
    rintro _ ending _ rest ⟨nameForm, blank, blank', valueForm⟩ stops
    simp only [Parser.binding, read_map, read_seq, read_keepLeft, read_literal,
      List.append_assoc, List.cons_append]
    refine ⟨(_, _), ⟨_, ⟨_, name_reads.complete nameForm ?_, (),
      (skipGap_eq_sign '=' rfl).mpr ⟨_, blank, rfl⟩⟩,
      value_reads.complete_behind blank' valueForm stops⟩, rfl⟩
    exact Ending.stops_sign blank rfl

/-- Behind a gap only a semicolon or nothing follows.  A condition ends so, and
then no connective can lead it on. -/
def Closes (rest : List Char) : Prop :=
  ∀ c ∈ (skipGap rest).head?, c = ';'

theorem closes_of_gap {gap : List Char} (blank : Gap gap) : Closes gap := by
  simp [Closes, skipGap_eq_nil.mpr blank]

theorem closes_semicolon {gap : List Char} (blank : Gap gap)
    (rest : List Char) : Closes (gap ++ ';' :: rest) := by
  have front : skipGap (gap ++ ';' :: rest) = ';' :: rest :=
    (skipGap_eq_sign ';' rfl).mpr ⟨gap, blank, rfl⟩
  simp [Closes, front]

theorem Closes.stops {rest : List Char} (closes : Closes rest)
    (ending : Ending) : ending.Stops rest := by
  obtain ⟨gap, blank, split⟩ := exists_gap rest
  cases front : skipGap rest with
  | nil => exact Ending.stops_gap (skipGap_eq_nil.mp front)
  | cons c behind =>
      obtain rfl : c = ';' := closes c (by simp [front])
      rw [split, front]
      exact Ending.stops_sign blank rfl

theorem Closes.not_startsWord {rest : List Char} (closes : Closes rest) :
    ¬StartsWord (skipGap rest) := by
  intro word
  cases front : skipGap rest with
  | nil => simp [StartsWord, front] at word
  | cons c behind =>
      obtain rfl : c = ';' := closes c (by simp [front])
      simp [StartsWord, front, isWordChar] at word

theorem LinksForm.stops {start ending : Ending}
    {links : List (Connective × Binding)} {written rest : List Char}
    (linksForm : LinksForm start links ending written)
    (stops : ending.Stops rest) : start.Stops (written ++ rest) := by
  cases linksForm with
  | nil => exact stops
  | cons gapBefore =>
      rw [List.append_assoc]
      exact gapBefore.stops

/-- A connective and the comparison behind it. -/
def Parser.link : Parser (Connective × Binding) :=
  connective.seq (named .comparison binding)

theorem Parser.link_shrinks : Shrinks link :=
  connective_shrinks.seq binding_reads.shrinks

theorem Parser.link_read_eq_none {rest : List Char} (closes : Closes rest) :
    link.read (skipGap rest) = none := by
  cases taken : link.read (skipGap rest) with
  | none => rfl
  | some result =>
      obtain ⟨⟨connective, binding⟩, behind⟩ := result
      obtain ⟨middle, connectiveTaken, -⟩ := read_seq.mp taken
      obtain ⟨front, -⟩ := connective_read.mp connectiveTaken
      have word := connective.startsWord.append middle
      rw [← front] at word
      exact absurd word closes.not_startsWord

theorem linksForm_of_repeats {start : Ending}
    {links : List (Connective × Binding)} {cs rest : List Char}
    (repeats : Repeats Parser.link cs links rest) (stops : start.Stops cs) :
    ∃ ending written, LinksForm start links ending written ∧
      cs = written ++ rest ∧ ending.Stops rest := by
  -- How the text before a link ended decides which gap the link needs, so the
  -- ending is carried along.
  induction repeats generalizing start with
  | stop => exact ⟨start, [], .nil, rfl, stops⟩
  | @step link links cs middle rest taken others ih =>
      obtain ⟨connective, binding⟩ := link
      simp only [Parser.link, Parser.read_seq, Parser.read_named] at taken
      obtain ⟨_, connectiveTaken, bindingTaken⟩ := taken
      obtain ⟨before, blank, rfl, stops'⟩ :=
        Parser.connective_read_behind.mp connectiveTaken
      obtain ⟨after, _, written, blank', bindingForm, rfl, stops''⟩ :=
        Parser.binding_reads.sound_behind bindingTaken
      obtain ⟨ending, further, linksForm, rfl, stopped⟩ := ih stops''
      have gapBefore := stops.parts blank (connective.startsWord.append _)
      have gapAfter := stops'.parts blank' (bindingForm.startsWord.append _)
      exact ⟨ending, _, .cons gapBefore (ConnectiveForm.iff_eq_word.mpr rfl)
        gapAfter bindingForm linksForm, by simp, stopped⟩

theorem LinksForm.repeats {start ending : Ending}
    {links : List (Connective × Binding)} {written rest : List Char}
    (linksForm : LinksForm start links ending written) (closes : Closes rest) :
    Repeats Parser.link (written ++ rest) links rest := by
  induction linksForm with
  | nil => exact .stop (Parser.link_read_eq_none closes)
  | cons gapBefore connectiveForm gapAfter bindingForm linksForm ih =>
      refine Repeats.step ?_ ih
      rw [ConnectiveForm.iff_eq_word.mp connectiveForm]
      simp only [Parser.link, Parser.read_seq, Parser.read_named,
        List.append_assoc]
      exact ⟨_, Parser.connective_read_behind.mpr
        ⟨_, gapBefore.blank, rfl, gapAfter.stops⟩,
        Parser.binding_reads.complete_behind gapAfter.blank bindingForm
          (linksForm.stops (closes.stops _))⟩

theorem ConditionForm.startsWord {chain : Chain Binding} {ending : Ending}
    {written : List Char} (conditionForm : ConditionForm chain ending written) :
    StartsWord written := by
  obtain ⟨bindingForm, -⟩ := conditionForm
  exact bindingForm.startsWord.append _

theorem Parser.condition_takes :
    Takes Parser.condition ConditionForm Closes where
  solid conditionForm := conditionForm.startsWord.solid
  sound := by
    intro chain cs rest taken
    simp only [Parser.condition, read_named, read_map, read_seq] at taken
    obtain ⟨_, ⟨middle, firstTaken, linksTaken⟩, rfl⟩ := taken
    obtain ⟨_, written, bindingForm, rfl, stops⟩ :=
      binding_reads.sound firstTaken
    obtain ⟨behind, repeats, same⟩ :=
      ((read_many link_shrinks).mp linksTaken).of_skipGap
    obtain ⟨ending, others, linksForm, rfl, stopped⟩ :=
      linksForm_of_repeats repeats stops
    exact ⟨ending, _, behind, .mk bindingForm linksForm, by simp, stopped,
      same⟩
  complete := by
    rintro _ ending _ behind ⟨bindingForm, linksForm⟩ stops closes
    obtain ⟨rest, repeats, same⟩ := (linksForm.repeats closes).skipGap
    refine ⟨rest, ?_, same⟩
    simp only [Parser.condition, read_named, read_map, read_seq,
      List.append_assoc]
    exact ⟨(_, _), ⟨_, binding_reads.complete bindingForm
      (linksForm.stops stops), (read_many link_shrinks).mpr repeats⟩, rfl⟩

/-- Behind a gap no comma follows. -/
def NoComma (rest : List Char) : Prop :=
  ∀ c ∈ (skipGap rest).head?, c ≠ ','

theorem noComma_of_startsWord {rest : List Char}
    (word : StartsWord (skipGap rest)) : NoComma rest := by
  rintro c front rfl
  rw [Option.mem_def] at front
  simp [StartsWord, front, isWordChar] at word

theorem noComma_bracket {gap : List Char} (blank : Gap gap)
    (rest : List Char) : NoComma (gap ++ ')' :: rest) := by
  have front : skipGap (gap ++ ')' :: rest) = ')' :: rest :=
    (skipGap_eq_sign ')' rfl).mpr ⟨gap, blank, rfl⟩
  simp [NoComma, front]

theorem Closes.noComma {rest : List Char} (closes : Closes rest) :
    NoComma rest := by
  rintro c front rfl
  exact absurd (closes _ front) (by decide)

section Rows

variable {part : Parser α} {form : Form α}

/-- A comma and the item behind it. -/
def Parser.further (part : Parser α) : Parser α :=
  (literal ",").keepRight part

theorem Reads.further_shrinks (reads : Reads part form) :
    Shrinks (Parser.further part) := by
  have comma : Shrinks (Parser.literal ",") := by
    intro cs _ rest taken
    simp [Parser.read_literal.mp taken]
  exact (comma.seq reads.shrinks).map Prod.snd

theorem Reads.rowForm_of_repeats (reads : Reads part form)
    {item : α} {items : List α} {ending : Ending}
    {written cs rest : List Char} (itemForm : form item ending written)
    (repeats : Repeats (Parser.further part) cs items rest)
    (stops : ending.Stops cs) :
    ∃ ending' others, RowForm form (item :: items) ending' (written ++ others) ∧
      cs = others ++ rest ∧ ending'.Stops rest := by
  induction repeats generalizing item ending written with
  | stop =>
      exact ⟨ending, [], by simpa using RowForm.one itemForm, rfl, stops⟩
  | step taken others ih =>
      simp only [Parser.further, Parser.read_keepRight,
        Parser.read_literal] at taken
      obtain ⟨-, _, sign, itemTaken⟩ := taken
      obtain ⟨before, blank, rfl⟩ := (skipGap_eq_sign ',' rfl).mp sign
      obtain ⟨after, _, written', blank', itemForm', rfl, stops'⟩ :=
        reads.sound_behind itemTaken
      obtain ⟨ending', others, rowForm, rfl, stopped⟩ := ih itemForm' stops'
      exact ⟨ending', _, .cons itemForm blank blank' rowForm, by simp, stopped⟩

theorem Parser.further_read_eq_none {rest : List Char}
    (noComma : NoComma rest) : (further part).read (skipGap rest) = none := by
  cases taken : (further part).read (skipGap rest) with
  | none => rfl
  | some result =>
      obtain ⟨_, _, sign, -⟩ := read_keepRight.mp taken
      have front : skipGap rest = ',' :: _ := read_literal.mp sign
      simp [NoComma, front] at noComma

theorem RowForm.front {items : List α} {ending : Ending}
    {written : List Char} (rowForm : RowForm form items ending written) :
    ∃ item middle first others, form item middle first ∧
      written = first ++ others := by
  cases rowForm with
  | one itemForm => exact ⟨_, _, _, [], itemForm, by simp⟩
  | cons itemForm => exact ⟨_, _, _, _, itemForm, rfl⟩

theorem Reads.rowForm_solid (reads : Reads part form)
    {items : List α} {ending : Ending} {written : List Char}
    (rowForm : RowForm form items ending written) : Solid written := by
  obtain ⟨_, _, first, others, itemForm, rfl⟩ := rowForm.front
  exact (reads.solid itemForm).append others

theorem Reads.repeats_of_rowForm (reads : Reads part form)
    {items : List α} {ending : Ending} {written rest : List Char}
    (rowForm : RowForm form items ending written) (stops : ending.Stops rest)
    (noComma : NoComma rest) :
    ∃ first others middle, items = first :: others ∧
      part.read (written ++ rest) = some (first, middle) ∧
      Repeats (Parser.further part) middle others rest := by
  induction rowForm with
  | one itemForm =>
      exact ⟨_, [], rest, rfl, reads.complete itemForm stops,
        .stop (Parser.further_read_eq_none noComma)⟩
  | @cons item items _ _ written before after others itemForm gapBefore
      gapAfter rowForm ih =>
      obtain ⟨first, _, middle, rfl, taken, repeats⟩ := ih stops
      refine ⟨item, _, before ++ ',' :: (after ++ (others ++ rest)), rfl, ?_,
        .step ?_ repeats⟩
      · simp only [List.append_assoc, List.cons_append]
        exact reads.complete itemForm (Ending.stops_sign gapBefore rfl)
      · simp only [Parser.further, Parser.read_keepRight, Parser.read_literal]
        refine ⟨(), after ++ (others ++ rest),
          (skipGap_eq_sign ',' rfl).mpr ⟨_, gapBefore, rfl⟩, ?_⟩
        rwa [gapAfter.skipGap_solid (reads.rowForm_solid rowForm)]

theorem Reads.separated (reads : Reads part form) :
    Takes (Parser.separated part ",") (RowForm form) NoComma where
  solid := reads.rowForm_solid
  sound := by
    intro items cs rest taken
    simp only [Parser.separated, Parser.read_map, Parser.read_seq] at taken
    obtain ⟨_, ⟨middle, firstTaken, othersTaken⟩, rfl⟩ := taken
    obtain ⟨_, written, itemForm, rfl, stops⟩ := reads.sound firstTaken
    obtain ⟨behind, repeats, same⟩ :=
      ((Parser.read_many reads.further_shrinks).mp othersTaken).of_skipGap
    obtain ⟨ending, others, rowForm, rfl, stopped⟩ :=
      reads.rowForm_of_repeats itemForm repeats stops
    exact ⟨ending, _, behind, rowForm, by simp, stopped, same⟩
  complete := by
    intro items ending written behind rowForm stops noComma
    obtain ⟨first, others, middle, rfl, taken, repeats⟩ :=
      reads.repeats_of_rowForm rowForm stops noComma
    obtain ⟨rest, repeats, same⟩ := repeats.skipGap
    refine ⟨rest, ?_, same⟩
    simp only [Parser.separated, Parser.read_map, Parser.read_seq]
    exact ⟨(first, others), ⟨middle, taken,
      (Parser.read_many reads.further_shrinks).mpr repeats⟩, rfl⟩

end Rows

private theorem Parser.star_read_eq_none {cs : List Char}
    (word : StartsWord cs) :
    ((named .star (literal "*")).map fun _ => Names.star).read cs = none := by
  cases cs with
  | nil => rfl
  | cons c cs =>
      have different : ¬ '*' = c := by
        rintro rfl
        simp [StartsWord, isWordChar] at word
      simp [map, literal, dropPrefix?, different]

theorem Parser.names_takes : Takes Parser.names NamesForm NoComma where
  solid := by
    rintro _ _ _ (_ | rowForm)
    · rfl
    · exact name_reads.rowForm_solid rowForm
  sound := by
    intro names cs rest taken
    simp only [Parser.names, read_named, read_orElse, read_map,
      read_literal] at taken
    rcases taken with ⟨-, rfl, rfl⟩ | ⟨-, names, taken, rfl⟩
    · exact ⟨.closed, ['*'], rest, .star, rfl, Ending.closed_stops, rfl⟩
    · obtain ⟨ending, written, behind, rowForm, rfl, stops, same⟩ :=
        name_reads.separated.sound taken
      exact ⟨ending, written, behind, .list rowForm, rfl, stops, same⟩
  complete := by
    rintro _ _ _ behind (_ | rowForm) stops noComma
    all_goals simp only [Parser.names, read_named, read_orElse]
    · exact ⟨behind, .inl rfl, rfl⟩
    · obtain ⟨rest, taken, same⟩ :=
        name_reads.separated.complete rowForm stops noComma
      refine ⟨rest, .inr ⟨?_, read_map.mpr ⟨_, taken, rfl⟩⟩, same⟩
      obtain ⟨_, _, first, others, nameForm, rfl⟩ := rowForm.front
      have word := (nameForm.startsWord.append others).append behind
      exact star_read_eq_none word

theorem Parser.read_whole {symbol : Symbol} {part : Parser α}
    {cs rest : List Char} {value : α} :
    (whole symbol part).read cs = some (value, rest) ↔
      ∃ behind, part.read (skipGap cs) = some (value, behind) ∧
        Gap behind ∧ rest = [] := by
  simp only [whole, read_named, read_keepLeft, read_endOfInput, skipGap_eq_nil,
    exists_const]

theorem Parser.whereClause_read {condition : Option (Chain Binding)}
    {cs rest : List Char} :
    whereClause.read cs = some (condition, rest) ↔
      ClauseForm condition cs ∧ rest = [] := by
  simp only [whereClause, read_whole, read_optional]
  constructor
  · rintro ⟨behind, ⟨chain, rfl, taken⟩ | ⟨rfl, -, rfl⟩, blank, rfl⟩
    · obtain ⟨before, ending, written, after, gapBefore, conditionForm, rfl, -,
        same⟩ := condition_takes.sound_behind taken
      have gapAfter : Gap after := by
        rwa [← skipGap_eq_nil, same, skipGap_eq_nil]
      exact ⟨.condition gapBefore conditionForm gapAfter, rfl⟩
    · refine ⟨.blank ?_, rfl⟩
      rwa [← skipGap_eq_nil, skipGap_skipGap, skipGap_eq_nil] at blank
  · rintro ⟨⟨gap⟩ | ⟨gapBefore, conditionForm, gapAfter⟩, rfl⟩
    · rw [skipGap_eq_nil.mpr gap]
      exact ⟨[], .inr ⟨rfl, condition_takes.read_nil, rfl⟩, .nil, rfl⟩
    · obtain ⟨behind, taken, same⟩ :=
        condition_takes.complete_behind gapBefore conditionForm
          (Ending.stops_gap gapAfter) (closes_of_gap gapAfter)
      refine ⟨behind, .inl ⟨_, rfl, taken⟩, ?_, rfl⟩
      rwa [← skipGap_eq_nil, same, skipGap_eq_nil]

end Cardfile.Query
