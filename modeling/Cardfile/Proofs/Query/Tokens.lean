import Cardfile.Proofs.Query.Reading

/-!
# Reading names, values and words

The parts without parts of their own.  A bare value and a word take as much as
they can, so what ends them is what follows.
-/

namespace Cardfile.Query

section Runs

variable {p : Char → Bool} {run rest : List Char}

private theorem takeWhile_run (inside : ∀ c ∈ run, p c = true)
    (outside : ∀ c ∈ rest.head?, p c = false) :
    (run ++ rest).takeWhile p = run := by
  rw [List.takeWhile_append_of_pos inside]
  cases rest with
  | nil => simp
  | cons c rest => simp [outside c (by simp)]

private theorem dropWhile_run (inside : ∀ c ∈ run, p c = true)
    (outside : ∀ c ∈ rest.head?, p c = false) :
    (run ++ rest).dropWhile p = rest := by
  rw [List.dropWhile_append_of_pos inside]
  cases rest with
  | nil => rfl
  | cons c rest => simp [outside c (by simp)]

private theorem head?_dropWhile (cs : List Char) :
    ∀ c ∈ (cs.dropWhile p).head?, p c = false := by
  intro c front
  have stopped := List.head?_dropWhile_not p cs
  rw [Option.mem_def.mp front] at stopped
  simpa using stopped

end Runs

theorem isNameStart_eq_true {c : Char} :
    isNameStart c = true ↔ c.isAlpha = true ∨ c = '_' := by
  simp [isNameStart]

theorem isWordChar_eq_true {c : Char} :
    isWordChar c = true ↔ c.isAlphanum = true ∨ c = '_' := by
  simp [isWordChar]

theorem isBareChar_eq_true {c : Char} :
    isBareChar c = true ↔
      c ∉ [' ', '\t', '\r', '\n', '\'', ',', '(', ')', ';', '='] := by
  simp [isBareChar, isGap, and_assoc]

theorem NameForm.of_words {first : Char} {others : List Char}
    (start : isNameStart first = true)
    (words : others.all isWordChar = true) :
    NameForm (String.ofList (first :: others)) .word (first :: others) := by
  refine .mk (isNameStart_eq_true.mp start) ?_
  intro other member
  exact isWordChar_eq_true.mp (List.all_eq_true.mp words other member)

theorem NameForm.startsWord {name : String} {ending : Ending}
    {written : List Char} (nameForm : NameForm name ending written) :
    StartsWord written := by
  obtain ⟨start, -⟩ := nameForm
  rcases start with letter | rfl
  · simp [StartsWord, isWordChar, Char.isAlphanum, letter]
  · rfl

namespace Parser

theorem name_reads : Reads name NameForm where
  solid nameForm := nameForm.startsWord.solid
  sound := by
    intro value cs rest taken
    cases cs with
    | nil => simp [name, readName] at taken
    | cons c cs =>
        simp only [name, read_token, readName, Option.ite_none_right_eq_some,
          Option.some.injEq, Prod.mk.injEq] at taken
        obtain ⟨start, rfl, rfl⟩ := taken
        exact ⟨.word, c :: cs.takeWhile isWordChar,
          .of_words start List.all_takeWhile, by simp, head?_dropWhile cs⟩
  complete := by
    rintro _ _ _ rest ⟨start, words⟩ stops
    simp only [← isNameStart_eq_true, ← isWordChar_eq_true] at start words
    simp [name, readName, start, takeWhile_run words stops,
      dropWhile_run words stops]

private theorem readQuoted_eq_some {cs rest : List Char} {value : String} :
    readQuoted cs = some (value, rest) ↔
      ∃ text, '\'' ∉ text ∧ value = String.ofList text ∧
        cs = '\'' :: (text ++ '\'' :: rest) := by
  constructor
  · intro taken
    unfold readQuoted at taken
    split at taken
    case h_2 => simp at taken
    case h_1 cs =>
      have whole : cs.takeWhile (· != '\'') ++ cs.dropWhile (· != '\'') = cs :=
        List.takeWhile_append_dropWhile
      have stopped := head?_dropWhile (p := (· != '\'')) cs
      split at taken
      case h_2 => simp at taken
      case h_1 c behind dropped =>
        obtain ⟨rfl, rfl⟩ : _ ∧ _ := by simpa using taken
        have quote : c = '\'' := by simpa [dropped] using stopped
        refine ⟨cs.takeWhile (· != '\''), ?_, rfl, ?_⟩
        · intro mem
          simpa using List.all_eq_true.mp List.all_takeWhile _ mem
        · subst quote
          rw [← dropped, whole]
  · rintro ⟨text, free, rfl, rfl⟩
    have inside : ∀ c ∈ text, (c != '\'') = true := by
      rintro c mem
      simp only [bne_iff_ne]
      rintro rfl
      exact free mem
    have outside : ∀ c ∈ ('\'' :: rest).head?, (c != '\'') = false := by
      simp
    simp only [readQuoted, takeWhile_run inside outside,
      dropWhile_run inside outside]

private theorem readBare_eq_some {cs rest : List Char} {value : String} :
    readBare cs = some (value, rest) ↔
      ∃ text, ValueForm value .bare text ∧ Ending.bare.Stops rest ∧
        cs = text ++ rest := by
  constructor
  · intro taken
    unfold readBare at taken
    split at taken
    case h_1 => simp at taken
    case h_2 some =>
      obtain ⟨rfl, rfl⟩ : _ ∧ _ := by simpa using taken
      refine ⟨cs.takeWhile isBareChar, .bare some ?_, head?_dropWhile cs,
        List.takeWhile_append_dropWhile.symm⟩
      intro c member
      exact isBareChar_eq_true.mp
        (List.all_eq_true.mp List.all_takeWhile c member)
  · rintro ⟨text, valueForm, stops, rfl⟩
    cases valueForm with
    | bare some legal =>
        simp only [← isBareChar_eq_true] at legal
        simp only [readBare, takeWhile_run legal stops,
          dropWhile_run legal stops]

theorem value_reads : Reads value ValueForm where
  solid := by
    rintro _ _ written (⟨free⟩ | ⟨some, legal⟩)
    · simp [Solid, isGap]
    · cases written with
      | nil => contradiction
      | cons c others =>
          have bare := isBareChar_eq_true.mpr (legal c (by simp))
          simp only [isBareChar, Bool.not_or, Bool.and_eq_true] at bare
          simpa [Solid] using bare.1
  sound := by
    intro value cs rest taken
    rcases read_orElse.mp taken with quoted | ⟨-, bare⟩
    · obtain ⟨text, free, rfl, rfl⟩ := readQuoted_eq_some.mp quoted
      exact ⟨.closed, _, .quoted free, by simp, Ending.closed_stops⟩
    · obtain ⟨text, valueForm, stops, rfl⟩ := readBare_eq_some.mp bare
      exact ⟨.bare, text, valueForm, rfl, stops⟩
  complete := by
    intro _ _ written rest hasForm stops
    simp only [value, read_orElse, read_token]
    cases hasForm with
    | quoted free =>
        left
        exact readQuoted_eq_some.mpr ⟨_, free, rfl, by simp⟩
    | bare some legal =>
        right
        refine ⟨?_, readBare_eq_some.mpr ⟨_, .bare some legal, stops, rfl⟩⟩
        cases quoted : readQuoted (written ++ rest) with
        | none => rfl
        | some result =>
            obtain ⟨text, -, -, starts⟩ := readQuoted_eq_some.mp quoted
            cases written with
            | nil => contradiction
            | cons c others =>
                obtain ⟨rfl, -⟩ : _ ∧ _ := by simpa using starts
                exact absurd (by simp) (legal '\'' (by simp))

end Parser

private theorem isWordChar_of_toLower {c : Char}
    (word : isWordChar c.toLower = true) : isWordChar c = true := by
  by_cases upper : c.isUpper = true
  · have letter : c.isAlpha = true := Bool.or_eq_true_iff.mpr (.inl upper)
    simp [isWordChar, Char.isAlphanum, letter]
  · have same : c.toLower = c :=
      dif_neg fun bounds => upper (decide_eq_true bounds)
    rwa [same] at word

theorem KeywordForm.words {word : String} {written : List Char}
    (keyword : KeywordForm word written)
    (words : ∀ c ∈ word.toList, isWordChar c = true) :
    ∀ c ∈ written, isWordChar c = true := by
  intro c member
  rw [← keyword] at words
  exact isWordChar_of_toLower (words _ (List.mem_map_of_mem member))

theorem KeywordForm.startsWord {word : String} {written : List Char}
    (keyword : KeywordForm word written) (starts : StartsWord word.toList) :
    StartsWord written := by
  rw [← keyword] at starts
  cases written with
  | nil => exact starts
  | cons c others =>
      have lowered : isWordChar c.toLower = true := by
        simpa [StartsWord] using starts
      simp [StartsWord, isWordChar_of_toLower lowered]

theorem ConnectiveForm.iff_eq_word {connective : Connective}
    {word : List Char} :
    ConnectiveForm connective word ↔ word = connective.word.toList := by
  constructor
  · intro connectiveForm
    cases connectiveForm <;> rfl
  · intro same
    rw [same]
    cases connective with
    | and => exact .and
    | or => exact .or

theorem Connective.startsWord (connective : Connective) :
    StartsWord connective.word.toList := by
  cases connective <;> rfl

namespace Parser

theorem endsWord_iff {cs : List Char} :
    endsWord cs = true ↔ Ending.word.Stops cs := by
  cases cs <;> simp [endsWord, Ending.extends?]

theorem keyword_read {symbol : Symbol} {word : String} {cs rest : List Char}
    {value : Unit} :
    (keyword symbol word).read cs = some (value, rest) ↔
      ∃ written, KeywordForm word written ∧ cs = written ++ rest ∧
        Ending.word.Stops rest := by
  simp only [keyword, read_token, readWordAnyCase, Option.map_eq_some_iff,
    Option.ite_none_right_eq_some, Option.filter_eq_some_iff, endsWord_iff,
    Option.some.injEq]
  constructor
  · rintro ⟨rest, ⟨same, rfl, stops⟩, ⟨⟩⟩
    exact ⟨cs.take word.toList.length, same, (List.take_append_drop ..).symm,
      stops⟩
  · rintro ⟨written, same, rfl, stops⟩
    have same : written.map Char.toLower = word.toList := same
    have count : word.toList.length = written.length := by
      rw [← same, List.length_map]
    exact ⟨rest, ⟨by simpa [count] using same, by simp [count], stops⟩, rfl⟩

theorem keyword_read_behind {symbol : Symbol} (word : String)
    (starts : StartsWord word.toList) {cs rest : List Char} {value : Unit} :
    (keyword symbol word).read (skipGap cs) = some (value, rest) ↔
      ∃ gap written, Gap gap ∧ KeywordForm word written ∧
        cs = gap ++ (written ++ rest) ∧ Ending.word.Stops rest := by
  rw [keyword_read]
  constructor
  · rintro ⟨written, keyword, front, stops⟩
    obtain ⟨gap, blank, split⟩ := exists_gap cs
    exact ⟨gap, written, blank, keyword, front ▸ split, stops⟩
  · rintro ⟨gap, written, blank, keyword, rfl, stops⟩
    have solid := (keyword.startsWord starts).solid
    exact ⟨written, keyword, blank.skipGap_solid solid rest, stops⟩

private theorem readWord_eq_some {word : String} {cs rest : List Char} :
    readWord word cs = some rest ↔
      cs = word.toList ++ rest ∧ Ending.word.Stops rest := by
  simp only [readWord, Option.filter_eq_some_iff, dropPrefix?_eq_some,
    endsWord_iff]

theorem connective_read {connective : Connective} {cs rest : List Char} :
    Parser.connective.read cs = some (connective, rest) ↔
      cs = connective.word.toList ++ rest ∧ Ending.word.Stops rest := by
  simp only [Parser.connective, read_orElse, read_token,
    Option.map_eq_some_iff, Option.map_eq_none_iff, readWord_eq_some]
  cases connective with
  | and => simp [Connective.word]
  | or =>
      simp [Connective.word]
      rintro rfl -
      simp [readWord, dropPrefix?]

theorem connective_read_behind {connective : Connective}
    {cs rest : List Char} :
    Parser.connective.read (skipGap cs) = some (connective, rest) ↔
      ∃ gap, Gap gap ∧ cs = gap ++ (connective.word.toList ++ rest) ∧
        Ending.word.Stops rest := by
  rw [connective_read, skipGap_eq (connective.startsWord.solid.append rest)]
  simp only [← exists_and_right, and_assoc]

theorem connective_shrinks : Shrinks Parser.connective := by
  intro cs connective rest taken
  obtain ⟨rfl, -⟩ := connective_read.mp taken
  have some : 0 < connective.word.toList.length := by
    cases connective <;> decide
  rw [List.length_append]
  omega

end Parser

end Cardfile.Query
