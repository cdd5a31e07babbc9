import Mathlib.Data.List.TakeWhile
import Cardfile.Proofs.Query.Forms
import Cardfile.Query.Grammar

/-!
# Parsers and forms

What the combinators read, and what it is for a parser to read a form: it takes
from the front of a text what has the form, and all that has the form is taken.
Between two parts a gap may stand, so a parser that ends with a repetition can
have skipped the gap behind what it took.
-/

namespace Cardfile.Query

variable {α β : Type}

namespace Parser

variable {cs rest : List Char}

@[simp] theorem read_named {symbol : Symbol} {part : Parser α} :
    (named symbol part).read = part.read := rfl

@[simp] theorem read_token {symbol : Symbol}
    {read : List Char → Option (α × List Char)} :
    (token symbol read).read = read := rfl

@[simp] theorem read_map {f : α → β} {part : Parser α} {value : β} :
    (part.map f).read cs = some (value, rest) ↔
      ∃ source, part.read cs = some (source, rest) ∧ f source = value := by
  simp [map]

@[simp] theorem read_seq {first : Parser α} {second : Parser β}
    {pair : α × β} :
    (first.seq second).read cs = some (pair, rest) ↔
      ∃ middle, first.read cs = some (pair.1, middle) ∧
        second.read (skipGap middle) = some (pair.2, rest) := by
  obtain ⟨left, right⟩ := pair
  cases taken : first.read cs with
  | none => simp [seq, taken]
  | some result =>
      obtain ⟨value, middle⟩ := result
      simp [seq, taken]
      grind

@[simp] theorem read_keepLeft {first : Parser α} {second : Parser β}
    {value : α} :
    (first.keepLeft second).read cs = some (value, rest) ↔
      ∃ middle, first.read cs = some (value, middle) ∧
        ∃ other, second.read (skipGap middle) = some (other, rest) := by
  simp [keepLeft]
  grind

@[simp] theorem read_keepRight {first : Parser α} {second : Parser β}
    {value : β} :
    (first.keepRight second).read cs = some (value, rest) ↔
      ∃ other middle, first.read cs = some (other, middle) ∧
        second.read (skipGap middle) = some (value, rest) := by
  simp [keepRight]

theorem read_orElse {first second : Parser α} {value : α} :
    (first.orElse second).read cs = some (value, rest) ↔
      first.read cs = some (value, rest) ∨
        first.read cs = none ∧ second.read cs = some (value, rest) := by
  cases taken : first.read cs <;> simp [orElse, taken]

theorem read_optional {part : Parser α} {value : Option α} :
    (optional part).read cs = some (value, rest) ↔
      (∃ found, value = some found ∧ part.read cs = some (found, rest)) ∨
        value = none ∧ part.read cs = none ∧ rest = cs := by
  cases taken : part.read cs <;> simp [optional, taken]
  all_goals grind

@[simp] theorem read_endOfInput {value : Unit} :
    endOfInput.read cs = some (value, rest) ↔ cs = [] ∧ rest = [] := by
  cases cs <;> cases rest <;> simp [endOfInput]

end Parser

theorem dropPrefix?_eq_some {expected cs rest : List Char} :
    dropPrefix? expected cs = some rest ↔ cs = expected ++ rest := by
  induction expected generalizing cs with
  | nil => simp [dropPrefix?]
  | cons c more ih =>
      cases cs with
      | nil => simp [dropPrefix?]
      | cons d cs =>
          by_cases same : c = d
          · simp [dropPrefix?, same, ih]
          · simp [dropPrefix?, same, Ne.symm same]

@[simp] theorem Parser.read_literal {text : String} {value : Unit}
    {cs rest : List Char} :
    (literal text).read cs = some (value, rest) ↔
      cs = text.toList ++ rest := by
  simp [literal, dropPrefix?_eq_some]

/-- A text that starts with the first character of a word. -/
def StartsWord (cs : List Char) : Prop :=
  cs.head?.any isWordChar = true

/-- A text that starts with something other than a gap. -/
def Solid (cs : List Char) : Prop :=
  cs.head?.any (fun c => !isGap c) = true

theorem isGap_eq_true {c : Char} :
    isGap c = true ↔ c = ' ' ∨ c = '\t' ∨ c = '\r' ∨ c = '\n' := by
  simp [isGap, or_assoc]

theorem gap_iff {cs : List Char} : Gap cs ↔ ∀ c ∈ cs, isGap c = true := by
  simp [Gap, isGap_eq_true]

theorem Gap.isGap {gap : List Char} (blank : Gap gap) {c : Char}
    (member : c ∈ gap) : isGap c = true :=
  gap_iff.mp blank c member

theorem isWordChar_of_isGap {c : Char} (gap : isGap c = true) :
    isWordChar c = false := by
  rcases isGap_eq_true.mp gap with rfl | rfl | rfl | rfl <;> decide

theorem isGap_of_isWordChar {c : Char} (word : isWordChar c = true) :
    isGap c = false := by
  cases gap : isGap c with
  | false => rfl
  | true => simp [isWordChar_of_isGap gap] at word

theorem isBareChar_of_isWordChar {c : Char} (word : isWordChar c = true) :
    isBareChar c = true := by
  have notSign : c ∉ ['\'', ',', '(', ')', ';', '='] := by
    intro sign
    simp only [List.mem_cons, List.not_mem_nil, or_false] at sign
    rcases sign with rfl | rfl | rfl | rfl | rfl | rfl <;>
      exact absurd word (by decide)
  simpa [isBareChar, isGap_of_isWordChar word] using notSign

theorem StartsWord.solid {cs : List Char} (word : StartsWord cs) :
    Solid cs := by
  cases cs with
  | nil => simp [StartsWord] at word
  | cons c cs =>
      have word : isWordChar c = true := by simpa [StartsWord] using word
      simp [Solid, isGap_of_isWordChar word]

theorem StartsWord.append {cs : List Char} (word : StartsWord cs)
    (rest : List Char) : StartsWord (cs ++ rest) := by
  cases cs with
  | nil => simp [StartsWord] at word
  | cons c cs => exact word

theorem Solid.append {cs : List Char} (solid : Solid cs)
    (rest : List Char) : Solid (cs ++ rest) := by
  cases cs with
  | nil => simp [Solid] at solid
  | cons c cs => exact solid

@[simp] theorem Gap.nil : Gap [] := by
  simp [Gap]

theorem exists_gap (cs : List Char) :
    ∃ gap, Gap gap ∧ cs = gap ++ skipGap cs := by
  refine ⟨cs.takeWhile isGap, gap_iff.mpr ?_,
    List.takeWhile_append_dropWhile.symm⟩
  exact List.all_eq_true.mp List.all_takeWhile

theorem Gap.skipGap_append {gap : List Char} (blank : Gap gap)
    (cs : List Char) : skipGap (gap ++ cs) = skipGap cs :=
  List.dropWhile_append_of_pos (gap_iff.mp blank)

theorem skipGap_eq_nil {cs : List Char} : skipGap cs = [] ↔ Gap cs :=
  List.dropWhile_eq_nil_iff.trans gap_iff.symm

@[simp] theorem skipGap_skipGap (cs : List Char) :
    skipGap (skipGap cs) = skipGap cs := by
  obtain ⟨gap, blank, split⟩ := exists_gap cs
  rw [← blank.skipGap_append, ← split]

theorem skipGap_eq {cs front : List Char} (solid : Solid front) :
    skipGap cs = front ↔ ∃ gap, Gap gap ∧ cs = gap ++ front := by
  constructor
  · rintro rfl
    exact exists_gap cs
  · rintro ⟨gap, blank, rfl⟩
    rw [blank.skipGap_append]
    cases front with
    | nil => rfl
    | cons c front =>
        have free : isGap c = false := by simpa [Solid] using solid
        simp [skipGap, free]

theorem Gap.skipGap_solid {gap cs : List Char} (blank : Gap gap)
    (solid : Solid cs) (rest : List Char) :
    skipGap (gap ++ (cs ++ rest)) = cs ++ rest :=
  (skipGap_eq (solid.append rest)).mpr ⟨gap, blank, rfl⟩

/-- The characters that end whatever stands before them. -/
def isSign (c : Char) : Bool :=
  ['=', ',', '(', ')', ';'].contains c

theorem isSign_eq_true {c : Char} :
    isSign c = true ↔ c = '=' ∨ c = ',' ∨ c = '(' ∨ c = ')' ∨ c = ';' := by
  simp [isSign]

theorem skipGap_eq_sign (c : Char) (sign : isSign c = true)
    {cs rest : List Char} :
    skipGap cs = c :: rest ↔ ∃ gap, Gap gap ∧ cs = gap ++ c :: rest := by
  apply skipGap_eq
  rcases isSign_eq_true.mp sign with rfl | rfl | rfl | rfl | rfl <;> rfl

section Repetitions

variable {part : Parser α}

/-- What is left after as many parts as can be read. -/
inductive Repeats (part : Parser α) : List Char → List α → List Char → Prop
    where
  | stop {cs : List Char} (failed : part.read (skipGap cs) = none) :
      Repeats part cs [] cs
  | step {value : α} {values : List α} {cs middle rest : List Char}
      (taken : part.read (skipGap cs) = some (value, middle))
      (others : Repeats part middle values rest) :
      Repeats part cs (value :: values) rest

/-- A part that takes a character at least. -/
def Shrinks (part : Parser α) : Prop :=
  ∀ cs value rest, part.read cs = some (value, rest) → rest.length < cs.length

theorem length_skipGap_le (cs : List Char) :
    (skipGap cs).length ≤ cs.length :=
  (List.dropWhile_sublist _).length_le

theorem Shrinks.seq {second : Parser β} (left : Shrinks part)
    (right : Shrinks second) : Shrinks (part.seq second) := by
  intro cs pair rest taken
  obtain ⟨middle, before, after⟩ := Parser.read_seq.mp taken
  have shorter := left _ _ _ before
  have fits := length_skipGap_le middle
  have shortest := right _ _ _ after
  omega

theorem Shrinks.map (shrinks : Shrinks part) (f : α → β) :
    Shrinks (part.map f) := by
  intro cs value rest taken
  obtain ⟨source, before, -⟩ := Parser.read_map.mp taken
  exact shrinks _ _ _ before

theorem repeats_readMany (shrinks : Shrinks part) {count : Nat}
    {cs : List Char} (enough : cs.length ≤ count) :
    Repeats part cs (part.readMany count cs).1 (part.readMany count cs).2 := by
  induction count generalizing cs with
  | zero =>
      have empty : cs = [] := List.eq_nil_of_length_eq_zero (by omega)
      subst empty
      apply Repeats.stop
      cases taken : part.read (skipGap []) with
      | none => rfl
      | some result => exact absurd (shrinks _ _ _ taken) (by simp [skipGap])
  | succ count ih =>
      cases taken : part.read (skipGap cs) with
      | none => simpa [Parser.readMany, taken] using Repeats.stop taken
      | some result =>
          have shorter := shrinks _ _ _ taken
          have fits := length_skipGap_le cs
          simpa [Parser.readMany, taken] using
            Repeats.step taken (ih (by omega))

theorem Repeats.unique {cs rest rest' : List Char} {values values' : List α}
    (left : Repeats part cs values rest)
    (right : Repeats part cs values' rest') :
    values = values' ∧ rest = rest' := by
  induction left generalizing values' rest' with
  | stop failed =>
      cases right with
      | stop => exact ⟨rfl, rfl⟩
      | step taken => simp [failed] at taken
  | step taken others ih =>
      cases right with
      | stop failed => simp [failed] at taken
      | step taken' others' =>
          obtain ⟨rfl, rfl⟩ : _ ∧ _ := by simpa [taken] using taken'
          obtain ⟨rfl, rfl⟩ := ih others'
          exact ⟨rfl, rfl⟩

theorem Parser.read_many (shrinks : Shrinks part) {cs rest : List Char}
    {values : List α} :
    (many part).read cs = some (values, rest) ↔
      Repeats part cs values rest := by
  have found := repeats_readMany shrinks (Nat.le_refl cs.length)
  constructor
  · intro taken
    simp only [many, Option.some.injEq] at taken
    simpa [taken] using found
  · intro repeats
    obtain ⟨sameValues, sameRest⟩ := found.unique repeats
    simp [many, ← sameValues, ← sameRest]

theorem Repeats.of_skipGap {cs rest : List Char} {values : List α}
    (repeats : Repeats part (Query.skipGap cs) values rest) :
    ∃ behind, Repeats part cs values behind ∧
      Query.skipGap behind = Query.skipGap rest := by
  cases repeats with
  | stop failed => exact ⟨cs, .stop (by simpa using failed), by simp⟩
  | step taken others =>
      exact ⟨rest, .step (by simpa using taken) others, rfl⟩

theorem Repeats.skipGap {cs behind : List Char} {values : List α}
    (repeats : Repeats part cs values behind) :
    ∃ rest, Repeats part (Query.skipGap cs) values rest ∧
      Query.skipGap rest = Query.skipGap behind := by
  cases repeats with
  | stop failed =>
      exact ⟨Query.skipGap cs, .stop (by simpa using failed), by simp⟩
  | step taken others =>
      exact ⟨behind, .step (by simpa using taken) others, rfl⟩

end Repetitions

namespace Ending

/-- The characters that would belong to what is written if they followed. -/
def extends? : Ending → Char → Bool
  | .closed, _ => false
  | .word, c => isWordChar c
  | .bare, c => isBareChar c

/-- What follows does not belong to what is written. -/
def Stops (ending : Ending) (rest : List Char) : Prop :=
  ∀ c ∈ rest.head?, ending.extends? c = false

variable {ending : Ending} {c : Char} {gap rest : List Char}

theorem extends?_of_isGap (isGap : isGap c = true) :
    ending.extends? c = false := by
  cases ending with
  | closed => rfl
  | word => exact isWordChar_of_isGap isGap
  | bare => simp [extends?, isBareChar, isGap]

theorem extends?_of_isSign (sign : isSign c = true) :
    ending.extends? c = false := by
  rcases isSign_eq_true.mp sign with rfl | rfl | rfl | rfl | rfl <;>
    cases ending <;> decide

theorem extends?_of_isWordChar (ending : Ending) (word : isWordChar c = true) :
    ending = .closed ∨ ending.extends? c = true := by
  cases ending with
  | closed => exact .inl rfl
  | word => exact .inr word
  | bare => exact .inr (isBareChar_of_isWordChar word)

@[simp] theorem stops_nil : ending.Stops [] := by
  simp [Stops]

@[simp] theorem stops_cons :
    ending.Stops (c :: rest) ↔ ending.extends? c = false := by
  simp [Stops]

@[simp] theorem closed_stops : closed.Stops rest :=
  fun _ _ => rfl

theorem Stops.behind (stops : ending.Stops rest) (blank : Gap gap) :
    ending.Stops (gap ++ rest) := by
  cases gap with
  | nil => exact stops
  | cons c gap => simp [extends?_of_isGap (blank.isGap List.mem_cons_self)]

theorem stops_gap (blank : Gap gap) : ending.Stops gap := by
  cases gap with
  | nil => exact stops_nil
  | cons c gap => simp [extends?_of_isGap (blank.isGap List.mem_cons_self)]

theorem stops_sign (blank : Gap gap) (sign : isSign c = true) :
    ending.Stops (gap ++ c :: rest) :=
  Stops.behind (by simp [extends?_of_isSign sign]) blank

theorem Parts.stops (parts : ending.Parts gap) :
    ending.Stops (gap ++ rest) := by
  obtain ⟨blank, rfl | some⟩ := parts
  · exact closed_stops
  · cases gap with
    | nil => contradiction
    | cons c gap => simp [extends?_of_isGap (blank.isGap List.mem_cons_self)]

theorem Stops.parts (stops : ending.Stops (gap ++ rest)) (blank : Gap gap)
    (word : StartsWord rest) : ending.Parts gap := by
  refine ⟨blank, ?_⟩
  cases gap with
  | cons c gap => exact .inr (by simp)
  | nil =>
      cases rest with
      | nil => simp [StartsWord] at word
      | cons c rest =>
          have word : isWordChar c = true := by simpa [StartsWord] using word
          have free : ending.extends? c = false := by simpa using stops
          simpa [free] using ending.extends?_of_isWordChar word

end Ending

section Forms

variable {part : Parser α} {form : Form α} {fit : List Char → Prop}

/-- A parser takes what has a form from the front of a text, and nothing of
what follows. -/
structure Reads (part : Parser α) (form : Form α) : Prop where
  solid {value : α} {ending : Ending} {written : List Char} :
    form value ending written → Solid written
  sound {value : α} {cs rest : List Char} :
    part.read cs = some (value, rest) →
      ∃ ending written, form value ending written ∧ cs = written ++ rest ∧
        ending.Stops rest
  complete {value : α} {ending : Ending} {written rest : List Char} :
    form value ending written → ending.Stops rest →
      part.read (written ++ rest) = some (value, rest)

/-- A parser takes what has a form, and perhaps the gap behind it, if what
follows is fit to follow. -/
structure Takes (part : Parser α) (form : Form α) (fit : List Char → Prop) :
    Prop where
  solid {value : α} {ending : Ending} {written : List Char} :
    form value ending written → Solid written
  sound {value : α} {cs rest : List Char} :
    part.read cs = some (value, rest) →
      ∃ ending written behind, form value ending written ∧
        cs = written ++ behind ∧ ending.Stops behind ∧
        skipGap behind = skipGap rest
  complete {value : α} {ending : Ending} {written behind : List Char} :
    form value ending written → ending.Stops behind → fit behind →
      ∃ rest, part.read (written ++ behind) = some (value, rest) ∧
        skipGap rest = skipGap behind

theorem Reads.named (reads : Reads part form) (symbol : Symbol) :
    Reads (Parser.named symbol part) form :=
  ⟨reads.solid, reads.sound, reads.complete⟩

theorem Takes.named (takes : Takes part form fit) (symbol : Symbol) :
    Takes (Parser.named symbol part) form fit :=
  ⟨takes.solid, takes.sound, takes.complete⟩

theorem Reads.shrinks (reads : Reads part form) : Shrinks part := by
  intro cs value rest taken
  obtain ⟨ending, written, hasForm, rfl, -⟩ := reads.sound taken
  have solid := reads.solid hasForm
  cases written with
  | nil => simp [Solid] at solid
  | cons =>
      simp only [List.length_append, List.length_cons]
      omega

theorem Takes.read_nil (takes : Takes part form fit) :
    part.read [] = none := by
  cases taken : part.read [] with
  | none => rfl
  | some result =>
      obtain ⟨_, written, _, hasForm, front, -⟩ := takes.sound taken
      obtain ⟨rfl, -⟩ := List.append_eq_nil_iff.mp front.symm
      exact absurd (takes.solid hasForm) (by simp [Solid])

section Behind

variable {value : α} {ending : Ending} {gap written cs rest : List Char}

theorem Reads.sound_behind (reads : Reads part form)
    (taken : part.read (skipGap cs) = some (value, rest)) :
    ∃ gap ending written, Gap gap ∧ form value ending written ∧
      cs = gap ++ (written ++ rest) ∧ ending.Stops rest := by
  obtain ⟨gap, blank, split⟩ := exists_gap cs
  obtain ⟨ending, written, hasForm, same, stops⟩ := reads.sound taken
  exact ⟨gap, ending, written, blank, hasForm, same ▸ split, stops⟩

theorem Reads.complete_behind (reads : Reads part form) (blank : Gap gap)
    (hasForm : form value ending written) (stops : ending.Stops rest) :
    part.read (skipGap (gap ++ (written ++ rest))) = some (value, rest) := by
  rw [blank.skipGap_solid (reads.solid hasForm)]
  exact reads.complete hasForm stops

theorem Takes.sound_behind (takes : Takes part form fit)
    (taken : part.read (skipGap cs) = some (value, rest)) :
    ∃ gap ending written behind, Gap gap ∧ form value ending written ∧
      cs = gap ++ (written ++ behind) ∧ ending.Stops behind ∧
      skipGap behind = skipGap rest := by
  obtain ⟨gap, blank, split⟩ := exists_gap cs
  obtain ⟨ending, written, behind, hasForm, front, stops, same⟩ :=
    takes.sound taken
  exact ⟨gap, ending, written, behind, blank, hasForm, front ▸ split, stops,
    same⟩

theorem Takes.complete_behind (takes : Takes part form fit) (blank : Gap gap)
    (hasForm : form value ending written) (stops : ending.Stops cs)
    (fits : fit cs) :
    ∃ rest, part.read (skipGap (gap ++ (written ++ cs))) = some (value, rest) ∧
      skipGap rest = skipGap cs := by
  rw [blank.skipGap_solid (takes.solid hasForm)]
  exact takes.complete hasForm stops fits

end Behind

end Forms

end Cardfile.Query
