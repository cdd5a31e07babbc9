import Cardfile.Date.Reading
import Cardfile.Proofs.Text.Numeral

/-!
# Dates

The parts of a date have bounds.  What is read as a date is exactly a spelling
of it, between blanks: the year in four digits, the month and the day in one or
two, in either order.  A date of a year with four digits is written in one of
these spellings.
-/

namespace Cardfile.Date

open Text

theorem bounds (date : Date) :
    -262143 ≤ date.year ∧ date.year ≤ 262142 ∧ date.month ≤ 12 ∧
      date.day ≤ 31 := by
  have onCalendar := date.onCalendar
  simp only [isDay, isYear, Bool.and_eq_true, decide_eq_true_eq]
    at onCalendar
  obtain ⟨⟨⟨early, late⟩, first⟩, last⟩ := onCalendar
  refine ⟨early, late, ?_⟩
  simp only [daysInMonth] at last
  split at last
  all_goals first | omega | (split at last <;> omega)

theorem parts_of_free {mark : Char} {cs : List Char} (free : mark ∉ cs) :
    parts mark cs = [cs] := by
  induction cs with
  | nil => rfl
  | cons c cs ih =>
      simp only [List.mem_cons, not_or] at free
      obtain ⟨different, others⟩ := free
      rw [parts, if_neg (Ne.symm different), ih others]

theorem parts_append {mark : Char} {cs : List Char} (free : mark ∉ cs)
    (rest : List Char) :
    parts mark (cs ++ mark :: rest) = cs :: parts mark rest := by
  induction cs with
  | nil => rw [List.nil_append, parts, if_pos rfl]
  | cons c cs ih =>
      simp only [List.mem_cons, not_or] at free
      obtain ⟨different, others⟩ := free
      rw [List.cons_append, parts, if_neg (Ne.symm different), ih others]

theorem parts_ne_nil (mark : Char) (cs : List Char) : parts mark cs ≠ [] := by
  cases cs with
  | nil => exact List.cons_ne_nil _ _
  | cons c cs =>
      rw [parts]
      split
      · exact List.cons_ne_nil _ _
      · split <;> exact List.cons_ne_nil _ _

theorem of_parts_eq_cons {mark : Char} {cs part : List Char}
    {rest : List (List Char)} (parted : parts mark cs = part :: rest) :
    mark ∉ part ∧
      ((rest = [] ∧ cs = part) ∨
        ∃ behind, cs = part ++ mark :: behind ∧ parts mark behind = rest) := by
  induction cs generalizing part rest with
  | nil =>
      cases parted
      exact ⟨List.not_mem_nil, .inl ⟨rfl, rfl⟩⟩
  | cons c cs ih =>
      rw [parts] at parted
      split at parted
      · next same =>
          subst same
          cases parted
          exact ⟨List.not_mem_nil, .inr ⟨cs, rfl, rfl⟩⟩
      · next different =>
          split at parted
          · next first others inner =>
              cases parted
              obtain ⟨free, tail⟩ := ih inner
              refine ⟨?_, ?_⟩
              · rw [List.mem_cons, not_or]
                exact ⟨Ne.symm different, free⟩
              · rcases tail with ⟨rfl, rfl⟩ | ⟨behind, rfl, rest⟩
                · exact .inl ⟨rfl, rfl⟩
                · exact .inr ⟨behind, rfl, rest⟩
          · next inner => exact absurd inner (parts_ne_nil mark cs)

theorem parts_eq_three {mark : Char} {cs first second third : List Char} :
    parts mark cs = [first, second, third] ↔
      cs = first ++ mark :: (second ++ mark :: third) ∧
        mark ∉ first ∧ mark ∉ second ∧ mark ∉ third := by
  constructor
  · intro all
    obtain ⟨freeFirst, ⟨none, _⟩ | ⟨behind, rfl, two⟩⟩ := of_parts_eq_cons all
    · cases none
    obtain ⟨freeSecond, ⟨none, _⟩ | ⟨last, rfl, one⟩⟩ := of_parts_eq_cons two
    · cases none
    obtain ⟨freeThird, ⟨_, rfl⟩ | ⟨further, _, none⟩⟩ := of_parts_eq_cons one
    · exact ⟨rfl, freeFirst, freeSecond, freeThird⟩
    · exact absurd none (parts_ne_nil mark further)
  · rintro ⟨rfl, freeFirst, freeSecond, freeThird⟩
    rw [parts_append freeFirst, parts_append freeSecond,
      parts_of_free freeThird]

/-- Between `shortest` and `longest` digits that stand for a number. -/
structure Numeral (shortest longest : Nat) (number : Int) (cs : List Char) :
    Prop where
  digits : Digits cs
  long : shortest ≤ cs.length
  short : cs.length ≤ longest
  number : (numberOf cs : Int) = number

theorem digits?_eq_some {shortest longest number : Nat} {cs : List Char} :
    digits? shortest longest cs = some number ↔
      Numeral shortest longest number cs := by
  rw [digits?]
  constructor
  · intro read
    split at read
    · next fits =>
        have digits := Digits.of_ofDigits? read
        rw [digits.ofDigits?_eq, Option.some_inj] at read
        exact ⟨digits, fits.1, fits.2, congrArg Nat.cast read⟩
    · cases read
  · rintro ⟨digits, long, short, number⟩
    rw [if_pos ⟨long, short⟩, digits.ofDigits?_eq]
    exact congrArg some (Int.ofNat.inj number)

/-- The spellings of a date that are read. -/
inductive Spells (date : Date) : List Char → Prop where
  | yearFirst {year month day : List Char}
      (first : Numeral 4 4 date.year year)
      (second : Numeral 1 2 date.month month)
      (third : Numeral 1 2 date.day day) :
      Spells date (year ++ '-' :: (month ++ '-' :: day))
  | monthFirst {month day year : List Char}
      (first : Numeral 1 2 date.month month)
      (second : Numeral 1 2 date.day day)
      (third : Numeral 4 4 date.year year) :
      Spells date (month ++ '/' :: (day ++ '/' :: year))

theorem toList_display {date : Date} (first : 0 ≤ date.year)
    (last : date.year ≤ 9999) :
    date.display.toList =
      (padded 4 date.year.natAbs).toList ++ '-' ::
        ((padded 2 date.month).toList ++ '-' ::
          (padded 2 date.day).toList) := by
  have plain : showYear date.year = padded 4 date.year.natAbs := by
    simp only [showYear]
    rw [if_neg (by omega), if_neg (by omega)]
  simp [display, plain]

/-- Three numerals are read as the date that they spell. -/
theorem of?_digits_eq_some {date : Date} {year month day : List Char} :
    (do of? (← digits? 4 4 year) (← digits? 1 2 month) (← digits? 1 2 day)) =
        some date ↔
      Numeral 4 4 date.year year ∧ Numeral 1 2 date.month month ∧
        Numeral 1 2 date.day day := by
  simp only [Option.bind_eq_bind, Option.bind_eq_some_iff, digits?_eq_some]
  constructor
  · rintro ⟨_, first, _, second, _, third, found⟩
    rw [of?] at found
    split at found
    · cases found
      exact ⟨first, second, third⟩
    · cases found
  · rintro ⟨first, second, third⟩
    refine ⟨numberOf year, { first with number := rfl }, date.month, second,
      date.day, third, ?_⟩
    rw [first.number, of?, dif_pos date.onCalendar]

section Spellings

variable {cs : List Char} {date : Date}

theorem Numeral.free {shortest longest : Nat} {number : Int}
    (numeral : Numeral shortest longest number cs) {mark : Char}
    (noDigit : mark.isDigit = false) : mark ∉ cs := by
  intro member
  rw [numeral.digits mark member] at noDigit
  cases noDigit

theorem readYearFirst?_eq_some :
    readYearFirst? cs = some date ↔
      ∃ year month day, cs = year ++ '-' :: (month ++ '-' :: day) ∧
        Numeral 4 4 date.year year ∧ Numeral 1 2 date.month month ∧
        Numeral 1 2 date.day day := by
  rw [readYearFirst?]
  constructor
  · intro read
    split at read
    · next year month day three =>
        exact ⟨year, month, day, (parts_eq_three.mp three).1,
          of?_digits_eq_some.mp read⟩
    · cases read
  · rintro ⟨year, month, day, written, first, second, third⟩
    have three := parts_eq_three.mpr
      ⟨written, first.free rfl, second.free rfl, third.free rfl⟩
    rw [three]
    exact of?_digits_eq_some.mpr ⟨first, second, third⟩

theorem readMonthFirst?_eq_some :
    readMonthFirst? cs = some date ↔
      ∃ month day year, cs = month ++ '/' :: (day ++ '/' :: year) ∧
        Numeral 4 4 date.year year ∧ Numeral 1 2 date.month month ∧
        Numeral 1 2 date.day day := by
  rw [readMonthFirst?]
  constructor
  · intro read
    split at read
    · next month day year three =>
        exact ⟨month, day, year, (parts_eq_three.mp three).1,
          of?_digits_eq_some.mp read⟩
    · cases read
  · rintro ⟨month, day, year, written, first, second, third⟩
    have three := parts_eq_three.mpr
      ⟨written, second.free rfl, third.free rfl, first.free rfl⟩
    rw [three]
    exact of?_digits_eq_some.mpr ⟨first, second, third⟩

theorem Spells.isDigit_or_mark (spells : date.Spells cs) {c : Char}
    (member : c ∈ cs) : c.isDigit = true ∨ c = '-' ∨ c = '/' := by
  cases spells with
  | yearFirst first second third | monthFirst first second third =>
      simp only [List.mem_append, List.mem_cons] at member
      rcases member with inFirst | rfl | inSecond | rfl | inThird
      · exact .inl (first.digits c inFirst)
      · simp
      · exact .inl (second.digits c inSecond)
      · simp
      · exact .inl (third.digits c inThird)

theorem Spells.solid (spells : date.Spells cs) :
    ∀ c ∈ cs, isBlank c = false := by
  intro c member
  rcases spells.isDigit_or_mark member with digit | rfl | rfl
  · exact isBlank_of_isDigit digit
  · rfl
  · rfl

/-- The spellings of a date, between blanks, are what is read as this date. -/
theorem read?_eq_some {text : String} :
    read? text = some date ↔ date.Spells (trimmed text.toList) := by
  simp only [read?]
  generalize trimmed text.toList = cs
  constructor
  · intro read
    cases yearFirst : readYearFirst? cs with
    | some found =>
        rw [yearFirst] at read
        cases read
        obtain ⟨year, month, day, rfl, first, second, third⟩ :=
          readYearFirst?_eq_some.mp yearFirst
        exact .yearFirst first second third
    | none =>
        rw [yearFirst] at read
        obtain ⟨month, day, year, rfl, first, second, third⟩ :=
          readMonthFirst?_eq_some.mp read
        exact .monthFirst second third first
  · intro spells
    cases spells with
    | yearFirst first second third =>
        have found := readYearFirst?_eq_some.mpr
          ⟨_, _, _, rfl, first, second, third⟩
        rw [found]
        rfl
    | @monthFirst month day year first second third =>
        have found := readMonthFirst?_eq_some.mpr
          ⟨_, _, _, rfl, third, first, second⟩
        have slashes : '-' ∉ month ++ '/' :: (day ++ '/' :: year) := by
          simp [first.free, second.free, third.free]
        cases yearFirst : readYearFirst?
            (month ++ '/' :: (day ++ '/' :: year)) with
        | none => exact found
        | some other =>
            obtain ⟨_, _, _, written, _⟩ :=
              readYearFirst?_eq_some.mp yearFirst
            rw [written] at slashes
            simp at slashes

theorem spells_display (first : 0 ≤ date.year) (last : date.year ≤ 9999) :
    date.Spells date.display.toList := by
  obtain ⟨_, _, month, day⟩ := date.bounds
  have hundred : Nat.pow 10 2 = 100 := rfl
  have tenThousand : Nat.pow 10 4 = 10000 := rfl
  have yearLength :=
    length_padded 4 date.year.natAbs (by decide) (by omega)
  have monthLength := length_padded 2 date.month (by decide) (by omega)
  have dayLength := length_padded 2 date.day (by decide) (by omega)
  rw [toList_display first last]
  refine .yearFirst ⟨digits_padded _ _, by omega, by omega, ?_⟩
    ⟨digits_padded _ _, by omega, by omega, ?_⟩
    ⟨digits_padded _ _, by omega, by omega, ?_⟩
  · rw [numberOf_padded]
    omega
  · rw [numberOf_padded]
  · rw [numberOf_padded]

/-- A date of a year with at most four digits is read as it was written. -/
theorem read?_display (first : 0 ≤ date.year) (last : date.year ≤ 9999) :
    read? date.display = some date := by
  have spells := spells_display first last
  rw [read?_eq_some, trimmed_of_solid spells.solid]
  exact spells

theorem read?_surrounded (spells : date.Spells cs) {front back : List Char}
    (before : ∀ c ∈ front, isBlank c = true)
    (behind : ∀ c ∈ back, isBlank c = true) :
    read? (String.ofList (front ++ (cs ++ back))) = some date := by
  rw [read?_eq_some, String.toList_ofList,
    trimmed_surrounded before spells.solid behind]
  exact spells

end Spellings

end Cardfile.Date
