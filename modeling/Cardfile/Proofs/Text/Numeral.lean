import Cardfile.Text.Blank
import Cardfile.Text.Numeral

/-!
# Numerals read back

A whole number is written in decimal digits, and the digits of a number stand
for it however many zeros precede them.  A numeral that was written for a
number of a range is read as this number.
-/

namespace Cardfile.Text

/-- Only ASCII digits. -/
def Digits (cs : List Char) : Prop :=
  ∀ c ∈ cs, c.isDigit = true

/-- The number that digits stand for. -/
abbrev numberOf (cs : List Char) : Nat := Nat.ofDigitChars 10 cs 0

theorem digit_bounds {c : Char} (digit : c.isDigit = true) :
    48 ≤ c.toNat ∧ c.toNat ≤ 57 := by
  have bounds := digit
  rw [Char.isDigit, Bool.and_eq_true, decide_eq_true_eq, decide_eq_true_eq,
    ge_iff_le, UInt32.le_iff_toNat_le, UInt32.le_iff_toNat_le] at bounds
  exact bounds

theorem digit?_of_isDigit {c : Char} (digit : c.isDigit = true) :
    digit? c = some (c.toNat - 48) := by
  obtain ⟨least, greatest⟩ := digit_bounds digit
  have bounds : '0' ≤ c ∧ c ≤ '9' := by
    rw [Char.le_def, Char.le_def, UInt32.le_iff_toNat_le,
      UInt32.le_iff_toNat_le]
    exact ⟨least, greatest⟩
  rw [digit?, if_pos bounds]

theorem isDigit_of_digit? {c : Char} {digit : Nat}
    (read : digit? c = some digit) : c.isDigit = true := by
  rw [digit?] at read
  split at read
  · next bounds =>
      rw [Char.le_def, Char.le_def] at bounds
      rw [Char.isDigit, Bool.and_eq_true, decide_eq_true_eq,
        decide_eq_true_eq]
      exact bounds
  · cases read

theorem isBlank_of_isDigit {c : Char} (digit : c.isDigit = true) :
    isBlank c = false := by
  obtain ⟨least, greatest⟩ := digit_bounds digit
  simp [isBlank]
  omega

theorem solid_of_isDigit {c : Char} (digit : c.isDigit = true) :
    isBlank c = false ∧ c ≠ '\'' := by
  constructor
  · exact isBlank_of_isDigit digit
  · rintro rfl
    exact absurd digit (by decide)

theorem dropWhile_of_solid {cs : List Char}
    (solid : ∀ c ∈ cs, isBlank c = false) : cs.dropWhile isBlank = cs := by
  cases cs with
  | nil => rfl
  | cons c cs => simp [solid c List.mem_cons_self]

theorem trimmed_of_solid {cs : List Char}
    (solid : ∀ c ∈ cs, isBlank c = false) : trimmed cs = cs := by
  rw [trimmed, dropWhile_of_solid solid,
    dropWhile_of_solid (by simpa using solid), List.reverse_reverse]

theorem trimmed_surrounded {front cs back : List Char}
    (before : ∀ c ∈ front, isBlank c = true)
    (solid : ∀ c ∈ cs, isBlank c = false)
    (behind : ∀ c ∈ back, isBlank c = true) :
    trimmed (front ++ (cs ++ back)) = cs := by
  rw [trimmed, List.dropWhile_append_of_pos before]
  cases cs with
  | nil =>
      rw [List.nil_append, ← List.append_nil back,
        List.dropWhile_append_of_pos behind]
      rfl
  | cons c cs =>
      have first := solid c List.mem_cons_self
      rw [List.cons_append, List.dropWhile_cons_of_neg (by simp [first]),
        ← List.cons_append, List.reverse_append,
        List.dropWhile_append_of_pos (by simpa using behind),
        dropWhile_of_solid, List.reverse_reverse]
      intro other member
      exact solid other (List.mem_reverse.mp member)

theorem Digits.ofDigits?_eq {cs : List Char} (digits : Digits cs) :
    ofDigits? 10 digit? cs = some (numberOf cs) := by
  suffices general : ∀ start, cs.foldlM
      (fun number c => (number * 10 + ·) <$> digit? c) start =
        some (Nat.ofDigitChars 10 cs start) from general 0
  induction cs with
  | nil =>
      intro start
      rw [Nat.ofDigitChars_nil]
      rfl
  | cons c cs ih =>
      intro start
      have first := digits c List.mem_cons_self
      have rest := ih fun other member => digits other (.tail c member)
      rw [List.foldlM_cons, digit?_of_isDigit first, Nat.ofDigitChars_cons,
        Nat.mul_comm]
      exact rest _

theorem Digits.of_ofDigits? {cs : List Char} {number : Nat}
    (read : ofDigits? 10 digit? cs = some number) : Digits cs := by
  suffices general : ∀ start,
      cs.foldlM (fun number c => (number * 10 + ·) <$> digit? c) start =
        some number → Digits cs from general 0 read
  clear read
  induction cs with
  | nil =>
      intro _ _ c member
      cases member
  | cons c cs ih =>
      intro start reads
      obtain ⟨next, first, rest⟩ := Option.bind_eq_some_iff.mp reads
      obtain ⟨digit, read, rfl⟩ := Option.map_eq_some_iff.mp first
      intro other member
      rcases List.mem_cons.mp member with rfl | later
      · exact isDigit_of_digit? read
      · exact ih _ rest other later

theorem le_ofDigitChars (cs : List Char) (start : Nat) :
    start ≤ Nat.ofDigitChars 10 cs start := by
  induction cs generalizing start with
  | nil => exact Nat.le_refl start
  | cons c cs ih =>
      rw [Nat.ofDigitChars_cons]
      exact Nat.le_trans (by omega) (ih _)

/-- Digits of a number that is not too large are read as this number. -/
theorem Digits.readDigits_up {cs : List Char} (digits : Digits cs)
    {low high : Int} {start : Nat}
    (bounded : (Nat.ofDigitChars 10 cs start : Int) ≤ high) :
    readDigits low high true start cs =
      .ok (Nat.ofDigitChars 10 cs start) := by
  induction cs generalizing start with
  | nil => rfl
  | cons c cs ih =>
      have first := digits c List.mem_cons_self
      rw [Nat.ofDigitChars_cons] at bounded ⊢
      have grows := le_ofDigitChars cs (10 * start + (c.toNat - '0'.toNat))
      have next : (start : Int) * 10 + (c.toNat - 48 : Nat) =
          (10 * start + (c.toNat - '0'.toNat) : Nat) := by
        have zero : '0'.toNat = 48 := rfl
        omega
      rw [readDigits, digit?_of_isDigit first]
      simp only [if_true, next]
      rw [if_neg (by omega)]
      exact ih (fun other member => digits other (.tail c member)) bounded

theorem Digits.readDigits_down {cs : List Char} (digits : Digits cs)
    {low high : Int} {start : Nat}
    (bounded : low ≤ -(Nat.ofDigitChars 10 cs start : Int)) :
    readDigits low high false (-start) cs =
      .ok (-(Nat.ofDigitChars 10 cs start : Int)) := by
  induction cs generalizing start with
  | nil => rfl
  | cons c cs ih =>
      have first := digits c List.mem_cons_self
      rw [Nat.ofDigitChars_cons] at bounded ⊢
      have grows := le_ofDigitChars cs (10 * start + (c.toNat - '0'.toNat))
      have next : -(start : Int) * 10 - (c.toNat - 48 : Nat) =
          -((10 * start + (c.toNat - '0'.toNat) : Nat) : Int) := by
        have zero : '0'.toNat = 48 := rfl
        omega
      rw [readDigits, digit?_of_isDigit first]
      simp only [Bool.false_eq_true, if_false, next]
      rw [if_neg (by omega)]
      exact ih (fun other member => digits other (.tail c member)) bounded

theorem digits_nil : Digits [] := by
  intro c member
  cases member

theorem digits_toDigits (number : Nat) : Digits (Nat.toDigits 10 number) := by
  intro c member
  exact Nat.isDigit_of_mem_toDigits (by decide) (by decide) member

theorem readDigits_toDigits {low high : Int} {number : Nat}
    (bounded : (number : Int) ≤ high) :
    readDigits low high true 0 (Nat.toDigits 10 number) = .ok number := by
  have value := @Nat.ofDigitChars_ten_toDigits number
  have read := @Digits.readDigits_up _ (digits_toDigits number) low high 0
    (by rwa [value])
  rwa [value] at read

theorem readDigits_toDigits_neg {low high : Int} {number : Nat}
    (bounded : low ≤ -(number : Int)) :
    readDigits low high false 0 (Nat.toDigits 10 number) =
      .ok (-(number : Int)) := by
  have value := @Nat.ofDigitChars_ten_toDigits number
  have read := @Digits.readDigits_down _ (digits_toDigits number) low high 0
    (by rwa [value])
  rwa [value] at read

theorem Digits.append {left right : List Char} (first : Digits left)
    (second : Digits right) : Digits (left ++ right) := by
  intro c member
  rcases List.mem_append.mp member with inLeft | inRight
  · exact first c inLeft
  · exact second c inRight

theorem Digits.take {cs : List Char} (digits : Digits cs) (count : Nat) :
    Digits (cs.take count) :=
  fun c member => digits c (List.mem_of_mem_take member)

theorem Digits.drop {cs : List Char} (digits : Digits cs) (count : Nat) :
    Digits (cs.drop count) :=
  fun c member => digits c (List.mem_of_mem_drop member)

theorem digits_replicate_zero (count : Nat) :
    Digits (List.replicate count '0') := by
  intro c member
  rw [List.eq_of_mem_replicate member]
  rfl

theorem numberOf_toDigits (number : Nat) :
    numberOf (Nat.toDigits 10 number) = number :=
  Nat.ofDigitChars_ten_toDigits

theorem numberOf_zeros_append (count number : Nat) :
    numberOf (List.replicate count '0' ++ Nat.toDigits 10 number) =
      number := by
  rw [numberOf, Nat.ofDigitChars_append, Nat.ofDigitChars_replicate_zero,
    Nat.mul_zero]
  exact numberOf_toDigits number

theorem toList_padded (width number : Nat) :
    (padded width number).toList =
      List.replicate (width - (Nat.toDigits 10 number).length) '0' ++
        Nat.toDigits 10 number := by
  simp [padded, ← String.length_toList]

theorem digits_padded (width number : Nat) :
    Digits (padded width number).toList := by
  rw [toList_padded]
  exact (digits_replicate_zero _).append (digits_toDigits number)

theorem numberOf_padded (width number : Nat) :
    numberOf (padded width number).toList = number := by
  rw [toList_padded, numberOf_zeros_append]

theorem length_padded (width number : Nat) (some : 0 < width)
    (bounded : number < Nat.pow 10 width) :
    (padded width number).toList.length = width := by
  have short := (Nat.length_toDigits_le_iff (b := 10) (by decide) some).mpr
    bounded
  rw [toList_padded, List.length_append, List.length_replicate,
    Nat.sub_add_cancel short]

theorem toList_showInteger (number : Int) :
    (showInteger number).toList =
      if number < 0 then '-' :: Nat.toDigits 10 number.natAbs
      else Nat.toDigits 10 number.natAbs := by
  simp only [showInteger]
  split <;> simp

theorem Digits.readInteger_eq {cs : List Char} (digits : Digits cs)
    (some : cs ≠ []) (low high : Int) :
    readInteger low high cs = readDigits low high true 0 cs := by
  match cs, some with
  | c :: cs, _ =>
      have first := digits c List.mem_cons_self
      have unsigned : c ≠ '+' ∧ c ≠ '-' := by
        constructor <;> rintro rfl <;> exact absurd first (by decide)
      obtain ⟨noPlus, noMinus⟩ := unsigned
      unfold readInteger
      split <;> simp_all

theorem readInteger_minus {cs : List Char} (some : cs ≠ [])
    (low high : Int) :
    readInteger low high ('-' :: cs) = readDigits low high false 0 cs := by
  match cs, some with
  | c :: cs, _ => rfl

theorem readInteger_plus {cs : List Char} (some : cs ≠ [])
    (low high : Int) :
    readInteger low high ('+' :: cs) = readDigits low high true 0 cs := by
  match cs, some with
  | c :: cs, _ => rfl

theorem isSigned_iff {bits : Nat} {number : Int} :
    isSigned bits number = true ↔
      leastSigned bits ≤ number ∧ number ≤ greatestSigned bits := by
  rw [isSigned, Bool.and_eq_true, decide_eq_true_eq, decide_eq_true_eq]

/-- A signed number is read as it was written. -/
theorem readSigned_showInteger {bits : Nat} {number : Int}
    (within : isSigned bits number = true) :
    readSigned bits (showInteger number).toList = .ok number := by
  obtain ⟨least, greatest⟩ := isSigned_iff.mp within
  have digits := digits_toDigits number.natAbs
  have some : Nat.toDigits 10 number.natAbs ≠ [] := Nat.toDigits_ne_nil
  rw [toList_showInteger, readSigned]
  split
  · next negative =>
      rw [readInteger_minus some, readDigits_toDigits_neg (by omega)]
      congr 1
      omega
  · next whole =>
      rw [digits.readInteger_eq some, readDigits_toDigits (by omega)]
      congr 1
      omega

end Cardfile.Text
