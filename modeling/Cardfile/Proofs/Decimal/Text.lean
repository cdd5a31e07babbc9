import Cardfile.Decimal.Text
import Cardfile.Proofs.Decimal.Order
import Cardfile.Proofs.Text.Numeral

/-!
# Decimals read back

`Spells` says which characters stand for a decimal: a sign or none, digits,
a point with places or none, and an exponent or none.  Such characters are read
as the decimal that they stand for.  A decimal is written in characters that
stand for it, but for the zeros that it lacks before the point and for the
scale of a zero: so it is read with the same value, and then written alike.
-/

namespace Cardfile.Decimal

open Text

/-- How a decimal ends, with the exponent that this stands for. -/
inductive Ends : List Char → Int → Prop where
  | plain : Ends [] 0
  | up {mark : Char} {power : Nat} (isMark : mark = 'e' ∨ mark = 'E')
      (bounded : (power : Int) ≤ greatestSigned 128) :
      Ends (mark :: '+' :: Nat.toDigits 10 power) power
  | down {mark : Char} {power : Nat} (isMark : mark = 'e' ∨ mark = 'E')
      (bounded : leastSigned 128 ≤ -(power : Int)) :
      Ends (mark :: '-' :: Nat.toDigits 10 power) (-power)

/-- A minus sign or nothing. -/
def signChars (negative : Bool) : List Char :=
  if negative then ['-'] else []

/-- A point with places behind it, or nothing. -/
def pointChars (places : List Char) : List Char :=
  if places.isEmpty then [] else '.' :: places

/-- The characters stand for a magnitude at a scale. -/
inductive SpellsMagnitude : Nat → Int → List Char → Prop where
  | mk {whole places ending : List Char} {exponent : Int}
      (wholeDigits : Digits whole) (filled : whole ≠ [])
      (placesDigits : Digits places) (ends : Ends ending exponent) :
      SpellsMagnitude (numberOf (whole ++ places)) (places.length - exponent)
        (whole ++ (pointChars places ++ ending))

/-- The characters stand for a decimal. -/
inductive Spells : Decimal → List Char → Prop where
  | mk (negative : Bool) {magnitude : Nat} {scale : Int} {cs : List Char}
      (unsigned : SpellsMagnitude magnitude scale cs) :
      Spells ⟨if negative then -(magnitude : Int) else magnitude, scale⟩
        (signChars negative ++ cs)

theorem digits_zero : Digits ['0'] := by
  simp [Digits]

theorem readExponent?_up {power : Nat}
    (bounded : (power : Int) ≤ greatestSigned 128) :
    readExponent? ('+' :: Nat.toDigits 10 power) = some power := by
  rw [readExponent?, readSigned, readInteger_plus Nat.toDigits_ne_nil,
    readDigits_toDigits bounded]
  rfl

theorem readExponent?_down {power : Nat}
    (bounded : leastSigned 128 ≤ -(power : Int)) :
    readExponent? ('-' :: Nat.toDigits 10 power) = some (-(power : Int)) := by
  rw [readExponent?, readSigned, readInteger_minus Nat.toDigits_ne_nil,
    readDigits_toDigits_neg bounded]
  rfl

theorem splitExponent?_append {base ending : List Char} {exponent : Int}
    (free : ∀ c ∈ base, c ≠ 'e' ∧ c ≠ 'E') (ends : Ends ending exponent) :
    splitExponent? (base ++ ending) = some (base, exponent) := by
  have before : ∀ c ∈ base, (!(c == 'e' || c == 'E')) = true := by
    intro c member
    simp [free c member]
  simp only [splitExponent?]
  rw [List.dropWhile_append_of_pos before,
    List.takeWhile_append_of_pos before]
  cases ends with
  | plain => simp
  | up isMark bounded =>
      rcases isMark with rfl | rfl <;> simp [readExponent?_up bounded]
  | down isMark bounded =>
      rcases isMark with rfl | rfl <;> simp [readExponent?_down bounded]

theorem takePoint_append {front places : List Char} (free : '.' ∉ front)
    (digits : Digits places) :
    takePoint (front ++ pointChars places) =
      (front ++ places, places.length) := by
  have before : ∀ c ∈ front, (c != '.') = true := by
    intro c member
    exact bne_iff_ne.mpr (ne_of_mem_of_not_mem member free)
  have counted : places.filter (· != '_') = places := by
    apply List.filter_eq_self.mpr
    intro c member
    apply bne_iff_ne.mpr
    rintro rfl
    exact absurd (digits '_' member) (by decide)
  simp only [takePoint, pointChars]
  rw [List.dropWhile_append_of_pos before,
    List.takeWhile_append_of_pos before]
  cases places with
  | nil => simp
  | cons c places => simpa using congrArg List.length counted

theorem readMagnitude?_digits {cs : List Char} (digits : Digits cs)
    (filled : cs ≠ []) : readMagnitude? cs = some (numberOf cs) := by
  have solid : ∀ c ∈ cs, c ≠ '_' := by
    rintro c member rfl
    exact absurd (digits '_' member) (by decide)
  have unskipped (start : Nat) (others : List Char)
      (solid : ∀ c ∈ others, c ≠ '_') :
      others.foldlM (fun number c =>
          if c = '_' then some number
          else (number * 10 + ·) <$> digit? c) start =
        others.foldlM (fun number c => (number * 10 + ·) <$> digit? c)
          start := by
    induction others generalizing start with
    | nil => rfl
    | cons c others ih =>
        have first := solid c List.mem_cons_self
        rw [List.foldlM_cons, List.foldlM_cons, if_neg first]
        apply bind_congr
        intro next
        exact ih next fun other member => solid other (.tail c member)
  unfold readMagnitude?
  split
  · exact absurd rfl filled
  · exact absurd rfl (solid '_' List.mem_cons_self)
  · rw [unskipped 0 cs solid]
    exact digits.ofDigits?_eq

theorem takeSign_digits {cs : List Char} (digits : Digits cs) (sign : Char)
    (noDigit : sign.isDigit = false) : takeSign sign cs = (false, cs) := by
  unfold takeSign
  split
  · rfl
  · next c rest _ =>
      have different : c ≠ sign := by
        rintro rfl
        rw [digits c List.mem_cons_self] at noDigit
        cases noDigit
      rw [if_neg different]
  · rfl

theorem takeSign_self {cs : List Char} (digits : Digits cs) (sign : Char) :
    takeSign sign (sign :: cs) = (true, cs) := by
  unfold takeSign
  split
  · next same =>
      cases same
      exact absurd (digits '+' List.mem_cons_self) (by decide)
  · next same =>
      cases same
      rw [if_pos rfl]
  · next same => cases same

theorem readMantissa?_digits {cs : List Char} (digits : Digits cs)
    (filled : cs ≠ []) (negative : Bool) :
    readMantissa? (signChars negative ++ cs) =
      some (if negative then -(numberOf cs : Int) else numberOf cs) := by
  have unsigned := takeSign_digits digits '+' rfl
  have magnitude := readMagnitude?_digits digits filled
  cases negative with
  | false =>
      have positive := takeSign_digits digits '-' rfl
      simp [readMantissa?, signChars, positive, unsigned, magnitude]
  | true =>
      have minus := takeSign_self digits '-'
      simp [readMantissa?, signChars, minus, unsigned, magnitude]

theorem mem_signChars {negative : Bool} {c : Char}
    (member : c ∈ signChars negative) : c = '-' := by
  cases negative with
  | false => cases member
  | true => exact List.mem_singleton.mp member

theorem mem_pointChars {places : List Char} {c : Char}
    (member : c ∈ pointChars places) : c = '.' ∨ c ∈ places := by
  rw [pointChars] at member
  split at member
  · cases member
  · exact List.mem_cons.mp member

theorem mem_base {negative : Bool} {whole places : List Char}
    (wholeDigits : Digits whole) (placesDigits : Digits places) {c : Char}
    (member : c ∈ signChars negative ++ (whole ++ pointChars places)) :
    c = '-' ∨ c = '.' ∨ c.isDigit = true := by
  rcases List.mem_append.mp member with sign | body
  · exact .inl (mem_signChars sign)
  rcases List.mem_append.mp body with digit | point
  · exact .inr (.inr (wholeDigits c digit))
  rcases mem_pointChars point with rfl | digit
  · exact .inr (.inl rfl)
  · exact .inr (.inr (placesDigits c digit))

theorem mem_ending {ending : List Char} {exponent : Int}
    (ends : Ends ending exponent) {c : Char} (member : c ∈ ending) :
    c = 'e' ∨ c = 'E' ∨ c = '+' ∨ c = '-' ∨ c.isDigit = true := by
  cases ends with
  | plain => cases member
  | up isMark _ =>
      simp only [List.mem_cons] at member
      rcases member with rfl | rfl | digit
      · rcases isMark with rfl | rfl <;> simp
      · simp
      · simp [digits_toDigits _ c digit]
  | down isMark _ =>
      simp only [List.mem_cons] at member
      rcases member with rfl | rfl | digit
      · rcases isMark with rfl | rfl <;> simp
      · simp
      · simp [digits_toDigits _ c digit]

theorem Spells.solid {number : Decimal} {cs : List Char}
    (spells : Spells number cs) {c : Char} (member : c ∈ cs) :
    isBlank c = false ∧ c ≠ '\'' := by
  obtain ⟨negative, wholeDigits, _, placesDigits, ends⟩ := spells
  simp only [← List.append_assoc] at member
  rw [List.append_assoc (signChars negative)] at member
  rcases List.mem_append.mp member with base | ending
  · rcases mem_base wholeDigits placesDigits base with rfl | rfl | isDigit
    · decide
    · decide
    · exact solid_of_isDigit isDigit
  · rcases mem_ending ends ending with rfl | rfl | rfl | rfl | isDigit
    · decide
    · decide
    · decide
    · decide
    · exact solid_of_isDigit isDigit

/-- Characters that stand for a decimal are read as this decimal. -/
theorem Spells.readChars?_eq {number : Decimal} {cs : List Char}
    (spells : Spells number cs) (within : isScale number.scale = true) :
    readChars? cs = some number := by
  obtain @⟨negative, _, _, _, @⟨whole, places, ending, exponent, wholeDigits,
    filled, placesDigits, ends⟩⟩ := spells
  have free : ∀ c ∈ signChars negative ++ (whole ++ pointChars places),
      c ≠ 'e' ∧ c ≠ 'E' := by
    intro c member
    rcases mem_base wholeDigits placesDigits member with rfl | rfl | digit
    · decide
    · decide
    · constructor <;> rintro rfl <;> exact absurd digit (by decide)
  have noPoint : '.' ∉ signChars negative ++ whole := by
    intro member
    rcases List.mem_append.mp member with sign | digit
    · exact absurd (mem_signChars sign) (by decide)
    · exact absurd (wholeDigits '.' digit) (by decide)
  have full : (signChars negative ++ (whole ++ pointChars places)).isEmpty =
      false := by
    simp [filled]
  have digits := wholeDigits.append placesDigits
  have apart : signChars negative ++ (whole ++ (pointChars places ++ ending)) =
      signChars negative ++ (whole ++ pointChars places) ++ ending := by
    simp only [List.append_assoc]
  rw [readChars?, apart, splitExponent?_append free ends]
  simp only [Option.bind_eq_bind, Option.bind_some, full]
  rw [← List.append_assoc, takePoint_append noPoint placesDigits]
  simp only [within, if_true, List.append_assoc]
  rw [readMantissa?_digits digits (by simp [filled])]
  rfl

/-- The decimal that a decimal is written for: a zero of scale zero, or one
with the zeros that are written out before its point. -/
def asWritten (number : Decimal) : Decimal :=
  if number.mantissa = 0 then ⟨0, 0⟩
  else if number.scale < 0 ∧ -15 ≤ number.scale then
    ⟨number.mantissa * tenTo (-number.scale).toNat, 0⟩
  else number

theorem isScale_asWritten {number : Decimal}
    (within : isScale number.scale = true) :
    isScale number.asWritten.scale = true := by
  simp only [asWritten]
  split
  · rfl
  · split
    · rfl
    · exact within

theorem sameValue_asWritten (number : Decimal) :
    number.sameValue number.asWritten = true := by
  by_cases zero : number.mantissa = 0
  · rw [asWritten, if_pos zero, sameValue_iff
      (Int.le_max_left number.scale 0) (Int.le_max_right number.scale 0)]
    simp [zero, unitsAt]
  · by_cases folded : number.scale < 0 ∧ -15 ≤ number.scale
    · have reached : number.scale ≤ 0 := by omega
      rw [asWritten, if_neg zero, if_pos folded,
        sameValue_iff reached (Int.le_refl 0)]
      simp [unitsAt, tenTo]
    · rw [asWritten, if_neg zero, if_neg folded,
        sameValue_iff (Int.le_refl _) (Int.le_refl _)]

theorem greatestSigned_128 :
    greatestSigned 128 = 170141183460469231731687303715884105727 := by
  decide

theorem leastSigned_128 :
    leastSigned 128 = -170141183460469231731687303715884105728 := by
  decide

theorem isScale_iff {scale : Int} : isScale scale = true ↔
    -9223372036854775808 ≤ scale ∧ scale ≤ 9223372036854775807 := by
  have least : leastSigned 64 = -9223372036854775808 := by decide
  have greatest : greatestSigned 64 = 9223372036854775807 := by decide
  rw [isScale, isSigned_iff, least, greatest]

theorem SpellsMagnitude.of {magnitude : Nat} {scale exponent : Int}
    {whole places ending cs : List Char} (wholeDigits : Digits whole)
    (filled : whole ≠ []) (placesDigits : Digits places)
    (ends : Ends ending exponent)
    (value : numberOf (whole ++ places) = magnitude)
    (scaled : places.length - exponent = scale)
    (written : cs = whole ++ (pointChars places ++ ending)) :
    SpellsMagnitude magnitude scale cs := by
  subst value scaled written
  exact .mk wholeDigits filled placesDigits ends

theorem toList_showExponent (exponent : Int) :
    (showExponent exponent).toList =
      (if exponent < 0 then '-' else '+') ::
        Nat.toDigits 10 exponent.natAbs := by
  simp only [showExponent]
  split <;> simp

theorem toList_showMagnitude (magnitude : Nat) (scale : Int) :
    (showMagnitude magnitude scale).toList =
      let digits := Nat.toDigits 10 magnitude
      let count : Int := digits.length
      if 5 < scale - count then
        digits.take 1 ++ (pointChars (digits.drop 1) ++
          'E' :: (showExponent (count - scale - 1)).toList)
      else if 15 < -scale then
        digits ++ 'e' :: '+' :: Nat.toDigits 10 (-scale).natAbs
      else if scale ≤ 0 then
        digits ++ List.replicate (-scale).toNat '0'
      else if scale < count then
        digits.take (count - scale).toNat ++
          '.' :: digits.drop (count - scale).toNat
      else
        '0' :: '.' :: (List.replicate (scale - count).toNat '0' ++ digits) := by
  simp only [showMagnitude, ← String.length_toList, Nat.toList_repr, pointChars,
    zeros]
  split
  · split <;> simp
  split
  · simp
  split
  · simp
  split
  · simp
  · simp

/-- The first digit before the point, and an exponent. -/
theorem spells_scientific {magnitude : Nat} {scale : Int}
    (small : 5 < scale - (Nat.toDigits 10 magnitude).length)
    (within : isScale scale = true) :
    SpellsMagnitude magnitude scale (showMagnitude magnitude scale).toList := by
  have digits := digits_toDigits magnitude
  have positive : 0 < (Nat.toDigits 10 magnitude).length :=
    Nat.length_toDigits_pos
  have bounds := isScale_iff.mp within
  let power := ((Nat.toDigits 10 magnitude).length - scale - 1 : Int).natAbs
  have ends : Ends ('E' :: '-' :: Nat.toDigits 10 power) (-power) := by
    apply Ends.down (.inr rfl)
    rw [leastSigned_128]
    omega
  apply SpellsMagnitude.of (digits.take 1) _ (digits.drop 1) ends
  · rw [List.take_append_drop, numberOf_toDigits]
  · rw [List.length_drop]
    omega
  · rw [toList_showMagnitude]
    simp only
    rw [if_pos small, toList_showExponent, if_pos (by omega)]
  · intro none
    have length := congrArg List.length none
    rw [List.length_take, List.length_nil] at length
    omega

/-- All digits, and an exponent. -/
theorem spells_exponent {magnitude : Nat} {scale : Int}
    (large : 15 < -scale) (within : isScale scale = true) :
    SpellsMagnitude magnitude scale (showMagnitude magnitude scale).toList := by
  have bounds := isScale_iff.mp within
  have ends : Ends ('e' :: '+' :: Nat.toDigits 10 (-scale).natAbs)
      (-scale).natAbs := by
    apply Ends.up (.inl rfl)
    rw [greatestSigned_128]
    omega
  apply SpellsMagnitude.of (digits_toDigits magnitude) Nat.toDigits_ne_nil
    digits_nil ends
  · rw [List.append_nil, numberOf_toDigits]
  · simp only [List.length_nil]
    omega
  · rw [toList_showMagnitude]
    simp only
    rw [if_neg (by omega), if_pos large]
    rfl

/-- All digits, and the zeros that are lacking before the point. -/
theorem spells_zeros {magnitude : Nat} {scale : Int}
    (notLarge : ¬15 < -scale) (folded : scale ≤ 0) :
    SpellsMagnitude (magnitude * tenTo (-scale).toNat) 0
      (showMagnitude magnitude scale).toList := by
  have positive : 0 < (Nat.toDigits 10 magnitude).length :=
    Nat.length_toDigits_pos
  have digits := (digits_toDigits magnitude).append
    (digits_replicate_zero (-scale).toNat)
  apply SpellsMagnitude.of digits _ digits_nil .plain
  · rw [List.append_nil, numberOf, Nat.ofDigitChars_append,
      Nat.ofDigitChars_replicate_zero, Nat.mul_comm]
    congr 1
    exact numberOf_toDigits magnitude
  · rfl
  · rw [toList_showMagnitude]
    simp only
    rw [if_neg (by omega), if_neg notLarge, if_pos folded]
    simp [pointChars]
  · simp

/-- A point among the digits. -/
theorem spells_point {magnitude : Nat} {scale : Int} (unfolded : 0 < scale)
    (few : scale < (Nat.toDigits 10 magnitude).length) :
    SpellsMagnitude magnitude scale (showMagnitude magnitude scale).toList := by
  have digits := digits_toDigits magnitude
  let whole := ((Nat.toDigits 10 magnitude).length - scale).toNat
  have places : (Nat.toDigits 10 magnitude).drop whole ≠ [] := by
    simp [whole]
    omega
  apply SpellsMagnitude.of (digits.take whole) _ (digits.drop whole) .plain
  · rw [List.take_append_drop, numberOf_toDigits]
  · rw [List.length_drop]
    omega
  · rw [toList_showMagnitude]
    simp only
    rw [if_neg (by omega), if_neg (by omega), if_neg (by omega), if_pos few]
    simp [pointChars, places, whole]
  · simp [whole]
    omega

/-- A zero before the point, and zeros behind it. -/
theorem spells_fraction {magnitude : Nat} {scale : Int}
    (notSmall : ¬5 < scale - (Nat.toDigits 10 magnitude).length)
    (many : (Nat.toDigits 10 magnitude).length ≤ scale) :
    SpellsMagnitude magnitude scale (showMagnitude magnitude scale).toList := by
  have positive : 0 < (Nat.toDigits 10 magnitude).length :=
    Nat.length_toDigits_pos
  have places := (digits_replicate_zero
    (scale - (Nat.toDigits 10 magnitude).length).toNat).append
      (digits_toDigits magnitude)
  apply SpellsMagnitude.of digits_zero (List.cons_ne_nil _ _) places .plain
  · exact numberOf_zeros_append
      ((scale - (Nat.toDigits 10 magnitude).length).toNat + 1) magnitude
  · simp
    omega
  · rw [toList_showMagnitude]
    simp only
    rw [if_neg notSmall, if_neg (by omega), if_neg (by omega),
      if_neg (by omega)]
    simp [pointChars, Nat.toDigits_ne_nil]

theorem Spells.of_natAbs {number : Decimal} {cs : List Char}
    (unsigned : SpellsMagnitude number.mantissa.natAbs number.scale cs) :
    Spells number (signChars (decide (number.mantissa < 0)) ++ cs) := by
  have signed : (if decide (number.mantissa < 0) then
      -(number.mantissa.natAbs : Int) else number.mantissa.natAbs) =
        number.mantissa := by
    by_cases negative : number.mantissa < 0
    · rw [if_pos (decide_eq_true negative)]
      omega
    · rw [if_neg (ne_true_of_eq_false (decide_eq_false negative))]
      omega
  have spells := Spells.mk (decide (number.mantissa < 0)) unsigned
  rwa [signed] at spells

theorem spells_unfolded {magnitude : Nat} {scale : Int}
    (within : isScale scale = true) (unfolded : ¬(scale < 0 ∧ -15 ≤ scale)) :
    SpellsMagnitude magnitude scale (showMagnitude magnitude scale).toList := by
  have positive : 0 < (Nat.toDigits 10 magnitude).length :=
    Nat.length_toDigits_pos
  by_cases small : 5 < scale - (Nat.toDigits 10 magnitude).length
  · exact spells_scientific small within
  by_cases large : 15 < -scale
  · exact spells_exponent large within
  by_cases whole : scale = 0
  · subst whole
    have spells := @spells_zeros magnitude 0 (by omega) (Int.le_refl 0)
    simpa [tenTo] using spells
  by_cases few : scale < (Nat.toDigits 10 magnitude).length
  · exact spells_point (by omega) few
  · exact spells_fraction small (by omega)

theorem toList_display {number : Decimal} (some : number.mantissa ≠ 0) :
    number.display.toList =
      signChars (decide (number.mantissa < 0)) ++
        (showMagnitude number.mantissa.natAbs number.scale).toList := by
  rw [display, if_neg some, signChars]
  by_cases negative : number.mantissa < 0 <;> simp [negative]

theorem mul_tenTo_neg_iff (mantissa : Int) (count : Nat) :
    mantissa * tenTo count < 0 ↔ mantissa < 0 := by
  have unit : (0 : Int) < tenTo count := Int.natCast_pos.mpr (tenTo_pos _)
  rw [← Int.sign_neg_iff, Int.sign_mul, Int.sign_eq_one_of_pos unit,
    Int.mul_one, Int.sign_neg_iff]

/-- A decimal is written in characters that stand for it, but for the zeros
before its point. -/
theorem spells_display {number : Decimal}
    (within : isScale number.scale = true) :
    Spells number.asWritten number.display.toList := by
  by_cases zero : number.mantissa = 0
  · rw [asWritten, if_pos zero, display, if_pos zero]
    exact .mk false (.of digits_zero (List.cons_ne_nil _ _) digits_nil .plain
      rfl rfl rfl)
  · rw [asWritten, if_neg zero, toList_display zero]
    split
    · next folded =>
        have spells := @spells_zeros number.mantissa.natAbs number.scale
          (by omega) (by omega)
        have whole := @Spells.of_natAbs
          ⟨number.mantissa * tenTo (-number.scale).toNat, 0⟩ _
          (by rwa [Int.natAbs_mul, Int.natAbs_natCast])
        simpa only [mul_tenTo_neg_iff] using whole
    · next unfolded => exact .of_natAbs (spells_unfolded within unfolded)

/-- A decimal is read as the one that it was written for. -/
theorem read?_display {number : Decimal}
    (within : isScale number.scale = true) :
    read? number.display = some number.asWritten := by
  have spells := spells_display within
  rw [read?, trimmed_of_solid fun c member => (spells.solid member).1]
  exact spells.readChars?_eq (isScale_asWritten within)

theorem toDigits_mul_tenTo {magnitude : Nat} (positive : 0 < magnitude)
    (count : Nat) :
    Nat.toDigits 10 (magnitude * tenTo count) =
      Nat.toDigits 10 magnitude ++ List.replicate count '0' := by
  induction count with
  | zero => simp [tenTo]
  | succ count ih =>
      have some : 0 < magnitude * tenTo count :=
        Nat.mul_pos positive (tenTo_pos count)
      calc Nat.toDigits 10 (magnitude * tenTo (count + 1))
          = Nat.toDigits 10 (10 * (magnitude * tenTo count) + 0) := by
            rw [tenTo_add, Nat.add_zero, ← Nat.mul_assoc, Nat.mul_comm 10]
            rfl
        _ = Nat.toDigits 10 (magnitude * tenTo count) ++ Nat.toDigits 10 0 :=
            (Nat.toDigits_append_toDigits (by decide) some (by decide)).symm
        _ = Nat.toDigits 10 magnitude ++ List.replicate (count + 1) '0' := by
            rw [ih, List.replicate_succ', List.append_assoc]
            rfl

theorem display_asWritten (number : Decimal) :
    number.asWritten.display = number.display := by
  by_cases zero : number.mantissa = 0
  · rw [asWritten, if_pos zero, display, display, if_pos rfl, if_pos zero]
  · rw [asWritten, if_neg zero]
    split
    · next folded =>
        have positive : 0 < number.mantissa.natAbs := by omega
        have some : number.mantissa * tenTo (-number.scale).toNat ≠ 0 :=
          Int.mul_ne_zero zero
            (Int.ne_of_gt (Int.natCast_pos.mpr (tenTo_pos _)))
        have length : 0 < (Nat.toDigits 10 number.mantissa.natAbs).length :=
          Nat.length_toDigits_pos
        apply String.toList_inj.mp
        rw [toList_display zero, toList_display some]
        simp only [mul_tenTo_neg_iff, toList_showMagnitude, Int.natAbs_mul,
          Int.natAbs_natCast, toDigits_mul_tenTo positive]
        rw [if_neg (by omega), if_neg (by omega), if_pos (by omega),
          if_neg (by omega), if_neg (by omega), if_pos (by omega)]
        simp
    · rfl

end Cardfile.Decimal
