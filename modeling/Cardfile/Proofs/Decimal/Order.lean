import Cardfile.Proofs.Decimal.Rounding

/-!
# Decimals in units of a scale

At a scale that it reaches, a decimal is a whole number of units.  Comparison
by value is comparison of these numbers, whatever the scale.  So it does not
matter that the first digits are compared before a power of ten is formed.
-/

namespace Cardfile.Decimal

/-- The number of units of the last place at a scale. -/
def unitsAt (scale : Int) (number : Decimal) : Int :=
  number.mantissa * tenTo (scale - number.scale).toNat

theorem tenTo_add (first second : Nat) :
    tenTo (first + second) = tenTo first * tenTo second :=
  Nat.pow_add 10 first second

theorem tenTo_digitCount_le {number : Nat} (positive : 0 < number) :
    tenTo (digitCount number) ≤ number * 10 := by
  have length : digitCount number = (Nat.toDigits 10 number).length :=
    String.length_ofList
  by_cases single : digitCount number ≤ 1
  · exact Nat.le_trans (tenTo_mono single) (Nat.le_mul_of_pos_left 10 positive)
  · have enough : tenTo (digitCount number - 1) ≤ number := by
      refine Nat.le_of_not_lt ?_
      intro small
      have short := (Nat.length_toDigits_le_iff (b := 10) (by decide)
        (by omega)).mpr small
      omega
    calc tenTo (digitCount number)
        = tenTo (digitCount number - 1 + 1) := by
          rw [Nat.sub_add_cancel (by omega)]
      _ = tenTo (digitCount number - 1) * 10 := tenTo_add _ 1
      _ ≤ number * 10 := Nat.mul_le_mul_right 10 enough

/-- Of two positive numbers that one is smaller whose first digit stands at a
lower place. -/
theorem units_lt_of_place_lt {left right : Nat} (positive : 0 < right)
    {leftScale rightScale : Int}
    (lower : digitCount left - leftScale < digitCount right - rightScale) :
    left * tenTo (rightScale - leftScale).toNat <
      right * tenTo (leftScale - rightScale).toNat := by
  have below := lt_tenTo_digitCount left
  have above := tenTo_digitCount_le positive
  have places : digitCount left + (rightScale - leftScale).toNat + 1 ≤
      digitCount right + (leftScale - rightScale).toNat := by omega
  have wide : left * tenTo (rightScale - leftScale).toNat * 10 <
      right * tenTo (leftScale - rightScale).toNat * 10 :=
    calc left * tenTo (rightScale - leftScale).toNat * 10
        < tenTo (digitCount left) * tenTo (rightScale - leftScale).toNat *
            10 :=
          Nat.mul_lt_mul_of_pos_right
            (Nat.mul_lt_mul_of_pos_right below (tenTo_pos _)) (by decide)
      _ = tenTo (digitCount left + (rightScale - leftScale).toNat + 1) := by
          rw [tenTo_add, tenTo_add]
          rfl
      _ ≤ tenTo (digitCount right + (leftScale - rightScale).toNat) :=
          tenTo_mono places
      _ = tenTo (digitCount right) * tenTo (leftScale - rightScale).toNat :=
          tenTo_add _ _
      _ ≤ right * 10 * tenTo (leftScale - rightScale).toNat :=
          Nat.mul_le_mul_right _ above
      _ = right * tenTo (leftScale - rightScale).toNat * 10 :=
          Nat.mul_right_comm _ _ _
  exact Nat.lt_of_mul_lt_mul_right wide

theorem compareMagnitude_eq {left right : Nat} (leftPositive : 0 < left)
    (rightPositive : 0 < right) (leftScale rightScale : Int) :
    compareMagnitude left leftScale right rightScale =
      compare (left * tenTo (rightScale - leftScale).toNat)
        (right * tenTo (leftScale - rightScale).toNat) := by
  rw [compareMagnitude]
  cases places : compare (digitCount left - leftScale)
      (digitCount right - rightScale) with
  | eq => rfl
  | lt =>
      have lower := Int.compare_eq_lt.mp places
      exact (Nat.compare_eq_lt.mpr
        (units_lt_of_place_lt rightPositive lower)).symm
  | gt =>
      have lower := Int.compare_eq_gt.mp places
      exact (Nat.compare_eq_gt.mpr
        (units_lt_of_place_lt leftPositive lower)).symm

theorem lt_of_sign_lt {left right : Int} (signs : left.sign < right.sign) :
    left < right := by
  refine Int.not_le.mp ?_
  intro past
  rcases right.sign_trichotomy with positive | zero | negative
  · have above := Int.sign_eq_one_of_pos
      (Int.lt_of_lt_of_le (Int.pos_of_sign_eq_one positive) past)
    omega
  · have below := Int.sign_neg_iff.mp (zero ▸ signs)
    have none := Int.eq_zero_of_sign_eq_zero zero
    omega
  · have least := left.sign_trichotomy
    omega

theorem compare_congr {left right : Int} {first second : Nat}
    (less : left < right ↔ first < second)
    (greater : right < left ↔ second < first) :
    compare left right = compare first second := by
  simp only [Int.compare_eq_ite_lt, Nat.compare_eq_ite_lt, less, greater]

/-- Numbers are compared by their signs, then by their magnitudes. -/
theorem compare_eq_by_sign (left right : Int) :
    compare left right =
      (compare left.sign right.sign).then
        (if left = 0 then .eq
        else if 0 < left then compare left.natAbs right.natAbs
        else compare right.natAbs left.natAbs) := by
  cases signs : compare left.sign right.sign with
  | lt =>
      exact Int.compare_eq_lt.mpr (lt_of_sign_lt (Int.compare_eq_lt.mp signs))
  | gt =>
      exact Int.compare_eq_gt.mpr (lt_of_sign_lt (Int.compare_eq_gt.mp signs))
  | eq =>
      have same := Int.compare_eq_eq.mp signs
      rw [Ordering.then]
      rcases left.sign_trichotomy with positive | zero | negative
      · have above := Int.pos_of_sign_eq_one positive
        have rightAbove := Int.pos_of_sign_eq_one (same.symm.trans positive)
        rw [if_neg (by omega), if_pos above]
        apply compare_congr <;> omega
      · have none := Int.eq_zero_of_sign_eq_zero zero
        have rightNone := Int.eq_zero_of_sign_eq_zero (same.symm.trans zero)
        rw [if_pos none, none, rightNone]
        rfl
      · have below := Int.neg_of_sign_eq_neg_one negative
        have rightBelow :=
          Int.neg_of_sign_eq_neg_one (same.symm.trans negative)
        rw [if_neg (by omega), if_neg (by omega)]
        apply compare_congr <;> omega

/-- Comparison by value, at the finer scale of the two. -/
theorem order_eq_compare_mul (left right : Decimal) :
    left.order right =
      compare (left.mantissa * tenTo (right.scale - left.scale).toNat)
        (right.mantissa * tenTo (left.scale - right.scale).toNat) := by
  have unit (scale : Int) : (0 : Int) < tenTo scale.toNat :=
    Int.natCast_pos.mpr (tenTo_pos _)
  have sign (number scale : Int) :
      (number * tenTo scale.toNat).sign = number.sign := by
    rw [Int.sign_mul, Int.sign_eq_one_of_pos (unit scale), Int.mul_one]
  rw [compare_eq_by_sign, sign, sign, order]
  cases signs : compare left.mantissa.sign right.mantissa.sign with
  | lt => rfl
  | gt => rfl
  | eq =>
      have same := Int.compare_eq_eq.mp signs
      rw [Ordering.then, Ordering.then]
      rcases left.mantissa.sign_trichotomy with positive | zero | negative
      · have above := Int.pos_of_sign_eq_one positive
        have rightAbove := Int.pos_of_sign_eq_one (same.symm.trans positive)
        have units := Int.mul_pos above (unit (right.scale - left.scale))
        rw [if_neg (by omega), if_pos above, if_neg (by omega),
          if_pos units, compareMagnitude_eq (by omega) (by omega),
          Int.natAbs_mul, Int.natAbs_mul, Int.natAbs_natCast,
          Int.natAbs_natCast]
      · have none := Int.eq_zero_of_sign_eq_zero zero
        rw [if_pos none, if_pos (by rw [none, Int.zero_mul])]
      · have below := Int.neg_of_sign_eq_neg_one negative
        have rightBelow :=
          Int.neg_of_sign_eq_neg_one (same.symm.trans negative)
        have units := Int.mul_neg_of_neg_of_pos below
          (unit (right.scale - left.scale))
        rw [if_neg (by omega), if_neg (by omega), if_neg (by omega),
          if_neg (by omega), compareMagnitude_eq (by omega) (by omega),
          Int.natAbs_mul, Int.natAbs_mul, Int.natAbs_natCast,
          Int.natAbs_natCast]

theorem unitsAt_add {number : Decimal} {scale : Int}
    (reached : number.scale ≤ scale) (more : Nat) :
    number.unitsAt (scale + more) = number.unitsAt scale * tenTo more := by
  have places : (scale + more - number.scale).toNat =
      (scale - number.scale).toNat + more := by omega
  rw [unitsAt, unitsAt, places, tenTo_add, Int.natCast_mul, Int.mul_assoc]

theorem compare_mul_right {factor : Nat} (positive : 0 < factor)
    (left right : Int) :
    compare (left * factor) (right * factor) = compare left right := by
  have above : (0 : Int) < factor := Int.natCast_pos.mpr positive
  simp only [Int.compare_eq_ite_lt, Int.mul_lt_mul_right above]

/-- Comparison by value, at any scale that both numbers reach. -/
theorem order_eq {left right : Decimal} {scale : Int}
    (leftReached : left.scale ≤ scale) (rightReached : right.scale ≤ scale) :
    left.order right = compare (left.unitsAt scale) (right.unitsAt scale) := by
  let fine := max left.scale right.scale
  have more : scale = fine + (scale - fine).toNat := by omega
  rw [more, unitsAt_add (Int.le_max_left _ _),
    unitsAt_add (Int.le_max_right _ _), compare_mul_right (tenTo_pos _),
    order_eq_compare_mul, unitsAt, unitsAt]
  have leftPlaces : (right.scale - left.scale).toNat =
      (fine - left.scale).toNat := by omega
  have rightPlaces : (left.scale - right.scale).toNat =
      (fine - right.scale).toNat := by omega
  rw [leftPlaces, rightPlaces]

theorem less_iff {left right : Decimal} {scale : Int}
    (leftReached : left.scale ≤ scale) (rightReached : right.scale ≤ scale) :
    left.less right = true ↔ left.unitsAt scale < right.unitsAt scale := by
  rw [less, beq_iff_eq, order_eq leftReached rightReached,
    Int.compare_eq_lt]

theorem sameValue_iff {left right : Decimal} {scale : Int}
    (leftReached : left.scale ≤ scale) (rightReached : right.scale ≤ scale) :
    left.sameValue right = true ↔
      left.unitsAt scale = right.unitsAt scale := by
  rw [sameValue, beq_iff_eq, order_eq leftReached rightReached,
    Int.compare_eq_eq]

theorem BroughtTo.mantissa_eq {number kept : Decimal}
    (brought : number.BroughtTo kept) (few : number.scale ≤ mostPlaces) :
    kept.mantissa = number.unitsAt kept.scale := by
  have scale := brought.scale
  have rounded := brought.rounded
  have whole : (number.scale - kept.scale).toNat = 0 := by omega
  have one : tenTo 0 = 1 := rfl
  rw [whole, one] at rounded
  have near := rounded.near
  rw [unitsAt]
  omega

/-- At the last place that can be kept, what a number is brought to is the
number rounded. -/
theorem BroughtTo.halfEven {number kept : Decimal}
    (brought : number.BroughtTo kept) {fine : Int}
    (places : mostPlaces ≤ fine) (reached : number.scale ≤ fine) :
    HalfEven (number.unitsAt fine) (tenTo (fine - mostPlaces).toNat)
      (kept.unitsAt mostPlaces) := by
  have scale := brought.scale
  by_cases few : number.scale ≤ mostPlaces
  · have same : number.unitsAt fine =
        kept.unitsAt mostPlaces * tenTo (fine - mostPlaces).toNat := by
      have sum : (fine - number.scale).toNat =
          (kept.scale - number.scale).toNat +
            ((mostPlaces - kept.scale).toNat +
              (fine - mostPlaces).toNat) := by omega
      rw [unitsAt, unitsAt, sum, tenTo_add, tenTo_add,
        brought.mantissa_eq few, unitsAt]
      simp only [Int.natCast_mul, Int.mul_assoc]
    rw [same]
    exact .of_mul (tenTo_pos _) _
  · have rounded := brought.rounded
    have one : tenTo 0 = 1 := rfl
    have last : (kept.scale - number.scale).toNat = 0 := by omega
    have kept28 : (mostPlaces - kept.scale).toNat = 0 := by omega
    have sum : (fine - mostPlaces).toNat =
        (number.scale - kept.scale).toNat +
          (fine - number.scale).toNat := by omega
    rw [last, one, Int.natCast_one, Int.mul_one] at rounded
    rw [unitsAt, unitsAt, kept28, one, Int.natCast_one, Int.mul_one, sum,
      tenTo_add]
    exact rounded.mul_right (tenTo_pos _)

/-- Numbers that are brought to their scales keep their order. -/
theorem BroughtTo.not_less {left right leftKept rightKept : Decimal}
    (leftBrought : left.BroughtTo leftKept)
    (rightBrought : right.BroughtTo rightKept)
    (ordered : right.less left = false) : rightKept.less leftKept = false := by
  let fine : Int := max mostPlaces (max left.scale right.scale)
  have places : (mostPlaces : Int) ≤ fine := Int.le_max_left _ _
  have leftReached : left.scale ≤ fine := by omega
  have rightReached : right.scale ≤ fine := by omega
  have leftPlaces : leftKept.scale ≤ mostPlaces := by
    rw [leftBrought.scale]
    omega
  have rightPlaces : rightKept.scale ≤ mostPlaces := by
    rw [rightBrought.scale]
    omega
  have bound : left.unitsAt fine ≤ right.unitsAt fine := by
    rw [← Int.not_lt, ← less_iff rightReached leftReached, ordered]
    exact Bool.false_ne_true
  have kept := (leftBrought.halfEven places leftReached).mono (tenTo_pos _)
    bound (rightBrought.halfEven places rightReached)
  rw [← Bool.not_eq_true, less_iff rightPlaces leftPlaces]
  exact Int.not_lt.mpr kept

theorem broughtTo_ofInt (number : Int) :
    (ofInt number).BroughtTo (ofInt number) :=
  broughtTo_brought (ofInt number)

end Cardfile.Decimal
