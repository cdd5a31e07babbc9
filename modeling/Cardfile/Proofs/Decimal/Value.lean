import Mathlib.Algebra.Order.Field.Power
import Mathlib.Data.Rat.Lemmas
import Mathlib.Tactic.FieldSimp
import Mathlib.Tactic.Linarith
import Mathlib.Tactic.Positivity
import Mathlib.Tactic.Ring
import Cardfile.Proofs.Decimal.Order

/-!
# Decimals as rational numbers

The value of a decimal is a rational number, and comparison is comparison of
values.  A number that is brought to a scale from 0 to 28 keeps its value
unless it has more places; then its value becomes the nearest multiple of the
last place, the even one of two.
-/

namespace Cardfile.Decimal

/-- The rational number that a decimal stands for. -/
def value (number : Decimal) : ℚ :=
  number.mantissa * (10 : ℚ) ^ (-number.scale)

theorem cast_tenTo (exponent : Nat) : (tenTo exponent : ℚ) = 10 ^ exponent :=
  Nat.cast_pow 10 exponent

theorem cast_tenTo_toNat {exponent : Int} (whole : 0 ≤ exponent) :
    (tenTo exponent.toNat : ℚ) = (10 : ℚ) ^ exponent := by
  rw [cast_tenTo, ← zpow_natCast, Int.toNat_of_nonneg whole]

theorem cast_unitsAt {number : Decimal} {scale : Int}
    (reached : number.scale ≤ scale) :
    (number.unitsAt scale : ℚ) = number.value * (10 : ℚ) ^ scale := by
  have ten : (10 : ℚ) ≠ 0 := by norm_num
  rw [unitsAt, Int.cast_mul, Int.cast_natCast,
    cast_tenTo_toNat (Int.sub_nonneg_of_le reached), value, mul_assoc,
    ← zpow_add₀ ten, Int.add_comm, ← Int.sub_eq_add_neg]

theorem less_iff_value_lt (left right : Decimal) :
    left.less right = true ↔ left.value < right.value := by
  let scale := max left.scale right.scale
  have leftReached : left.scale ≤ scale := Int.le_max_left _ _
  have rightReached : right.scale ≤ scale := Int.le_max_right _ _
  have unit : (0 : ℚ) < (10 : ℚ) ^ scale := by positivity
  rw [less_iff leftReached rightReached, ← Int.cast_lt (R := ℚ),
    cast_unitsAt leftReached, cast_unitsAt rightReached,
    mul_lt_mul_iff_left₀ unit]

theorem sameValue_iff_value_eq (left right : Decimal) :
    left.sameValue right = true ↔ left.value = right.value := by
  let scale := max left.scale right.scale
  have leftReached : left.scale ≤ scale := Int.le_max_left _ _
  have rightReached : right.scale ≤ scale := Int.le_max_right _ _
  have unit : (10 : ℚ) ^ scale ≠ 0 := by positivity
  rw [sameValue_iff leftReached rightReached, ← @Int.cast_inj ℚ,
    cast_unitsAt leftReached, cast_unitsAt rightReached,
    mul_left_inj' unit]

/-- A multiple of a unit that is nearest to a value; of two that are equally
near, the even one. -/
structure NearestMultiple (value unit : ℚ) (multiple : ℤ) : Prop where
  half : |value - multiple * unit| ≤ unit / 2
  nearest : ∀ other : ℤ,
    |value - multiple * unit| ≤ |value - other * unit|
  even : ∀ other : ℤ, other ≠ multiple →
    |value - other * unit| = |value - multiple * unit| → Even multiple

namespace HalfEven

variable {number : Int} {divisor : Nat} {rounded : Int}

/-- All other whole numbers are half a step away or more. -/
theorem far (half : HalfEven number divisor rounded) {other : Int}
    (different : other ≠ rounded) :
    divisor ≤ 2 * (number - other * divisor).natAbs := by
  have near := half.near
  rcases Int.lt_or_gt_of_ne different with below | above
  · have step : (other + 1) * divisor ≤ rounded * divisor :=
      Int.mul_le_mul_of_nonneg_right below (Int.natCast_nonneg divisor)
    rw [Int.add_mul, Int.one_mul] at step
    omega
  · have step : (rounded + 1) * divisor ≤ other * divisor :=
      Int.mul_le_mul_of_nonneg_right above (Int.natCast_nonneg divisor)
    rw [Int.add_mul, Int.one_mul] at step
    omega

theorem nearestMultiple (half : HalfEven number divisor rounded)
    (positive : 0 < divisor) {unit : ℚ} (someUnit : 0 < unit) :
    NearestMultiple (number * (unit / divisor)) unit rounded := by
  have place : (0 : ℚ) < divisor := by exact_mod_cast positive
  have part : 0 < unit / divisor := by positivity
  have distance (other : ℤ) :
      |number * (unit / divisor) - other * unit| =
        (number - other * divisor).natAbs * (unit / divisor) := by
    have parted : number * (unit / divisor) - other * unit =
        (number - other * divisor : ℤ) * (unit / divisor) := by
      push_cast
      field_simp
    rw [parted, abs_mul, abs_of_pos part, Nat.cast_natAbs, Int.cast_abs]
  constructor
  · have near : (2 : ℚ) * (number - rounded * divisor).natAbs ≤ divisor := by
      exact_mod_cast half.near
    rw [distance]
    calc ((number - rounded * divisor).natAbs : ℚ) * (unit / divisor)
        = 2 * (number - rounded * divisor).natAbs * (unit / divisor) / 2 := by
          ring
      _ ≤ divisor * (unit / divisor) / 2 := by gcongr
      _ = unit / 2 := by field_simp
  · intro other
    rw [distance, distance]
    by_cases same : other = rounded
    · rw [same]
    · have near := half.near
      have far := half.far same
      gcongr
      omega
  · intro other different equal
    rw [distance, distance, mul_left_inj' part.ne', Nat.cast_inj] at equal
    have near := half.near
    have far := half.far different
    exact Int.even_iff.mpr (half.even (by omega))

end HalfEven

namespace BroughtTo

variable {number kept : Decimal}

theorem value_eq (brought : number.BroughtTo kept)
    (few : number.scale ≤ mostPlaces) : kept.value = number.value := by
  have scale := brought.scale
  have ten : (10 : ℚ) ≠ 0 := by norm_num
  have reached : number.scale ≤ kept.scale := by omega
  rw [value, brought.mantissa_eq few, cast_unitsAt reached, mul_assoc,
    ← zpow_add₀ ten, Int.add_right_neg, zpow_zero, mul_one]

/-- A number with many places becomes the nearest multiple of the last place
that is kept. -/
theorem nearestMultiple (brought : number.BroughtTo kept)
    (many : (mostPlaces : Int) < number.scale) :
    kept.scale = mostPlaces ∧
      NearestMultiple number.value ((10 : ℚ) ^ (-(mostPlaces : ℤ)))
        kept.mantissa := by
  have scale := brought.scale
  have rounded := brought.rounded
  have last : kept.scale = mostPlaces := by omega
  have unpadded : (kept.scale - number.scale).toNat = 0 := by omega
  have one : tenTo 0 = 1 := rfl
  have unit : (0 : ℚ) < (10 : ℚ) ^ (-(mostPlaces : ℤ)) := by positivity
  rw [unpadded, one, Int.natCast_one, Int.mul_one] at rounded
  have dropped : (10 : ℚ) ^ (-(mostPlaces : ℤ)) /
      (tenTo (number.scale - kept.scale).toNat : ℕ) =
        (10 : ℚ) ^ (-number.scale) := by
    rw [cast_tenTo_toNat (by omega), ← zpow_sub₀ (by norm_num), last]
    congr 1
    omega
  refine ⟨last, ?_⟩
  rw [value, ← dropped]
  exact rounded.nearestMultiple (tenTo_pos _) unit

theorem value_le {left right leftKept rightKept : Decimal}
    (leftBrought : left.BroughtTo leftKept)
    (rightBrought : right.BroughtTo rightKept)
    (ordered : left.value ≤ right.value) :
    leftKept.value ≤ rightKept.value := by
  rw [← not_lt, ← less_iff_value_lt, Bool.not_eq_true] at ordered ⊢
  exact leftBrought.not_less rightBrought ordered

end BroughtTo

end Cardfile.Decimal
