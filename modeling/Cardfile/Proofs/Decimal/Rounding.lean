import Cardfile.Storage.DecimalCode

/-!
# Rounding half to even

`HalfEven` says which whole number a quotient is rounded to, and `BroughtTo`
which decimal a number becomes at the scale in which sixteen bytes can keep
it.  Both leave one result only.  The form that the bytes keep is this one, and
there is none if its magnitude takes more than 96 bits.
-/

namespace Cardfile.Decimal

theorem tenTo_pos (exponent : Nat) : 0 < tenTo exponent :=
  Nat.pow_pos (by decide)

theorem tenTo_mono {less more : Nat} (bound : less ≤ more) :
    tenTo less ≤ tenTo more :=
  Nat.pow_le_pow_right (by decide) bound

/-- Among the whole numbers that are next to a quotient, the even one. -/
structure HalfEven (number : Int) (divisor : Nat) (rounded : Int) :
    Prop where
  near : 2 * (number - rounded * divisor).natAbs ≤ divisor
  even : 2 * (number - rounded * divisor).natAbs = divisor → rounded % 2 = 0

namespace HalfEven

variable {number : Int} {divisor : Nat} {rounded : Int}

theorem of_one (number : Int) : HalfEven number 1 number := by
  constructor
  · simp
  · simp

theorem neg (half : HalfEven number divisor rounded) :
    HalfEven (-number) divisor (-rounded) := by
  have same : (-number - -rounded * divisor).natAbs =
      (number - rounded * divisor).natAbs := by
    rw [Int.neg_mul, ← Int.natAbs_neg]
    congr 1
    omega
  constructor
  · rw [same]
    exact half.near
  · rw [same]
    intro tie
    have even := half.even tie
    omega

theorem of_mul (positive : 0 < divisor) (whole : Int) :
    HalfEven (whole * divisor) divisor whole := by
  constructor <;> omega

theorem mul_right {factor : Nat} (positive : 0 < factor)
    (half : HalfEven number divisor rounded) :
    HalfEven (number * factor) (divisor * factor : Nat) rounded := by
  have rest : 2 * (number * factor -
        rounded * (divisor * factor : Nat)).natAbs =
      2 * (number - rounded * divisor).natAbs * factor := by
    rw [Int.natCast_mul, ← Int.mul_assoc, ← Int.sub_mul, Int.natAbs_mul,
      Int.natAbs_natCast, Nat.mul_assoc]
  constructor
  · rw [rest]
    exact Nat.mul_le_mul_right factor half.near
  · rw [rest]
    intro tie
    exact half.even (Nat.eq_of_mul_eq_mul_right positive tie)

theorem mono {other first second : Int} (positive : 0 < divisor)
    (bound : number ≤ other) (left : HalfEven number divisor first)
    (right : HalfEven other divisor second) : first ≤ second := by
  refine Int.not_lt.mp ?_
  intro past
  have leftNear := left.near
  have rightNear := right.near
  have apart : second * divisor + divisor ≤ first * divisor := by
    have step : second + 1 ≤ first := by omega
    calc second * divisor + divisor
        = (second + 1) * divisor := by rw [Int.add_mul, Int.one_mul]
      _ ≤ first * divisor :=
        Int.mul_le_mul_of_nonneg_right step (Int.natCast_nonneg divisor)
  have leftEven := left.even (by omega)
  have rightEven := right.even (by omega)
  have step : first * divisor = (second + 1) * divisor := by
    rw [Int.add_mul, Int.one_mul]
    omega
  have next := Int.eq_of_mul_eq_mul_right (by omega) step
  omega

theorem unique {first second : Int} (positive : 0 < divisor)
    (left : HalfEven number divisor first)
    (right : HalfEven number divisor second) : first = second :=
  Int.le_antisymm (left.mono positive (Int.le_refl number) right)
    (right.mono positive (Int.le_refl number) left)

theorem natAbs_le (positive : 0 < divisor)
    (half : HalfEven number divisor rounded) :
    rounded.natAbs ≤ number.natAbs := by
  have grows : (number.natAbs : Int) ≤ number.natAbs * divisor :=
    Int.ofNat_le.mpr (Nat.le_mul_of_pos_right _ positive)
  have above : rounded ≤ number.natAbs :=
    half.mono positive (by omega) (of_mul positive number.natAbs)
  have below : -(number.natAbs : Int) ≤ rounded :=
    (of_mul positive (-(number.natAbs : Int))).mono positive
      (by rw [Int.neg_mul]; omega) half
  omega

end HalfEven

theorem halfEven_divHalfEven {divisor : Nat} (positive : 0 < divisor)
    (number : Nat) :
    HalfEven number divisor (divHalfEven number divisor) := by
  have parts : (number : Int) =
      (number / divisor : Nat) * divisor + (number % divisor : Nat) := by
    have whole := Nat.div_add_mod' number divisor
    exact_mod_cast whole.symm
  have small := Nat.mod_lt number positive
  simp only [divHalfEven]
  generalize number / divisor = quotient at parts ⊢
  generalize number % divisor = rest at parts small ⊢
  have next : ((quotient + 1 : Nat) : Int) * divisor =
      quotient * divisor + divisor := by
    rw [Int.natCast_add, Int.add_mul, Int.natCast_one, Int.one_mul]
  split
  · next below =>
      rw [Nat.compare_eq_lt] at below
      constructor <;> omega
  · next above =>
      rw [Nat.compare_eq_gt] at above
      constructor <;> omega
  · next tie =>
      rw [Nat.compare_eq_eq] at tie
      rcases Nat.mod_two_eq_zero_or_one quotient with even | odd
      · rw [even, Nat.add_zero]
        constructor <;> omega
      · rw [odd]
        constructor <;> omega

theorem halfEven_withSign {divisor : Nat} (positive : 0 < divisor)
    (number : Int) :
    HalfEven number divisor
      (withSign number (divHalfEven number.natAbs divisor)) := by
  have half := halfEven_divHalfEven positive number.natAbs
  simp only [withSign]
  split
  · next negative =>
      have flipped := half.neg
      rwa [show -(number.natAbs : Int) = number by omega] at flipped
  · next whole =>
      rwa [show (number.natAbs : Int) = number by omega] at half

theorem lt_tenTo_digitCount (number : Nat) :
    number < tenTo (digitCount number) := by
  have length : digitCount number = (Nat.toDigits 10 number).length :=
    String.length_ofList
  have positive : 0 < digitCount number := by
    rw [length]
    exact Nat.length_toDigits_pos
  exact (Nat.length_toDigits_le_iff (by decide) positive).mp
    (Nat.le_of_eq length.symm)

theorem halfEven_zero_of_digitCount_lt {number : Int} {dropped : Nat}
    (short : digitCount number.natAbs < dropped) :
    HalfEven number (tenTo dropped) 0 := by
  have small := lt_tenTo_digitCount number.natAbs
  have large : tenTo (digitCount number.natAbs) * 10 ≤ tenTo dropped :=
    tenTo_mono short
  constructor <;> omega

/-- A number brought to the nearest scale from 0 to 28: it gets the zeros that
it lacks, and places that are too many are rounded half to even. -/
structure BroughtTo (number kept : Decimal) : Prop where
  scale : kept.scale = max 0 (min number.scale mostPlaces)
  rounded : HalfEven
    (number.mantissa * tenTo (kept.scale - number.scale).toNat)
    (tenTo (number.scale - kept.scale).toNat) kept.mantissa

theorem BroughtTo.unique {number first second : Decimal}
    (left : number.BroughtTo first) (right : number.BroughtTo second) :
    first = second := by
  have scale : first.scale = second.scale :=
    left.scale.trans right.scale.symm
  have leftRounded := left.rounded
  rw [scale] at leftRounded
  have mantissa := leftRounded.unique (tenTo_pos _) right.rounded
  cases first
  cases second
  cases scale
  cases mantissa
  rfl

theorem BroughtTo.natAbs_le {number kept : Decimal}
    (brought : number.BroughtTo kept) (whole : 0 ≤ number.scale) :
    kept.mantissa.natAbs ≤ number.mantissa.natAbs := by
  have scale := brought.scale
  have unpadded : (kept.scale - number.scale).toNat = 0 := by omega
  have one : ((tenTo 0 : Nat) : Int) = 1 := rfl
  have rounded := brought.rounded
  rw [unpadded, one, Int.mul_one] at rounded
  exact rounded.natAbs_le (tenTo_pos _)

/-- The number in the scale in which it is kept. -/
def brought (number : Decimal) : Decimal :=
  if number.scale < 0 then ⟨number.mantissa * tenTo (-number.scale).toNat, 0⟩
  else number.roundedTo mostPlaces

theorem brought_eq_self {number : Decimal} (whole : 0 ≤ number.scale)
    (few : number.scale ≤ mostPlaces) : number.brought = number := by
  rw [brought, if_neg (Int.not_lt.mpr whole), roundedTo, if_pos few]

theorem broughtTo_roundedTo {number : Decimal} (whole : 0 ≤ number.scale) :
    number.BroughtTo (number.roundedTo mostPlaces) := by
  have most : (mostPlaces : Int) = 28 := rfl
  simp only [roundedTo]
  split
  · next few =>
      constructor
      · omega
      · simpa [tenTo] using HalfEven.of_one number.mantissa
  · next many =>
      have unpadded : (mostPlaces - number.scale).toNat = 0 := by omega
      split
      · next short =>
          constructor
          · simp only
            omega
          · simpa [unpadded, tenTo] using
              halfEven_zero_of_digitCount_lt short
      · constructor
        · simp only
          omega
        · simpa [unpadded, tenTo] using
            halfEven_withSign (tenTo_pos _) number.mantissa

theorem broughtTo_brought (number : Decimal) :
    number.BroughtTo number.brought := by
  simp only [brought]
  split
  · next folded =>
      have most : (mostPlaces : Int) = 28 := rfl
      have unrounded : number.scale.toNat = 0 := by omega
      constructor
      · simp only
        omega
      · simpa [unrounded, tenTo] using
          HalfEven.of_one (number.mantissa * tenTo (-number.scale).toNat)
  · next whole => exact broughtTo_roundedTo (by omega)

/-- What is too wide for 28 more zeros is too wide for 96 bits. -/
theorem wide_of_many_zeros {number : Decimal} (some : number.mantissa ≠ 0)
    (many : mostPlaces < (-number.scale).toNat) :
    1 <<< 96 ≤ (number.mantissa * tenTo (-number.scale).toNat).natAbs := by
  have positive : 1 ≤ number.mantissa.natAbs := by omega
  rw [Int.natAbs_mul, Int.natAbs_natCast]
  calc 1 <<< 96 ≤ tenTo 29 := by decide
    _ ≤ tenTo (-number.scale).toNat := tenTo_mono many
    _ = 1 * tenTo (-number.scale).toNat := (Nat.one_mul _).symm
    _ ≤ number.mantissa.natAbs * tenTo (-number.scale).toNat :=
      Nat.mul_le_mul_right _ positive

theorem unfolded?_cases (number : Decimal) :
    (number.roundedTo mostPlaces).unfolded? mostPlaces =
        some number.brought ∨
      (number.roundedTo mostPlaces).unfolded? mostPlaces = none ∧
        1 <<< 96 ≤ number.brought.mantissa.natAbs := by
  have most : (mostPlaces : Int) = 28 := rfl
  by_cases folded : number.scale < 0
  · have few : number.roundedTo mostPlaces = number := by
      simp only [roundedTo]
      rw [if_pos (by omega)]
    rw [few, unfolded?, if_neg (by omega), brought, if_pos folded]
    by_cases zero : number.mantissa = 0
    · left
      rw [if_pos zero, zero, Int.zero_mul]
    · rw [if_neg zero]
      by_cases bounded : (-number.scale).toNat ≤ mostPlaces
      · exact .inl (if_pos bounded)
      · right
        exact ⟨if_neg bounded,
          wide_of_many_zeros zero (Nat.lt_of_not_le bounded)⟩
  · left
    have scale := (broughtTo_roundedTo (Int.not_lt.mp folded)).scale
    rw [brought, if_neg folded, unfolded?, if_pos (by omega)]

/-- The form in which a number is kept is the one it is brought to, if that
fits. -/
theorem stored?_eq (number : Decimal) :
    number.stored? =
      if number.brought.mantissa.natAbs < 1 <<< 96 then some number.brought
      else none := by
  rcases number.unfolded?_cases with found | ⟨none, wide⟩
  · simp only [stored?, found]
  · simp only [stored?, none]
    rw [if_neg (Nat.not_lt.mpr wide)]

end Cardfile.Decimal
