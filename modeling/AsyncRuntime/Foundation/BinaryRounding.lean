import Mathlib.Algebra.Order.Floor.Ring
import Mathlib.Algebra.Ring.CharZero
import Mathlib.Algebra.Ring.Parity
import Mathlib.Data.Int.Log
import Mathlib.Data.Nat.Cast.Order.Field
import Mathlib.Tactic.Linarith
import Mathlib.Tactic.NormNum
import Mathlib.Tactic.Ring

/-!
# Rounding to a binary floating-point format

A positive value is rounded to the nearest multiple of the unit in its last place,
ties to even; the unit follows from the number of fraction bits and the power of two
below the value.  The exponent is not bounded, so this is the arithmetic of a format
for values that neither overflow nor become subnormal.

The main rule says which values are rounded beyond a bound: those above the midpoint
between the greatest representable value up to the bound and the next one.
-/

namespace AsyncRuntime.Foundation.BinaryRounding

universe u

variable {Value : Type u} [Field Value] [LinearOrder Value] [FloorRing Value]

/-! ## To an integer -/

/-- The nearest integer; of two nearest ones the even one. -/
def nearestEven (value : Value) : ℤ :=
  if 2 * Int.fract value < 1 then
    ⌊value⌋
  else if 1 < 2 * Int.fract value then
    ⌊value⌋ + 1
  else if Even ⌊value⌋ then
    ⌊value⌋
  else
    ⌊value⌋ + 1

theorem floor_le_nearestEven (value : Value) : ⌊value⌋ ≤ nearestEven value := by
  unfold nearestEven
  split_ifs <;> omega

theorem nearestEven_le_floor_add_one (value : Value) :
    nearestEven value ≤ ⌊value⌋ + 1 := by
  unfold nearestEven
  split_ifs <;> omega

theorem le_nearestEven {number : ℤ} {value : Value} (below : (number : Value) ≤ value) :
    number ≤ nearestEven value :=
  le_trans (Int.le_floor.mpr below) (floor_le_nearestEven value)

/-- When the value is rounded up. -/
theorem floor_lt_nearestEven_iff (value : Value) :
    ⌊value⌋ < nearestEven value ↔
      1 < 2 * Int.fract value ∨ 2 * Int.fract value = 1 ∧ Odd ⌊value⌋ := by
  unfold nearestEven
  split_ifs with small large even
  · have not_large : ¬ 1 < 2 * Int.fract value := not_lt.mpr small.le
    have no_tie : 2 * Int.fract value ≠ 1 := small.ne
    simp [not_large, no_tie]
  · simp [large]
  · have not_odd : ¬ Odd ⌊value⌋ := Int.not_odd_iff_even.mpr even
    simp [large, not_odd]
  · have tie : 2 * Int.fract value = 1 := le_antisymm (not_lt.mp large) (not_lt.mp small)
    have odd : Odd ⌊value⌋ := Int.not_even_iff_odd.mp even
    simp [tie, odd]

variable [IsStrictOrderedRing Value]

/-- Which values are rounded to more than an integer. -/
theorem lt_nearestEven_iff (number : ℤ) (value : Value) :
    number < nearestEven value ↔
      (number : Value) + 1 / 2 < value ∨ value = number + 1 / 2 ∧ Odd number := by
  have decomposed := Int.floor_add_fract value
  have nonneg := Int.fract_nonneg value
  have below_one := Int.fract_lt_one value
  rcases lt_trichotomy number ⌊value⌋ with before | rfl | after
  · have apart : (number : Value) + 1 ≤ ⌊value⌋ := by exact_mod_cast before
    constructor
    · intro _
      left
      linarith
    · intro _
      exact lt_of_lt_of_le before (floor_le_nearestEven value)
  · rw [floor_lt_nearestEven_iff]
    constructor
    · rintro (large | ⟨tie, odd⟩)
      · left
        linarith
      · exact .inr ⟨by linarith, odd⟩
    · rintro (large | ⟨tie, odd⟩)
      · left
        linarith
      · exact .inr ⟨by linarith, odd⟩
  · have apart : (⌊value⌋ : Value) + 1 ≤ number := by exact_mod_cast after
    constructor
    · intro rounded
      have bound := nearestEven_le_floor_add_one value
      omega
    · rintro (large | ⟨tie, -⟩)
      · linarith
      · linarith

/-- Rounding moves a value by half at most. -/
theorem nearestEven_le_add_half (value : Value) :
    (nearestEven value : Value) ≤ value + 1 / 2 := by
  have decomposed := Int.floor_add_fract value
  have nonneg := Int.fract_nonneg value
  rcases (floor_le_nearestEven value).eq_or_lt with down | up
  · rw [← down]
    linarith
  · have one_up : nearestEven value = ⌊value⌋ + 1 :=
      le_antisymm (nearestEven_le_floor_add_one value) up
    rw [one_up, Int.cast_add, Int.cast_one]
    rcases (floor_lt_nearestEven_iff value).mp up with large | ⟨tie, -⟩
    · linarith
    · linarith

theorem nearestEven_le {number : ℤ} {value : Value} (above : value ≤ number) :
    nearestEven value ≤ number := by
  rw [← not_lt, lt_nearestEven_iff]
  rintro (large | ⟨tie, -⟩)
  · linarith
  · linarith

@[simp]
theorem nearestEven_intCast (number : ℤ) : nearestEven (number : Value) = number :=
  le_antisymm (nearestEven_le le_rfl) (le_nearestEven le_rfl)

/-! ## To a format -/

section Format

variable (fraction : ℕ)

/-- The unit in the last place of a value, for this number of fraction bits. -/
def ulp (value : Value) : Value :=
  2 ^ (Int.log 2 value - fraction)

/-- The value as a multiple of its unit in the last place. -/
def significand (value : Value) : Value :=
  value / ulp fraction value

/-- The representable value nearest to a positive one. -/
def roundTo (value : Value) : Value :=
  nearestEven (significand fraction value) * ulp fraction value

/-- The midpoint between the greatest representable value up to a bound and the next one. -/
def cut (bound : Value) : Value :=
  (⌊significand fraction bound⌋ + 1 / 2) * ulp fraction bound

/-- A value is rounded to more than a bound. -/
def RoundsAbove (bound value : Value) : Prop :=
  cut fraction bound < value ∨
    value = cut fraction bound ∧ Odd ⌊significand fraction bound⌋

end Format

section Bounds

variable {fraction : ℕ} {value bound : Value} {exponent : ℤ}

theorem log_eq (lower : (2 : Value) ^ exponent ≤ value)
    (upper : value < (2 : Value) ^ (exponent + 1)) : Int.log 2 value = exponent := by
  have positive : 0 < value := lt_of_lt_of_le (zpow_pos two_pos _) lower
  apply le_antisymm
  · have below := (Int.lt_zpow_iff_log_lt Nat.one_lt_two positive).mp
      (by exact_mod_cast upper : value < ((2 : ℕ) : Value) ^ (exponent + 1))
    omega
  · exact (Int.zpow_le_iff_le_log Nat.one_lt_two positive).mp (by exact_mod_cast lower)

theorem zpow_log_le (positive : 0 < value) : (2 : Value) ^ Int.log 2 value ≤ value := by
  exact_mod_cast Int.zpow_log_le_self Nat.one_lt_two positive

theorem lt_zpow_log (value : Value) : value < (2 : Value) ^ (Int.log 2 value + 1) := by
  exact_mod_cast Int.lt_zpow_succ_log_self Nat.one_lt_two value

theorem ulp_pos (fraction : ℕ) (value : Value) : 0 < ulp fraction value :=
  zpow_pos two_pos _

omit [IsStrictOrderedRing Value] in
theorem pow_mul_ulp (fraction : ℕ) (value : Value) :
    (2 : Value) ^ fraction * ulp fraction value = 2 ^ Int.log 2 value := by
  rw [ulp, ← zpow_natCast, ← zpow_add₀ two_ne_zero]
  congr 1
  ring

omit [IsStrictOrderedRing Value] in
theorem pow_succ_mul_ulp (fraction : ℕ) (value : Value) :
    (2 : Value) ^ (fraction + 1) * ulp fraction value = 2 ^ (Int.log 2 value + 1) := by
  rw [pow_succ, mul_right_comm, pow_mul_ulp, zpow_add_one₀ two_ne_zero]

theorem significand_mul_ulp (fraction : ℕ) (value : Value) :
    significand fraction value * ulp fraction value = value :=
  div_mul_cancel₀ value (ulp_pos fraction value).ne'

theorem pow_le_significand (fraction : ℕ) (positive : 0 < value) :
    (2 : Value) ^ fraction ≤ significand fraction value := by
  rw [significand, le_div_iff₀ (ulp_pos fraction value), pow_mul_ulp]
  exact zpow_log_le positive

theorem significand_lt_pow (fraction : ℕ) (value : Value) :
    significand fraction value < (2 : Value) ^ (fraction + 1) := by
  rw [significand, div_lt_iff₀ (ulp_pos fraction value), pow_succ_mul_ulp]
  exact lt_zpow_log value

/-- Rounding does not pass a power of two on the way down. -/
theorem zpow_le_roundTo (positive : 0 < value) (lower : (2 : Value) ^ exponent ≤ value) :
    (2 : Value) ^ exponent ≤ roundTo fraction value := by
  have exponent_le : exponent ≤ Int.log 2 value :=
    (Int.zpow_le_iff_le_log Nat.one_lt_two positive).mp (by exact_mod_cast lower)
  have rounded : (2 ^ fraction : ℤ) ≤ nearestEven (significand fraction value) := by
    apply le_nearestEven
    exact_mod_cast pow_le_significand fraction positive
  calc
    (2 : Value) ^ exponent ≤ 2 ^ Int.log 2 value :=
      zpow_le_zpow_right₀ one_le_two exponent_le
    _ = 2 ^ fraction * ulp fraction value := (pow_mul_ulp fraction value).symm
    _ ≤ roundTo fraction value := by
      apply mul_le_mul_of_nonneg_right _ (ulp_pos fraction value).le
      exact_mod_cast rounded

/-- Rounding does not pass a power of two on the way up. -/
theorem roundTo_le_zpow (positive : 0 < value) (upper : value < (2 : Value) ^ exponent) :
    roundTo fraction value ≤ (2 : Value) ^ exponent := by
  have log_lt : Int.log 2 value < exponent :=
    (Int.lt_zpow_iff_log_lt Nat.one_lt_two positive).mp (by exact_mod_cast upper)
  have rounded : nearestEven (significand fraction value) ≤ (2 ^ (fraction + 1) : ℤ) := by
    apply nearestEven_le
    exact_mod_cast (significand_lt_pow fraction value).le
  calc
    roundTo fraction value ≤ 2 ^ (fraction + 1) * ulp fraction value := by
      apply mul_le_mul_of_nonneg_right _ (ulp_pos fraction value).le
      exact_mod_cast rounded
    _ = 2 ^ (Int.log 2 value + 1) := pow_succ_mul_ulp fraction value
    _ ≤ 2 ^ exponent := zpow_le_zpow_right₀ one_le_two (by omega)

theorem roundTo_pos (positive : 0 < value) : 0 < roundTo fraction value :=
  lt_of_lt_of_le (zpow_pos two_pos _) (zpow_le_roundTo positive (zpow_log_le positive))

/-- In the binade of the bound the integers decide. -/
theorem lt_roundTo_iff_of_log_eq (same : Int.log 2 value = Int.log 2 bound) :
    bound < roundTo fraction value ↔ RoundsAbove fraction bound value := by
  have ulp_eq : ulp fraction value = ulp fraction bound := by
    rw [ulp, ulp, same]
  have positive := ulp_pos fraction bound
  have floor_lt :
      bound < roundTo fraction value ↔
        ⌊significand fraction bound⌋ < nearestEven (significand fraction value) := by
    rw [roundTo, ulp_eq, ← div_lt_iff₀ positive, Int.floor_lt]
    rfl
  have scaled : significand fraction value = value / ulp fraction bound := by
    rw [significand, ulp_eq]
  rw [floor_lt, lt_nearestEven_iff, scaled, lt_div_iff₀ positive, div_eq_iff positive.ne']
  rfl

theorem zpow_log_le_cut (fraction : ℕ) (positive : 0 < bound) :
    (2 : Value) ^ Int.log 2 bound ≤ cut fraction bound := by
  have floor_ge : (2 ^ fraction : ℤ) ≤ ⌊significand fraction bound⌋ := by
    rw [Int.le_floor]
    exact_mod_cast pow_le_significand fraction positive
  have cast_ge : (2 : Value) ^ fraction ≤ ⌊significand fraction bound⌋ := by
    exact_mod_cast floor_ge
  rw [← pow_mul_ulp fraction bound]
  apply mul_le_mul_of_nonneg_right _ (ulp_pos fraction bound).le
  linarith

theorem cut_lt_zpow_log (fraction : ℕ) (bound : Value) :
    cut fraction bound < (2 : Value) ^ (Int.log 2 bound + 1) := by
  have floor_lt : ⌊significand fraction bound⌋ < (2 ^ (fraction + 1) : ℤ) := by
    rw [Int.floor_lt]
    exact_mod_cast significand_lt_pow fraction bound
  have cast_le : (⌊significand fraction bound⌋ : Value) + 1 ≤ 2 ^ (fraction + 1) := by
    exact_mod_cast floor_lt
  rw [← pow_succ_mul_ulp fraction bound]
  apply mul_lt_mul_of_pos_right _ (ulp_pos fraction bound)
  linarith

/--
Which values are rounded to more than a bound: those above the midpoint, and the
midpoint itself when the tie goes up.
-/
theorem lt_roundTo_iff (bound_pos : 0 < bound) (value_pos : 0 < value) :
    bound < roundTo fraction value ↔ RoundsAbove fraction bound value := by
  rcases lt_trichotomy (Int.log 2 value) (Int.log 2 bound) with before | same | after
  · have value_lt : value < (2 : Value) ^ Int.log 2 bound := by
      exact_mod_cast (Int.lt_zpow_iff_log_lt Nat.one_lt_two value_pos).mpr before
    have below_cut := lt_of_lt_of_le value_lt (zpow_log_le_cut fraction bound_pos)
    constructor
    · intro above
      have roundTo_le : roundTo fraction value ≤ bound :=
        le_trans (roundTo_le_zpow value_pos value_lt) (zpow_log_le bound_pos)
      exact absurd above (not_lt.mpr roundTo_le)
    · rintro (above | ⟨tie, -⟩)
      · exact absurd above below_cut.not_gt
      · exact absurd tie below_cut.ne
  · exact lt_roundTo_iff_of_log_eq same
  · have le_value : (2 : Value) ^ (Int.log 2 bound + 1) ≤ value := by
      exact_mod_cast (Int.zpow_le_iff_le_log Nat.one_lt_two value_pos).mpr after
    constructor
    · intro _
      exact .inl (lt_of_lt_of_le (cut_lt_zpow_log fraction bound) le_value)
    · intro _
      exact lt_of_lt_of_le (lt_zpow_log bound) (zpow_le_roundTo value_pos le_value)

/-- A number with few enough binary digits is representable. -/
theorem roundTo_natCast {number : ℕ} (positive : 0 < number)
    (few : number < 2 ^ (fraction + 1)) :
    roundTo fraction (number : Value) = number := by
  have log_le : Int.log 2 (number : Value) ≤ fraction := by
    rw [Int.log_natCast]
    have := Nat.log_lt_of_lt_pow positive.ne' few
    omega
  -- the unit divides one, so the significand is an integer
  obtain ⟨digits, digits_eq⟩ := Int.eq_ofNat_of_zero_le (sub_nonneg.mpr log_le)
  have unit_eq : ulp fraction (number : Value) = (2 ^ digits)⁻¹ := by
    rw [ulp, ← zpow_natCast, ← zpow_neg, ← digits_eq]
    congr 1
    ring
  have significand_eq :
      significand fraction (number : Value) = ((number * 2 ^ digits : ℤ) : Value) := by
    rw [significand, unit_eq, div_inv_eq_mul]
    push_cast
    rfl
  rw [roundTo, significand_eq, nearestEven_intCast, ← significand_eq]
  exact significand_mul_ulp fraction _

/-- Scaling by a power of two moves the exponent only. -/
theorem roundTo_mul_zpow (positive : 0 < value) (exponent : ℤ) :
    roundTo fraction (value * 2 ^ exponent) = roundTo fraction value * 2 ^ exponent := by
  have power_pos : (0 : Value) < 2 ^ exponent := zpow_pos two_pos _
  have log_eq_add : Int.log 2 (value * 2 ^ exponent) = Int.log 2 value + exponent := by
    apply log_eq
    · rw [zpow_add₀ two_ne_zero]
      exact mul_le_mul_of_nonneg_right (zpow_log_le positive) power_pos.le
    · rw [add_right_comm, zpow_add₀ two_ne_zero]
      exact mul_lt_mul_of_pos_right (lt_zpow_log value) power_pos
  have ulp_eq : ulp fraction (value * 2 ^ exponent) = ulp fraction value * 2 ^ exponent := by
    rw [ulp, ulp, log_eq_add, ← zpow_add₀ two_ne_zero]
    congr 1
    ring
  have significand_eq :
      significand fraction (value * 2 ^ exponent) = significand fraction value := by
    rw [significand, ulp_eq, mul_div_mul_right _ _ power_pos.ne', significand]
  rw [roundTo, significand_eq, ulp_eq, roundTo, mul_assoc]

/-- A number with few enough binary digits is representable, and so is the next one. -/
theorem roundTo_natCast_of_le {number : ℕ} (positive : 0 < number)
    (few : number ≤ 2 ^ (fraction + 1)) :
    roundTo fraction (number : Value) = number := by
  rcases few.lt_or_eq with fewer | rfl
  · exact roundTo_natCast positive fewer
  · have one_eq : roundTo fraction ((1 : ℕ) : Value) = (1 : ℕ) :=
      roundTo_natCast Nat.one_pos (Nat.one_lt_two_pow (Nat.succ_ne_zero fraction))
    have scaled :
        roundTo fraction ((1 : Value) * 2 ^ ((fraction + 1 : ℕ) : ℤ)) =
          roundTo fraction (1 : Value) * 2 ^ ((fraction + 1 : ℕ) : ℤ) :=
      roundTo_mul_zpow one_pos _
    rw [Nat.cast_one] at one_eq
    rw [one_eq, one_mul, zpow_natCast] at scaled
    rw [Nat.cast_pow, Nat.cast_ofNat]
    exact scaled

/-- Rounding keeps the order of positive values. -/
theorem roundTo_mono {larger : Value} (positive : 0 < value) (le : value ≤ larger) :
    roundTo fraction value ≤ roundTo fraction larger := by
  have larger_pos : 0 < larger := lt_of_lt_of_le positive le
  rw [← not_lt]
  intro crossed
  have passed := (lt_roundTo_iff (roundTo_pos larger_pos) positive).mp crossed
  apply lt_irrefl (roundTo fraction larger)
  rw [lt_roundTo_iff (roundTo_pos larger_pos) larger_pos]
  -- what lies above a midpoint stays above it when it grows
  rcases passed with above | ⟨tie, odd⟩
  · exact .inl (lt_of_lt_of_le above le)
  · rw [tie] at le
    rcases le.eq_or_lt with same | above
    · exact .inr ⟨same.symm, odd⟩
    · exact .inl above

theorem roundTo_zero (fraction : ℕ) : roundTo fraction (0 : Value) = 0 := by
  have none : nearestEven ((0 : ℤ) : Value) = 0 := nearestEven_intCast 0
  rw [Int.cast_zero] at none
  rw [roundTo, significand, zero_div, none, Int.cast_zero, zero_mul]

/-- Rounding moves a value by half a unit at most. -/
theorem roundTo_le_add (fraction : ℕ) (value : Value) :
    roundTo fraction value ≤ value + ulp fraction value / 2 := by
  have scaled :=
    mul_le_mul_of_nonneg_right (nearestEven_le_add_half (significand fraction value))
      (ulp_pos fraction value).le
  rw [add_mul, significand_mul_ulp] at scaled
  rw [roundTo]
  linarith

/-- The midpoint is half a unit away at most. -/
theorem cut_le (fraction : ℕ) (bound : Value) :
    cut fraction bound ≤ bound + ulp fraction bound / 2 := by
  have floor_le := Int.floor_le (significand fraction bound)
  have scaled :=
    mul_le_mul_of_nonneg_right floor_le (ulp_pos fraction bound).le
  rw [significand_mul_ulp] at scaled
  rw [cut, add_mul]
  linarith

/-- A unit is small against its value. -/
theorem pow_mul_ulp_le (fraction : ℕ) (positive : 0 < value) :
    (2 : Value) ^ fraction * ulp fraction value ≤ value := by
  rw [pow_mul_ulp]
  exact zpow_log_le positive

/--
The rounded quotient of two numbers lies above the same integer as the quotient, when
the dividend has few enough binary digits: what the quotient is short of the next
integer is more than half a unit.
-/
theorem floor_roundTo_div {dividend divisor : ℕ} (positive : 0 < divisor)
    (few : dividend < 2 ^ (fraction + 1)) :
    ⌊roundTo fraction ((dividend : Value) / divisor)⌋ = ((dividend / divisor : ℕ) : ℤ) := by
  have divisor_pos : (0 : Value) < divisor := by exact_mod_cast positive
  rcases Nat.eq_zero_or_pos dividend with none | dividend_pos
  · rw [none, Nat.cast_zero, zero_div, roundTo_zero, Int.floor_zero, Nat.zero_div]
    rfl
  have quotient_pos : (0 : Value) < (dividend : Value) / divisor :=
    div_pos (by exact_mod_cast dividend_pos) divisor_pos
  rw [Int.floor_eq_iff, Int.cast_natCast]
  constructor
  · rcases Nat.eq_zero_or_pos (dividend / divisor) with none | whole
    · rw [none, Nat.cast_zero]
      exact (roundTo_pos quotient_pos).le
    · -- the integer is representable itself
      have representable :
          roundTo fraction ((dividend / divisor : ℕ) : Value) = (dividend / divisor : ℕ) :=
        roundTo_natCast whole (lt_of_le_of_lt (Nat.div_le_self _ _) few)
      rw [← representable]
      exact roundTo_mono (by exact_mod_cast whole) Nat.cast_div_le
  · have rounded := roundTo_le_add fraction ((dividend : Value) / divisor)
    have unit := pow_mul_ulp_le fraction quotient_pos
    rw [le_div_iff₀ divisor_pos] at unit
    have few_cast : (dividend : Value) < 2 ^ (fraction + 1) := by exact_mod_cast few
    have half : ulp fraction ((dividend : Value) / divisor) * divisor < 2 := by
      have power_pos : (0 : Value) < 2 ^ fraction := pow_pos two_pos _
      rw [pow_succ] at few_cast
      rw [← mul_lt_mul_iff_right₀ power_pos, ← mul_assoc]
      exact lt_of_le_of_lt unit few_cast
    have short : (dividend : Value) + 1 ≤ divisor * ((dividend / divisor : ℕ) + 1) := by
      exact_mod_cast Nat.lt_mul_div_succ dividend positive
    have bound : (dividend : Value) / divisor + ulp fraction ((dividend : Value) / divisor) / 2 <
        (dividend / divisor : ℕ) + 1 := by
      rw [← mul_lt_mul_iff_left₀ divisor_pos, add_mul, div_mul_cancel₀ _ divisor_pos.ne']
      linarith
    exact lt_of_le_of_lt rounded bound

end Bounds

end AsyncRuntime.Foundation.BinaryRounding
