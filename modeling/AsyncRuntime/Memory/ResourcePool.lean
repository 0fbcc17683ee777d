import AsyncRuntime.Foundation.BinaryRounding
import Mathlib.Data.Rat.Floor

/-!
# How many chunks a `resource_pool` reserves

`resource_pool::allocate(size)` asks the pool for `get_chunks_count(size, chunk_size)`
chunks in a row, and so do the allocators and stacks above it.  The count is the
ceiling of a division in `float`: both arguments and the quotient are rounded to 24
binary digits.  The numbers are those of a `size_t`, far from where the exponent of a
`float` ends.

A `float` is given by its value.
-/

namespace AsyncRuntime.Memory.ResourcePool

open AsyncRuntime.Foundation.BinaryRounding

/-- The fraction bits of a `float`. -/
def fractionBits : ℕ := 23

/-- The greatest `int`. -/
def maxInt : ℤ := 2 ^ 31 - 1

/-- `(float) x` -/
def toFloat (number : ℕ) : ℚ :=
  roundTo fractionBits (number : ℚ)

/-- The division of two floats; by zero it yields no number. -/
def divide (dividend divisor : ℚ) : Option ℚ :=
  if divisor = 0 then none else some (roundTo fractionBits (dividend / divisor))

/-- `(int) ceil(x)`, which is undefined outside the range of `int`. -/
def ceilToInt (value : ℚ) : Option ℤ :=
  if -maxInt - 1 ≤ ⌈value⌉ ∧ ⌈value⌉ ≤ maxInt then some ⌈value⌉ else none

/-- `get_chunks_count` -/
def getChunksCount (size chunkSize : ℕ) : Option ℤ :=
  (divide (toFloat size) (toFloat chunkSize)).bind ceilToInt

/-- The bytes of the block that `resource_pool::allocate` takes from the pool. -/
def allocate (chunkSize size : ℕ) : Option ℤ :=
  (getChunksCount size chunkSize).map (· * chunkSize)

/-! ## What is asked of the count -/

/-- The number of chunks that a size takes. -/
def exactCount (size chunkSize : ℕ) : ℤ :=
  ⌈(size : ℚ) / chunkSize⌉

/-- The block is at least as large as the size that was asked for. -/
def Covers (size chunkSize : ℕ) : Prop :=
  ∃ bytes, allocate chunkSize size = some bytes ∧ (size : ℤ) ≤ bytes

/--
One chunk is enough, or the quotient of the two floats lies above the midpoint behind
the greatest float that is one chunk short.
-/
def RoundsEnough (size chunkSize : ℕ) : Prop :=
  exactCount size chunkSize = 1 ∨
    RoundsAbove fractionBits ((exactCount size chunkSize - 1 : ℤ) : ℚ)
      (toFloat size / toFloat chunkSize)

section

variable {size chunkSize : ℕ}

theorem toFloat_pos {number : ℕ} (positive : 0 < number) : 0 < toFloat number :=
  roundTo_pos (by exact_mod_cast positive)

theorem quotient_pos (size_pos : 0 < size) (chunk_pos : 0 < chunkSize) :
    0 < toFloat size / toFloat chunkSize :=
  div_pos (toFloat_pos size_pos) (toFloat_pos chunk_pos)

/-- The greatest float below the first number that is no `int` is an odd one. -/
theorem roundsAbove_maxInt_iff (value : ℚ) :
    RoundsAbove fractionBits (maxInt : ℚ) value ↔ (2 : ℚ) ^ 31 - 64 ≤ value := by
  have log_maxInt : Int.log 2 (maxInt : ℚ) = 30 := by
    apply log_eq
    · norm_num [maxInt]
    · norm_num [maxInt]
  have ulp_eq : ulp fractionBits (maxInt : ℚ) = 128 := by
    rw [ulp, log_maxInt]
    norm_num [fractionBits]
  have floor_eq : ⌊significand fractionBits (maxInt : ℚ)⌋ = 16777215 := by
    rw [significand, ulp_eq, Int.floor_eq_iff]
    norm_num [maxInt]
  have cut_eq : cut fractionBits (maxInt : ℚ) = 2 ^ 31 - 64 := by
    rw [cut, ulp_eq, floor_eq]
    norm_num
  have odd : Odd (16777215 : ℤ) := by decide
  rw [RoundsAbove, cut_eq, floor_eq, le_iff_lt_or_eq]
  constructor
  · rintro (above | ⟨tie, -⟩)
    · exact .inl above
    · exact .inr tie.symm
  · rintro (above | tie)
    · exact .inl above
    · exact .inr ⟨tie.symm, odd⟩

/-- The count is an `int` exactly when the quotient is small enough. -/
theorem getChunksCount_eq (size_pos : 0 < size) (chunk_pos : 0 < chunkSize) :
    getChunksCount size chunkSize =
      if toFloat size / toFloat chunkSize < 2 ^ 31 - 64 then
        some ⌈roundTo fractionBits (toFloat size / toFloat chunkSize)⌉
      else
        none := by
  have positive := quotient_pos size_pos chunk_pos
  have rounded_pos : 0 < roundTo fractionBits (toFloat size / toFloat chunkSize) :=
    roundTo_pos positive
  have fits_iff :
      -maxInt - 1 ≤ ⌈roundTo fractionBits (toFloat size / toFloat chunkSize)⌉ ∧
          ⌈roundTo fractionBits (toFloat size / toFloat chunkSize)⌉ ≤ maxInt ↔
        toFloat size / toFloat chunkSize < 2 ^ 31 - 64 := by
    have low : -maxInt - 1 ≤ ⌈roundTo fractionBits (toFloat size / toFloat chunkSize)⌉ := by
      have count_pos := Int.ceil_pos.mpr rounded_pos
      have range_pos : 0 < maxInt := by decide
      omega
    rw [and_iff_right low, Int.ceil_le, ← not_lt,
      lt_roundTo_iff (by norm_num [maxInt]) positive, roundsAbove_maxInt_iff, not_le]
  rw [getChunksCount, divide, if_neg (toFloat_pos chunk_pos).ne', Option.bind_some,
    ceilToInt]
  simp only [fits_iff]

theorem exactCount_pos (size_pos : 0 < size) (chunk_pos : 0 < chunkSize) :
    0 < exactCount size chunkSize := by
  apply Int.ceil_pos.mpr
  exact div_pos (by exact_mod_cast size_pos) (by exact_mod_cast chunk_pos)

/-- A number of chunks is enough when it is not below the exact one. -/
theorem exactCount_le_iff (chunk_pos : 0 < chunkSize) (count : ℤ) :
    exactCount size chunkSize ≤ count ↔ (size : ℤ) ≤ count * chunkSize := by
  have chunk_pos : (0 : ℚ) < chunkSize := by exact_mod_cast chunk_pos
  rw [exactCount, Int.ceil_le, div_le_iff₀ chunk_pos]
  norm_cast

theorem exactCount_le_ceil_iff (size_pos : 0 < size) (chunk_pos : 0 < chunkSize) :
    exactCount size chunkSize ≤
        ⌈roundTo fractionBits (toFloat size / toFloat chunkSize)⌉ ↔
      RoundsEnough size chunkSize := by
  have positive := quotient_pos size_pos chunk_pos
  have exact_pos := exactCount_pos size_pos chunk_pos
  rw [← Int.sub_one_lt_iff, Int.lt_ceil, RoundsEnough]
  by_cases one : exactCount size chunkSize = 1
  · have zero : ((exactCount size chunkSize - 1 : ℤ) : ℚ) = 0 := by
      rw [one]
      norm_num
    rw [zero]
    exact ⟨fun _ => .inl one, fun _ => roundTo_pos positive⟩
  · have below_pos : (0 : ℚ) < ((exactCount size chunkSize - 1 : ℤ) : ℚ) := by
      have : 0 < exactCount size chunkSize - 1 := by omega
      exact_mod_cast this
    rw [lt_roundTo_iff below_pos positive]
    exact (or_iff_right one).symm

theorem covers_iff_roundsEnough (size_pos : 0 < size) (chunk_pos : 0 < chunkSize) :
    Covers size chunkSize ↔
      RoundsEnough size chunkSize ∧
        toFloat size / toFloat chunkSize < 2 ^ 31 - 64 := by
  rw [Covers, allocate, getChunksCount_eq size_pos chunk_pos]
  split
  · rename_i fits
    rw [← exactCount_le_ceil_iff size_pos chunk_pos, exactCount_le_iff chunk_pos]
    simp [fits]
  · rename_i unfit
    simp [unfit]

/-! ## Small sizes -/

theorem toFloat_of_small {number : ℕ} (positive : 0 < number) (small : number ≤ 2 ^ 24) :
    toFloat number = number :=
  roundTo_natCast_of_le positive small

/-- Between a number of chunks and the next fraction there is room for half a unit. -/
theorem cut_lt_quotient {below : ℕ} (below_pos : 0 < below) (chunk_pos : 0 < chunkSize)
    (more : below * chunkSize < size) (small : size ≤ 2 ^ 24) :
    cut fractionBits (below : ℚ) < (size : ℚ) / chunkSize := by
  have chunk_pos : (0 : ℚ) < chunkSize := by exact_mod_cast chunk_pos
  have below_pos : (0 : ℚ) < below := by exact_mod_cast below_pos
  have more : (below : ℚ) * chunkSize + 1 ≤ size := by exact_mod_cast more
  have small : (size : ℚ) ≤ 2 ^ 24 := by exact_mod_cast small
  have unit_le := pow_mul_ulp_le fractionBits below_pos
  have cut_le := cut_le fractionBits (below : ℚ)
  have half_lt : ulp fractionBits (below : ℚ) / 2 * chunkSize < 1 := by
    have scaled := mul_le_mul_of_nonneg_right unit_le chunk_pos.le
    norm_num [fractionBits] at scaled ⊢
    linarith
  rw [lt_div_iff₀ chunk_pos]
  calc
    cut fractionBits (below : ℚ) * chunkSize ≤
        (below + ulp fractionBits (below : ℚ) / 2) * chunkSize :=
      mul_le_mul_of_nonneg_right cut_le chunk_pos.le
    _ < below * chunkSize + 1 := by
      rw [add_mul]
      linarith
    _ ≤ size := more

theorem one_le_toFloat {number : ℕ} (positive : 0 < number) : 1 ≤ toFloat number := by
  have lower : (2 : ℚ) ^ (0 : ℤ) ≤ number := by
    rw [zpow_zero]
    exact_mod_cast positive
  have rounded : (2 : ℚ) ^ (0 : ℤ) ≤ toFloat number :=
    zpow_le_roundTo (by exact_mod_cast positive) lower
  rwa [zpow_zero] at rounded

/-- Up to `2 ^ 24` the size and the chunks are floats, and they are far enough apart. -/
theorem covers_of_small (size_pos : 0 < size) (chunk_pos : 0 < chunkSize)
    (small : size ≤ 2 ^ 24) : Covers size chunkSize := by
  have toFloat_size := toFloat_of_small size_pos small
  rw [covers_iff_roundsEnough size_pos chunk_pos]
  constructor
  · by_cases one : exactCount size chunkSize = 1
    · exact .inl one
    · right
      have exact_pos := exactCount_pos size_pos chunk_pos
      obtain ⟨below, below_eq⟩ :=
        Int.eq_ofNat_of_zero_le (show 0 ≤ exactCount size chunkSize - 1 by omega)
      have below_pos : 0 < below := by omega
      have more : below * chunkSize < size := by
        have short : ¬ exactCount size chunkSize ≤ below := by omega
        rw [exactCount_le_iff chunk_pos, not_le] at short
        exact_mod_cast short
      have chunk_small : chunkSize ≤ 2 ^ 24 := by
        have := Nat.le_mul_of_pos_left chunkSize below_pos
        omega
      rw [below_eq, toFloat_size, toFloat_of_small chunk_pos chunk_small]
      exact .inl (cut_lt_quotient below_pos chunk_pos more small)
  · have one_le := one_le_toFloat chunk_pos
    have size_le : (size : ℚ) ≤ 2 ^ 24 := by exact_mod_cast small
    rw [toFloat_size, div_lt_iff₀ (toFloat_pos chunk_pos)]
    linarith

/--
The block covers the size exactly when
the quotient of the rounded sizes is above the midpoint between the greatest float
that is short of the exact count and the next one (or on it, with the tie going up),
and below the midpoint where the floats leave the range of `int`.  Up to a size of
`2 ^ 24` it always does.
-/
theorem allocate_covers_iff (size_pos : 1 ≤ size) (chunk_pos : 1 ≤ chunkSize) :
    (Covers size chunkSize ↔
      RoundsEnough size chunkSize ∧
        toFloat size / toFloat chunkSize < 2 ^ 31 - 64) ∧
    (size ≤ 2 ^ 24 → Covers size chunkSize) :=
  ⟨covers_iff_roundsEnough size_pos chunk_pos, covers_of_small size_pos chunk_pos⟩

end

/-- A default pool and a size of a few chunks. -/
theorem allocate_covers_thousand :
    exactCount 1000 128 ≤ maxInt ∧ Covers 1000 128 := by
  have fits : exactCount 1000 128 ≤ maxInt := by
    rw [exactCount, Int.ceil_le]
    norm_num [maxInt]
  obtain ⟨-, covers⟩ := @allocate_covers_iff 1000 128 (by decide) (by decide)
  exact ⟨fits, covers (by decide)⟩

/-- One byte above `2 ^ 24` is lost in the conversion to `float`. -/
theorem toFloat_loses_byte : toFloat (2 ^ 24 + 1) = 2 ^ 24 := by
  have log_eq : Int.log 2 ((2 ^ 24 + 1 : ℕ) : ℚ) = 24 := by
    apply log_eq
    · norm_num
    · norm_num
  have ulp_eq : ulp fractionBits ((2 ^ 24 + 1 : ℕ) : ℚ) = 2 := by
    rw [ulp, log_eq]
    norm_num [fractionBits]
  have significand_eq :
      significand fractionBits ((2 ^ 24 + 1 : ℕ) : ℚ) = (2 ^ 23 : ℤ) + 1 / 2 := by
    rw [significand, ulp_eq]
    norm_num
  have even : ¬ Odd (2 ^ 23 : ℤ) := by decide
  have rounded : nearestEven ((2 ^ 23 : ℤ) + 1 / 2 : ℚ) = 2 ^ 23 := by
    apply le_antisymm
    · rw [← not_lt, lt_nearestEven_iff]
      rintro (above | ⟨-, odd⟩)
      · exact lt_irrefl _ above
      · exact even odd
    · apply le_nearestEven
      linarith
  rw [toFloat, roundTo, significand_eq, rounded, ulp_eq]
  norm_num

/-- A pool of single bytes reserves one byte too few. -/
theorem allocate_too_short :
    ¬ ∀ size chunkSize : ℕ, 1 ≤ size → 1 ≤ chunkSize →
      exactCount size chunkSize ≤ maxInt → Covers size chunkSize := by
  intro claim
  have exact_eq : exactCount (2 ^ 24 + 1) 1 = 2 ^ 24 + 1 := by
    rw [exactCount, Nat.cast_one, div_one, Int.ceil_natCast]
    norm_num
  have fits : exactCount (2 ^ 24 + 1) 1 ≤ maxInt := by
    rw [exact_eq]
    decide
  have covers := claim (2 ^ 24 + 1) 1 (by decide) (by decide) fits
  rw [covers_iff_roundsEnough (by decide) (by decide),
    ← exactCount_le_ceil_iff (by decide) (by decide), exact_eq] at covers
  have quotient_eq : toFloat (2 ^ 24 + 1) / toFloat 1 = ((2 ^ 24 : ℕ) : ℚ) := by
    rw [toFloat_loses_byte, toFloat_of_small (by decide) (by decide)]
    norm_num
  have rounded : roundTo fractionBits ((2 ^ 24 : ℕ) : ℚ) = (2 ^ 24 : ℕ) :=
    roundTo_natCast_of_le (by decide) le_rfl
  rw [quotient_eq, rounded, Int.ceil_natCast] at covers
  exact absurd covers.1 (by decide)

end AsyncRuntime.Memory.ResourcePool
