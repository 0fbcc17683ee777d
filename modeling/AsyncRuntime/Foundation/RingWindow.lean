import Mathlib.Algebra.Order.Group.Int
import Mathlib.Data.Int.Bitwise
import Mathlib.Data.Multiset.MapFold
import Mathlib.Data.Nat.Log

/-!
# Windows of a power-of-two ring

A ring buffer of `2 ^ k` cells addresses index `i` by masking it with
`2 ^ k - 1`.  Any `2 ^ k` consecutive non-negative indexes have distinct cells;
this module proves that fact and the bookkeeping for the multiset of contents
of a half-open window `[lower, upper)` of indexes.
-/

namespace AsyncRuntime.Foundation

universe u

/-- The cell of index `i` in a ring of `capacity` cells. -/
def ringCell (capacity index : ℤ) : ℤ :=
  Int.land index (capacity - 1)

/-- For a power of two, masking is reduction modulo the capacity. -/
theorem ringCell_two_pow (exponent : ℕ) {index : ℤ} (nonneg : 0 ≤ index) :
    ringCell (2 ^ exponent) index = index % 2 ^ exponent := by
  obtain ⟨value, rfl⟩ := Int.eq_ofNat_of_zero_le nonneg
  have mask : (2 : ℤ) ^ exponent - 1 = ((2 ^ exponent - 1 : ℕ) : ℤ) := by
    have positive : 1 ≤ 2 ^ exponent := Nat.one_le_two_pow
    push_cast [positive]
    rfl
  have masked :
      Int.land (value : ℤ) ((2 ^ exponent - 1 : ℕ) : ℤ) =
        ((value &&& (2 ^ exponent - 1) : ℕ) : ℤ) := rfl
  rw [ringCell, mask, masked, Nat.and_two_pow_sub_one_eq_mod]
  push_cast
  rfl

/-- Two indexes less than one capacity apart never share a cell. -/
theorem ringCell_injective_of_lt (exponent : ℕ) {left right : ℤ}
    (nonneg : 0 ≤ left) (ordered : left < right)
    (close : right - left < 2 ^ exponent) :
    ringCell (2 ^ exponent) left ≠ ringCell (2 ^ exponent) right := by
  rw [ringCell_two_pow exponent nonneg,
    ringCell_two_pow exponent (nonneg.trans ordered.le)]
  intro same
  have divides : (2 : ℤ) ^ exponent ∣ right - left :=
    Int.dvd_of_emod_eq_zero
      (Int.emod_eq_emod_iff_emod_sub_eq_zero.mp same.symm)
  have tooSmall := Int.le_of_dvd (by omega) divides
  omega

/-! ## Capacities that are no power of two -/

/-- The complement of the mask below a power of two shares the cell of zero. -/
theorem ringCell_complement {capacity exponent : ℕ} (positive : 0 < capacity)
    (le : capacity ≤ 2 ^ exponent) :
    ringCell capacity ((2 ^ exponent - capacity : ℕ) : ℤ) = ringCell capacity 0 := by
  obtain ⟨mask, rfl⟩ : ∃ mask, capacity = mask + 1 :=
    ⟨capacity - 1, (Nat.sub_add_cancel positive).symm⟩
  have mask_eq : ((mask + 1 : ℕ) : ℤ) - 1 = (mask : ℤ) := by
    rw [Nat.cast_succ, add_sub_cancel_right]
  have cell (index : ℕ) :
      ringCell ((mask + 1 : ℕ) : ℤ) (index : ℤ) = ((index &&& mask : ℕ) : ℤ) := by
    rw [ringCell, mask_eq]
    rfl
  have disjoint : (2 ^ exponent - (mask + 1)) &&& mask = 0 := by
    apply Nat.eq_of_testBit_eq
    intro bit
    rw [Nat.testBit_and, Nat.testBit_two_pow_sub_succ le, Nat.zero_testBit]
    cases mask.testBit bit <;> simp
  have zero := cell 0
  rw [Nat.cast_zero, Nat.zero_and] at zero
  rw [cell, disjoint, zero]

/-- Every index of every window has a cell of its own exactly for a power of two. -/
theorem ringCell_injective_iff {capacity : ℤ} (one : 1 ≤ capacity) :
    (∀ lower upper : ℤ, 0 ≤ lower → upper ≤ lower + capacity →
      ∀ left right, lower ≤ left → left < right → right < upper →
        ringCell capacity left ≠ ringCell capacity right) ↔
      ∃ exponent : ℕ, capacity = 2 ^ exponent := by
  constructor
  · intro apart
    obtain ⟨size, rfl⟩ := Int.eq_ofNat_of_zero_le (by omega : 0 ≤ capacity)
    have positive : 0 < size := by omega
    have below := Nat.pow_log_le_self 2 positive.ne'
    have above := Nat.lt_pow_succ_log_self Nat.one_lt_two size
    refine ⟨Nat.log 2 size, ?_⟩
    by_contra different
    -- otherwise the complement of the mask is an index of the first window
    have strict : 2 ^ Nat.log 2 size < size := by
      refine lt_of_le_of_ne below fun same => different ?_
      rw [← Nat.cast_ofNat, ← Nat.cast_pow, same]
    rw [pow_succ] at above
    apply apart 0 size le_rfl (by omega) 0 ((2 ^ Nat.log 2 size * 2 - size : ℕ) : ℤ) le_rfl
      (by omega) (by omega)
    rw [← pow_succ]
    exact (ringCell_complement positive (by rw [pow_succ]; omega)).symm
  · rintro ⟨exponent, rfl⟩ lower upper nonneg within left right above ordered below
    exact ringCell_injective_of_lt exponent (by omega) ordered (by omega)

/-! ## The contents of a window -/

/-- The contents of the indexes `lower, …, upper - 1`. -/
def window {Content : Type u} (content : ℤ → Content) (lower upper : ℤ) :
    Multiset Content :=
  ((List.range (upper - lower).toNat).map fun offset : ℕ =>
    content (lower + offset) : List Content)

variable {Content : Type u} {content : ℤ → Content} {lower upper : ℤ}

theorem window_of_le (empty : upper ≤ lower) :
    window content lower upper = 0 := by
  have length : (upper - lower).toNat = 0 := by omega
  simp [window, length]

theorem window_congr {other : ℤ → Content}
    (agree : ∀ index, lower ≤ index → index < upper →
      content index = other index) :
    window content lower upper = window other lower upper := by
  apply congrArg Multiset.ofList
  apply List.map_congr_left
  intro offset member
  rw [List.mem_range] at member
  apply agree <;> omega

/-- Extending a window to the right adds the content of its old upper end. -/
theorem window_add_one_right (ordered : lower ≤ upper) :
    window content lower (upper + 1) =
      content upper ::ₘ window content lower upper := by
  have length : (upper + 1 - lower).toNat = (upper - lower).toNat + 1 := by
    omega
  have last : lower + ((upper - lower).toNat : ℤ) = upper := by omega
  rw [window, length, List.range_succ, List.map_append, List.map_singleton,
    last, ← Multiset.coe_add, Multiset.add_comm, Multiset.coe_singleton,
    Multiset.singleton_add, window]

/-- A nonempty window starts with the content of its lower end. -/
theorem window_add_one_left (ordered : lower < upper) :
    window content lower upper =
      content lower ::ₘ window content (lower + 1) upper := by
  have length :
      (upper - lower).toNat = (upper - (lower + 1)).toNat + 1 := by
    omega
  rw [window, length, List.range_succ_eq_map, List.map_cons, List.map_map,
    ← Multiset.cons_coe, window]
  congr 2
  · simp
  · apply List.map_congr_left
    intro offset _
    simp only [Function.comp_apply, Nat.cast_succ]
    congr 1
    omega

/-! ## The contents in their order -/

/-- The contents of the indexes `lower, …, upper - 1` in their order. -/
def span (content : ℤ → Content) (lower upper : ℤ) : List Content :=
  (List.range (upper - lower).toNat).map fun offset : ℕ => content (lower + offset)

theorem span_of_le (empty : upper ≤ lower) : span content lower upper = [] := by
  have length : (upper - lower).toNat = 0 := by omega
  rw [span, length]
  rfl

theorem span_congr {other : ℤ → Content}
    (agree : ∀ index, lower ≤ index → index < upper → content index = other index) :
    span content lower upper = span other lower upper := by
  apply List.map_congr_left
  intro offset member
  rw [List.mem_range] at member
  apply agree <;> omega

/-- Extending a span to the right appends the content of its old upper end. -/
theorem span_add_one_right (ordered : lower ≤ upper) :
    span content lower (upper + 1) = span content lower upper ++ [content upper] := by
  have length : (upper + 1 - lower).toNat = (upper - lower).toNat + 1 := by omega
  have last : lower + ((upper - lower).toNat : ℤ) = upper := by omega
  rw [span, length, List.range_succ, List.map_append, List.map_singleton, last, span]

/-- A nonempty span starts with the content of its lower end. -/
theorem span_add_one_left (ordered : lower < upper) :
    span content lower upper = content lower :: span content (lower + 1) upper := by
  have length : (upper - lower).toNat = (upper - (lower + 1)).toNat + 1 := by omega
  rw [span, length, List.range_succ_eq_map, List.map_cons, List.map_map, Nat.cast_zero,
    add_zero, span]
  congr 1
  apply List.map_congr_left
  intro offset _
  simp only [Function.comp_apply, Nat.cast_succ]
  congr 1
  omega

end AsyncRuntime.Foundation
