import AsyncRuntime.Foundation.RingWindow
import Mathlib.Algebra.Order.Ring.Int
import Mathlib.Data.List.Range

/-!
# The array of the work-stealing queue

`AtomicArray` has `C` slots and reduces an index with `i & (C - 1)`.  The memory of
a new array is not initialised and keeps what it held.  `store` also counts in `U`
how often it has been called.

Two indexes that are reduced to one slot overwrite each other, so a window of
indexes is kept exactly when those that share a slot have one value.  For all
windows that is a condition on the capacity.
-/

namespace AsyncRuntime.WorkStealQueue

open AsyncRuntime.Foundation

universe u

variable {Item : Type u}

/-- `AtomicArray`: `C`, `U` and `S`; `M` is `C - 1`. -/
structure AtomicArray (Item : Type u) where
  capacity : ℤ
  size : ℕ
  slots : ℤ → Item

namespace AtomicArray

/-- The constructor, with what the memory held. -/
def create (capacity : ℤ) (memory : ℤ → Item) : AtomicArray Item :=
  ⟨capacity, 0, memory⟩

/-- `store(i, o)`. -/
def store (array : AtomicArray Item) (index : ℤ) (item : Item) : AtomicArray Item :=
  { array with
    slots := Function.update array.slots (ringCell array.capacity index) item
    size := array.size + 1 }

/-- `load(i)` and `operator []`. -/
def load (array : AtomicArray Item) (index : ℤ) : Item :=
  array.slots (ringCell array.capacity index)

/-- The loop of `resize` with this many iterations to go. -/
def copy (old : AtomicArray Item) : AtomicArray Item → ℤ → ℕ → AtomicArray Item
  | ptr, _, 0 => ptr
  | ptr, index, count + 1 =>
      old.copy (ptr.store index (old.load index)) (index + 1) count

/-- `resize(b, t)`, for `t` up to `b`; behind `b` the loop does not end. -/
def resize (array : AtomicArray Item) (memory : ℤ → Item) (bottom top : ℤ) :
    AtomicArray Item :=
  array.copy (.create (2 * array.capacity) memory) top (bottom - top).toNat

/-! ## Storing values in some order -/

/-- The indexes from `lower` on and below `upper`. -/
def indexes (lower upper : ℤ) : List ℤ :=
  (List.range (upper - lower).toNat).map fun offset : ℕ => lower + offset

/-- `store(i, value(i))` for the indexes of a list. -/
def storeAll (array : AtomicArray Item) (value : ℤ → Item) (order : List ℤ) :
    AtomicArray Item :=
  order.foldl (fun array index => array.store index (value index)) array

/--
After its values have been stored, the indexes of the window are loaded with them,
also from the array that `resize` makes.
-/
structure KeepsWindow (array : AtomicArray Item) (memory : ℤ → Item) (lower upper : ℤ)
    (value : ℤ → Item) (order : List ℤ) : Prop where
  loaded : ∀ index, lower ≤ index → index < upper →
    (array.storeAll value order).load index = value index
  resized : ∀ index, lower ≤ index → index < upper →
    ((array.storeAll value order).resize memory upper lower).load index = value index

/-- Indexes of the window that share a slot have one value. -/
def Agrees (capacity lower upper : ℤ) (value : ℤ → Item) : Prop :=
  ∀ left right, lower ≤ left → left < upper → lower ≤ right → right < upper →
    ringCell capacity left = ringCell capacity right → value left = value right

variable {array : AtomicArray Item} {memory value : ℤ → Item} {order : List ℤ}
  {lower upper : ℤ}

theorem mem_indexes {index : ℤ} :
    index ∈ indexes lower upper ↔ lower ≤ index ∧ index < upper := by
  rw [indexes, List.mem_map]
  constructor
  · rintro ⟨offset, member, rfl⟩
    rw [List.mem_range] at member
    omega
  · rintro ⟨above, below⟩
    refine ⟨(index - lower).toNat, List.mem_range.mpr ?_, ?_⟩
    · omega
    · omega

@[simp]
theorem capacity_store (array : AtomicArray Item) (index : ℤ) (item : Item) :
    (array.store index item).capacity = array.capacity :=
  rfl

@[simp]
theorem capacity_storeAll (array : AtomicArray Item) (value : ℤ → Item) (order : List ℤ) :
    (array.storeAll value order).capacity = array.capacity := by
  induction order generalizing array with
  | nil => rfl
  | cons first order inductionHypothesis => exact inductionHypothesis (array.store first _)

/-- Indexes with one slot are loaded alike. -/
theorem load_eq_of_cell_eq {left right : ℤ}
    (same : ringCell array.capacity left = ringCell array.capacity right) :
    array.load left = array.load right :=
  congrArg array.slots same

theorem load_store_of_eq {index other : ℤ} {item : Item}
    (same : ringCell array.capacity other = ringCell array.capacity index) :
    (array.store index item).load other = item := by
  rw [load, capacity_store, same]
  exact Function.update_self _ _ _

theorem load_store_of_ne {index other : ℤ} {item : Item}
    (different : ringCell array.capacity other ≠ ringCell array.capacity index) :
    (array.store index item).load other = array.load other :=
  Function.update_of_ne different _ _

/-- A slot has the value of an index that was stored there, or what it had before. -/
theorem load_storeAll (array : AtomicArray Item) (value : ℤ → Item) (order : List ℤ)
    (index : ℤ) :
    (∃ other ∈ order, ringCell array.capacity other = ringCell array.capacity index ∧
        (array.storeAll value order).load index = value other) ∨
      (∀ other ∈ order, ringCell array.capacity other ≠ ringCell array.capacity index) ∧
        (array.storeAll value order).load index = array.load index := by
  induction order generalizing array with
  | nil => exact .inr ⟨fun other member => absurd member List.not_mem_nil, rfl⟩
  | cons first order inductionHypothesis =>
      rcases inductionHypothesis (array.store first (value first)) with
        ⟨other, member, same, loaded⟩ | ⟨absent, loaded⟩
      · exact .inl ⟨other, List.mem_cons_of_mem first member, same, loaded⟩
      · by_cases here : ringCell array.capacity index = ringCell array.capacity first
        · exact .inl ⟨first, List.mem_cons_self, here.symm,
            loaded.trans (load_store_of_eq here)⟩
        · refine .inr ⟨?_, loaded.trans (load_store_of_ne here)⟩
          rw [List.forall_mem_cons]
          exact ⟨Ne.symm here, absent⟩

/-- A window of values is loaded exactly when indexes with one slot have one value. -/
theorem load_storeAll_iff (stored : order.Perm (indexes lower upper)) :
    (∀ index, lower ≤ index → index < upper →
      (array.storeAll value order).load index = value index) ↔
        Agrees array.capacity lower upper value := by
  constructor
  · intro loaded left right leftAbove leftBelow rightAbove rightBelow same
    calc
      value left = (array.storeAll value order).load left :=
        (loaded left leftAbove leftBelow).symm
      _ = (array.storeAll value order).load right :=
        load_eq_of_cell_eq (by rw [capacity_storeAll, same])
      _ = value right := loaded right rightAbove rightBelow
  · intro agrees index above below
    have listed : index ∈ order := stored.mem_iff.mpr (mem_indexes.mpr ⟨above, below⟩)
    rcases load_storeAll array value order index with
      ⟨other, member, same, loaded⟩ | ⟨absent, -⟩
    · obtain ⟨otherAbove, otherBelow⟩ := mem_indexes.mp (stored.mem_iff.mp member)
      exact loaded.trans (agrees other index otherAbove otherBelow above below same)
    · exact absurd rfl (absent index listed)

/-- The loop of `resize` stores what the old array has. -/
theorem copy_eq_storeAll (old ptr : AtomicArray Item) (index : ℤ) (count : ℕ) :
    old.copy ptr index count =
      ptr.storeAll old.load ((List.range count).map fun offset : ℕ => index + offset) := by
  induction count generalizing ptr index with
  | zero => rfl
  | succ count inductionHypothesis =>
      have shifted : (fun offset : ℕ => index + offset) ∘ Nat.succ =
          fun offset : ℕ => index + 1 + offset := by
        funext offset
        simp only [Function.comp_apply, Nat.cast_succ]
        omega
      rw [copy, inductionHypothesis, List.range_succ_eq_map, List.map_cons, List.map_map, shifted,
        Nat.cast_zero, add_zero]
      rfl

theorem resize_eq_storeAll (array : AtomicArray Item) (memory : ℤ → Item) (lower upper : ℤ) :
    array.resize memory upper lower =
      (create (2 * array.capacity) memory).storeAll array.load (indexes lower upper) :=
  copy_eq_storeAll _ _ _ _

/-- What has been loaded before a `resize` is loaded after it exactly if it agrees there. -/
theorem load_resize_iff
    (loaded : ∀ index, lower ≤ index → index < upper → array.load index = value index) :
    (∀ index, lower ≤ index → index < upper →
      (array.resize memory upper lower).load index = value index) ↔
        Agrees (2 * array.capacity) lower upper value := by
  have values : Agrees (2 * array.capacity) lower upper value ↔
      Agrees (2 * array.capacity) lower upper array.load := by
    refine forall₂_congr fun left right => ?_
    refine forall₄_congr fun leftAbove leftBelow rightAbove rightBelow => ?_
    rw [loaded left leftAbove leftBelow, loaded right rightAbove rightBelow]
  have stored := @load_storeAll_iff _ (create (2 * array.capacity) memory) array.load _
    lower upper (List.Perm.refl _)
  rw [values, resize_eq_storeAll]
  refine Iff.trans ?_ stored
  refine forall₃_congr fun index above below => ?_
  rw [loaded index above below]

theorem keepsWindow_iff_agrees (stored : order.Perm (indexes lower upper)) :
    KeepsWindow array memory lower upper value order ↔
      Agrees array.capacity lower upper value ∧
        Agrees (2 * array.capacity) lower upper value := by
  constructor
  · rintro ⟨loaded, resized⟩
    refine ⟨(load_storeAll_iff stored).mp loaded, ?_⟩
    have agrees := (load_resize_iff loaded).mp resized
    rwa [capacity_storeAll] at agrees
  · rintro ⟨agrees, agreesResized⟩
    have loaded := (@load_storeAll_iff _ array _ _ _ _ stored).mpr agrees
    refine ⟨loaded, (load_resize_iff loaded).mpr ?_⟩
    rwa [capacity_storeAll]

/-- With a power of two as its capacity an array keeps windows of this size. -/
theorem agrees_two_pow {exponent : ℕ} (nonneg : 0 ≤ lower)
    (within : upper ≤ lower + 2 ^ exponent) : Agrees (2 ^ exponent) lower upper value := by
  intro left right leftAbove leftBelow rightAbove rightBelow same
  rcases lt_trichotomy left right with before | rfl | behind
  · exact absurd same (ringCell_injective_of_lt exponent (by omega) before (by omega))
  · rfl
  · exact absurd same.symm (ringCell_injective_of_lt exponent (by omega) behind (by omega))

/--
An array keeps a window exactly when the indexes that share a slot, before `resize`
or after it, have one value.  It keeps all windows of its capacity exactly when that
is a power of two.
-/
theorem keepsWindow_iff [Nontrivial Item] (capacity : ℤ) (one : 1 ≤ capacity) :
    (∀ (array : AtomicArray Item) (memory : ℤ → Item) (lower upper : ℤ)
        (value : ℤ → Item) (order : List ℤ), array.capacity = capacity → 0 ≤ lower →
        lower ≤ upper → upper ≤ lower + capacity → order.Perm (indexes lower upper) →
          (KeepsWindow array memory lower upper value order ↔
            Agrees capacity lower upper value ∧ Agrees (2 * capacity) lower upper value)) ∧
      ((∀ (array : AtomicArray Item) (memory : ℤ → Item) (lower upper : ℤ)
        (value : ℤ → Item) (order : List ℤ), array.capacity = capacity → 0 ≤ lower →
        lower ≤ upper → upper ≤ lower + capacity → order.Perm (indexes lower upper) →
          KeepsWindow array memory lower upper value order) ↔
        ∃ exponent : ℕ, capacity = 2 ^ exponent) := by
  refine ⟨?_, ?_, ?_⟩
  · rintro array memory lower upper value order rfl - - - stored
    exact keepsWindow_iff_agrees stored
  · intro keeps
    rw [← ringCell_injective_iff one]
    intro lower upper nonneg within left right above ordered below same
    obtain ⟨some, other, different⟩ := exists_pair_ne Item
    have kept := keeps (create capacity fun _ => some) (fun _ => some) lower upper
      (fun index => if index = left then some else other) (indexes lower upper) rfl nonneg
      (by omega) within (List.Perm.refl _)
    have agrees := (keepsWindow_iff_agrees (List.Perm.refl _)).mp kept
    have equal := agrees.1 left right above (ordered.trans below) (above.trans ordered.le) below
      same
    simp only [if_true, if_neg ordered.ne'] at equal
    exact different equal
  · rintro ⟨exponent, rfl⟩ array memory lower upper value order capacity_eq nonneg - within
      stored
    rw [keepsWindow_iff_agrees stored, capacity_eq, ← pow_succ']
    refine ⟨agrees_two_pow nonneg within, agrees_two_pow nonneg ?_⟩
    rw [pow_succ]
    have positive : (0 : ℤ) < 2 ^ exponent := pow_pos two_pos exponent
    omega

/-- Four slots keep four values that are stored out of order. -/
theorem keepsWindow_iff_four :
    KeepsWindow (create 4 fun _ => 0) (fun _ => 0) 3 7 (fun index : ℤ => index) [6, 3, 5, 4] :=
  (keepsWindow_iff 4 (by decide)).2.mpr ⟨2, rfl⟩ _ _ _ _ _ _ rfl (by decide) (by decide)
    (by decide) (by decide)

/-- Of ten slots the indexes 0 and 2 have one. -/
theorem keepsWindow_not_ten :
    ¬ ∀ capacity : ℤ, 1 ≤ capacity →
      ∀ (array : AtomicArray ℤ) (memory : ℤ → ℤ) (lower upper : ℤ) (value : ℤ → ℤ)
        (order : List ℤ), array.capacity = capacity → 0 ≤ lower → lower ≤ upper →
        upper ≤ lower + capacity → order.Perm (indexes lower upper) →
          KeepsWindow array memory lower upper value order := by
  intro claimed
  have kept := claimed 10 (by decide) (create 10 fun _ => 0) (fun _ => 0) 0 3
    (fun index => index) [0, 1, 2] rfl (by decide) (by decide) (by decide) (by decide)
  exact absurd (kept.loaded 0 (by decide) (by decide)) (by decide)

end AtomicArray

end AsyncRuntime.WorkStealQueue
