import Mathlib.Data.List.MinMax
import Mathlib.Data.Nat.ModEq
import Mathlib.Logic.Function.Basic
import Mathlib.Tactic.Common

/-!
# The least loaded of several indexes

Work is handed to the first index with the least load.  If every piece of work
adds one to the load of the index that takes it, and nothing is ever taken away,
the choice is a round robin: the loads are level up to the index whose turn it
is, and the turn moves on by one.
-/

namespace AsyncRuntime.Foundation

universe u

section

variable {Load : Type u} [LinearOrder Load] {load : ℕ → Load}
  {size index other : ℕ}

/-- The first index below the size whose load is least. -/
def leastLoaded (load : ℕ → Load) (size : ℕ) : Option ℕ :=
  (List.range size).argmin load

theorem leastLoaded_lt (chosen : leastLoaded load size = some index) :
    index < size :=
  List.mem_range.mp (List.argmin_mem chosen)

theorem leastLoaded_le (chosen : leastLoaded load size = some index)
    (bound : other < size) : load index ≤ load other :=
  List.le_of_mem_argmin (List.mem_range.mpr bound) chosen

theorem exists_leastLoaded (load : ℕ → Load) (nonempty : 0 < size) :
    ∃ index, leastLoaded load size = some index := by
  cases chosen : leastLoaded load size with
  | some index => exact ⟨index, rfl⟩
  | none =>
      have empty := List.range_eq_nil.mp (List.argmin_eq_none.mp chosen)
      omega

theorem idxOf_range (bound : index < size) :
    (List.range size).idxOf index = index := by
  have found := List.getElem_idxOf
    (List.idxOf_lt_length_of_mem (List.mem_range.mpr bound))
  rwa [List.getElem_range] at found

/-- Ties go to the earlier index. -/
theorem leastLoaded_eq_some (bound : index < size)
    (least : ∀ other < size, load index ≤ load other)
    (first : ∀ other < index, load index < load other) :
    leastLoaded load size = some index := by
  rcases exists_leastLoaded load (Nat.zero_lt_of_lt bound) with ⟨found, chosen⟩
  have foundBound := leastLoaded_lt chosen
  have level : load found ≤ load index := leastLoaded_le chosen bound
  rcases lt_trichotomy found index with earlier | same | later
  · exact absurd level (not_le.mpr (first found earlier))
  · rw [chosen, same]
  · have position :=
      List.index_of_argmin chosen (List.mem_range.mpr bound)
        (least found foundBound)
    rw [idxOf_range foundBound, idxOf_range bound] at position
    omega

end

/-! ## Round robin -/

section

variable {load : ℕ → ℕ} {size turn : ℕ}

/-- One more piece of work for an index. -/
def charge (load : ℕ → ℕ) (index : ℕ) : ℕ → ℕ :=
  Function.update load index (load index + 1)

/-- All indexes have the same load, but those before the turn have one more. -/
structure Balanced (load : ℕ → ℕ) (size turn : ℕ) : Prop where
  turn_lt : turn < size
  level :
    ∃ round, ∀ index < size,
      load index = if index < turn then round + 1 else round

theorem balanced_zero (nonempty : 0 < size) : Balanced (fun _ => 0) size 0 :=
  ⟨nonempty, 0, fun _ _ => rfl⟩

namespace Balanced

theorem leastLoaded_eq (balanced : Balanced load size turn) :
    leastLoaded load size = some turn := by
  rcases balanced with ⟨turn_lt, round, level⟩
  have here : load turn = round := by
    rw [level turn turn_lt, if_neg (lt_irrefl turn)]
  apply leastLoaded_eq_some turn_lt
  · intro other bound
    rw [here, level other bound]
    split <;> omega
  · intro other earlier
    rw [here, level other (earlier.trans turn_lt), if_pos earlier]
    exact Nat.lt_succ_self round

/-- The index whose turn it is takes the work, and the turn moves on. -/
theorem charge (balanced : Balanced load size turn) :
    Balanced (charge load turn) size ((turn + 1) % size) := by
  rcases balanced with ⟨turn_lt, round, level⟩
  have here : load turn = round := by
    rw [level turn turn_lt, if_neg (lt_irrefl turn)]
  have charged (index : ℕ) (bound : index < size) :
      Foundation.charge load turn index =
        if index < turn + 1 then round + 1 else round := by
    rw [Foundation.charge, Function.update_apply]
    by_cases same : index = turn
    · rw [if_pos same, here, if_pos (by omega)]
    · rw [if_neg same, level index bound]
      exact if_congr (by omega) rfl rfl
  refine ⟨Nat.mod_lt _ (Nat.zero_lt_of_lt turn_lt), ?_⟩
  by_cases last : turn + 1 = size
  · refine ⟨round + 1, fun index bound => ?_⟩
    rw [charged index bound, last, Nat.mod_self, if_pos bound,
      if_neg (Nat.not_lt_zero index)]
  · rw [Nat.mod_eq_of_lt (by omega)]
    exact ⟨round, charged⟩

/-- Balanced loads differ by at most one. -/
theorem le_succ (balanced : Balanced load size turn) {left right : ℕ}
    (leftBound : left < size) (rightBound : right < size) :
    load left ≤ load right + 1 := by
  rcases balanced with ⟨-, round, level⟩
  rw [level left leftBound, level right rightBound]
  split <;> split <;> omega

end Balanced

/-- Fewer turns than there are indexes reach different indexes. -/
theorem turn_ne {base early late : ℕ} (ordered : early < late)
    (within : late < size) : (base + early) % size ≠ (base + late) % size := by
  intro same
  have congruent : early % size = late % size :=
    Nat.ModEq.add_left_cancel' base same
  rw [Nat.mod_eq_of_lt (ordered.trans within), Nat.mod_eq_of_lt within] at congruent
  omega

end

end AsyncRuntime.Foundation
