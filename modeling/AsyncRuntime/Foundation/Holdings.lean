import Mathlib.Algebra.BigOperators.Group.Finset.Basic
import Mathlib.Algebra.BigOperators.Group.Finset.Piecewise

/-!
# What many places hold together

Goods lie at places, of which only finitely many hold any at a time, and are moved
from one place to another.  The holdings are their sum: what changes at one place
changes there, and what only moves leaves them alone.
-/

namespace AsyncRuntime.Foundation

universe u v

variable {Place : Type u} {Goods : Type v}

/-- All places together hold this. -/
def Holdings [AddCommMonoid Goods] (hand : Place → Goods) (total : Goods) : Prop :=
  ∃ places : Finset Place,
    (∀ place, place ∉ places → hand place = 0) ∧ ∑ place ∈ places, hand place = total

section Commutative

variable [AddCommMonoid Goods] {hand : Place → Goods} {total : Goods}

theorem holdings_zero : Holdings (fun _ : Place => (0 : Goods)) 0 :=
  ⟨∅, fun _ _ => rfl, rfl⟩

/-- The places may be counted with any others. -/
theorem Holdings.exists_superset [DecidableEq Place] (holdings : Holdings hand total)
    (others : Finset Place) :
    ∃ places : Finset Place, others ⊆ places ∧
      (∀ place, place ∉ places → hand place = 0) ∧ ∑ place ∈ places, hand place = total := by
  obtain ⟨places, empty, sum_eq⟩ := holdings
  refine ⟨others ∪ places, Finset.subset_union_left, ?_, ?_⟩
  · intro place absent
    exact empty place fun member => absent (Finset.mem_union_right others member)
  · rw [← sum_eq]
    refine (Finset.sum_subset Finset.subset_union_right ?_).symm
    exact fun place _ absent => empty place absent

/-- The places hold one total. -/
theorem Holdings.unique [DecidableEq Place] {other : Goods} (holdings : Holdings hand total)
    (again : Holdings hand other) : total = other := by
  obtain ⟨first, firstEmpty, rfl⟩ := holdings
  obtain ⟨second, included, -, rfl⟩ := again.exists_superset first
  exact Finset.sum_subset included fun place _ absent => firstEmpty place absent

theorem Holdings.eq_zero [DecidableEq Place] (holdings : Holdings hand total)
    (empty : ∀ place, hand place = 0) : total = 0 := by
  obtain rfl : hand = fun _ => 0 := funext empty
  exact holdings.unique holdings_zero

/-- One place has something, and the others have the rest. -/
theorem Holdings.exists_rest [DecidableEq Place] (holdings : Holdings hand total)
    (place : Place) :
    ∃ rest, total = hand place + rest ∧
      ∀ after, Holdings (Function.update hand place after) (after + rest) := by
  obtain ⟨places, included, empty, rfl⟩ := holdings.exists_superset {place}
  have member : place ∈ places := included (Finset.mem_singleton_self place)
  refine ⟨∑ other ∈ places \ {place}, hand other, ?_, ?_⟩
  · rw [← Finset.sum_sdiff included, Finset.sum_singleton, add_comm]
  · intro after
    refine ⟨places, ?_, Finset.sum_update_of_mem member hand after⟩
    intro other absent
    rw [Function.update_of_ne (ne_of_mem_of_not_mem member absent).symm]
    exact empty other absent

/-- The places of the other kind hold nothing. -/
theorem Holdings.left {Other : Type*} {hand : Place ⊕ Other → Goods}
    (holdings : Holdings hand total) (empty : ∀ other, hand (.inr other) = 0) :
    Holdings (fun place => hand (.inl place)) total := by
  obtain ⟨places, nothing, rfl⟩ := holdings
  refine ⟨places.toLeft, ?_, ?_⟩
  · intro place absent
    exact nothing _ fun member => absent (Finset.mem_toLeft.mpr member)
  · rw [Finset.sum_sum_eq_sum_toLeft_add_sum_toRight, Finset.sum_eq_zero fun other _ => empty other,
      add_zero]

end Commutative

section Cancellative

variable [AddCancelCommMonoid Goods] {hand : Place → Goods} {total : Goods}
  [DecidableEq Place]

/-- Something arrives at one place and something leaves it. -/
theorem Holdings.change (holdings : Holdings hand total) {place : Place}
    {after arrives leaves : Goods} (balance : after + leaves = hand place + arrives) :
    ∃ next, Holdings (Function.update hand place after) next ∧
      next + leaves = total + arrives := by
  obtain ⟨rest, rfl, changed⟩ := holdings.exists_rest place
  refine ⟨after + rest, changed after, ?_⟩
  calc
    after + rest + leaves = after + leaves + rest := add_right_comm _ _ _
    _ = hand place + arrives + rest := by rw [balance]
    _ = hand place + rest + arrives := add_right_comm _ _ _

/-- One place changes and holds as much as before. -/
theorem Holdings.keep (holdings : Holdings hand total) {place : Place} {after : Goods}
    (same : after = hand place) : Holdings (Function.update hand place after) total := by
  rw [same, Function.update_eq_self]
  exact holdings

/-- Goods are moved between two places. -/
theorem Holdings.exchange (holdings : Holdings hand total) {left right : Place}
    (different : left ≠ right) {atLeft atRight : Goods}
    (balance : atLeft + atRight = hand left + hand right) :
    Holdings (Function.update (Function.update hand left atLeft) right atRight) total := by
  obtain ⟨rest, rfl, changed⟩ := holdings.exists_rest left
  obtain ⟨others, others_eq, moved⟩ := (changed atLeft).exists_rest right
  rw [Function.update_of_ne different.symm] at others_eq
  have total_eq : atRight + others = hand left + rest := by
    refine @add_left_cancel _ _ _ atLeft _ _ ?_
    calc
      atLeft + (atRight + others) = hand left + (hand right + others) := by
        rw [← add_assoc, balance, add_assoc]
      _ = hand left + (atLeft + rest) := by rw [others_eq]
      _ = atLeft + (hand left + rest) := add_left_comm _ _ _
  rw [← total_eq]
  exact moved atRight

end Cancellative

end AsyncRuntime.Foundation
