import AsyncRuntime.Foundation.TransitionSystem
import Mathlib.Algebra.BigOperators.Group.Finset.Basic
import Mathlib.Algebra.BigOperators.Group.Finset.Piecewise
import Mathlib.Algebra.BigOperators.Group.List.Basic
import Mathlib.Algebra.GroupWithZero.Nat
import Mathlib.Data.Nat.Notation

/-!
# The potential method for runs

Every action costs something and brings something, both counted in natural numbers, and
a potential of the state pays for what a step costs beyond what it brings.  Then a whole
run costs no more than the potential it begins with and what its actions bring.  When only
some actions bring anything, such as calls or spurious failures, this bounds how much the
others can do between them.
-/

namespace AsyncRuntime.Foundation.TransitionSystem

universe u v

variable {State : Type u} {Action : Type v}

/-- A potential out of which the costs are paid. -/
structure Potential (system : TransitionSystem State Action)
    (permitted : State → Action → Prop) (cost grant : Action → ℕ) where
  potential : State → ℕ
  pays :
    ∀ source action target, system.ReachableUnder permitted source →
      permitted source action → system.next source action = some target →
      cost action + potential target ≤ potential source + grant action

variable {system : TransitionSystem State Action} {permitted : State → Action → Prop}
  {cost grant : Action → ℕ}

/-- What a run costs. -/
theorem Potential.run [∀ state action, Decidable (permitted state action)]
    (account : Potential system permitted cost grant) {source target : State}
    (reachable : system.ReachableUnder permitted source) (actions : List Action)
    (replayed : system.run permitted source actions = some target) :
    (actions.map cost).sum + account.potential target ≤
      account.potential source + (actions.map grant).sum := by
  induction actions generalizing source with
  | nil =>
      cases replayed
      exact (Nat.zero_add _).le
  | cons action rest inductionHypothesis =>
      rw [TransitionSystem.run] at replayed
      split at replayed
      · rename_i allowed
        obtain ⟨middle, taken, replayed⟩ := Option.bind_eq_some_iff.mp replayed
        have later := inductionHypothesis (.step reachable allowed taken) replayed
        have first := account.pays _ _ _ reachable allowed taken
        rw [List.map_cons, List.map_cons, List.sum_cons, List.sum_cons]
        omega
      · cases replayed

/-- A constant for every action of a kind. -/
def each (kind : Action → Bool) (amount : ℕ) (action : Action) : ℕ :=
  if kind action then amount else 0

theorem sum_each (kind : Action → Bool) (amount : ℕ) (actions : List Action) :
    (actions.map (each kind amount)).sum = amount * actions.countP kind := by
  induction actions with
  | nil => rfl
  | cons action rest inductionHypothesis =>
      rw [List.map_cons, List.sum_cons, inductionHypothesis, each, List.countP_cons]
      split
      · rw [Nat.mul_add, Nat.mul_one, Nat.add_comm]
      · rw [Nat.zero_add, Nat.add_zero]

section Weights

variable {Index : Type v} [DecidableEq Index] {indexes : Finset Index} {weight : Index → ℕ}

/-- A sum of weights of which one is changed. -/
theorem sum_update (index : Index) (listed : index ∈ indexes) (changed : ℕ) :
    (∑ other ∈ indexes, Function.update weight index changed other) + weight index =
      (∑ other ∈ indexes, weight other) + changed := by
  have split_eq := Finset.add_sum_erase indexes weight listed
  have changed_eq := Finset.sum_update_of_mem listed weight changed
  rw [Finset.sdiff_singleton_eq_erase] at changed_eq
  omega

end Weights

end AsyncRuntime.Foundation.TransitionSystem
