/-!
# Interleavings as executable transition systems

A concurrent program is presented by its initial states and a partial step
function.  An action names the thread that moves together with every choice
the scheduler or the environment makes for it, so a list of actions determines
a run and a concrete run can be evaluated.

Assumptions on runs (a caller's obligation, a bound on a counter) are not part
of the step function: reachability takes a predicate on the steps a run may
use.  The two rules used by every development on top of this module are the
invariant rule and the projection of a composed system onto a component.
-/

namespace AsyncRuntime.Foundation

universe u v w x

/-- Initial states and a partial step function on labelled actions. -/
structure TransitionSystem (State : Type u) (Action : Type v) where
  initial : State → Prop
  next : State → Action → Option State

namespace TransitionSystem

variable {State : Type u} {Action : Type v}
variable (system : TransitionSystem State Action)

/-- The end states of the runs all of whose steps are permitted. -/
inductive ReachableUnder (permitted : State → Action → Prop) :
    State → Prop where
  | start {state : State} (isInitial : system.initial state) :
      ReachableUnder permitted state
  | step {source target : State} {action : Action}
      (earlier : ReachableUnder permitted source)
      (allowed : permitted source action)
      (taken : system.next source action = some target) :
      ReachableUnder permitted target

/-- The end states of all runs. -/
abbrev Reachable : State → Prop :=
  system.ReachableUnder fun _ _ => True

/-- Replay a list of actions, stopping at the first one that is not permitted. -/
def run (permitted : State → Action → Prop)
    [∀ state action, Decidable (permitted state action)] :
    State → List Action → Option State
  | state, [] => some state
  | state, action :: rest =>
      if permitted state action then
        (system.next state action).bind (run permitted · rest)
      else
        none

variable {system}

theorem ReachableUnder.run
    {permitted : State → Action → Prop}
    [∀ state action, Decidable (permitted state action)]
    {source target : State}
    (reachable : system.ReachableUnder permitted source)
    (actions : List Action)
    (replayed : system.run permitted source actions = some target) :
    system.ReachableUnder permitted target := by
  induction actions generalizing source with
  | nil =>
      simp only [TransitionSystem.run, Option.some.injEq] at replayed
      subst target
      exact reachable
  | cons action rest inductionHypothesis =>
      simp only [TransitionSystem.run] at replayed
      split at replayed
      · rename_i allowed
        cases taken : system.next source action with
        | none => simp [taken] at replayed
        | some middle =>
            rw [taken, Option.bind_some] at replayed
            exact inductionHypothesis (.step reachable allowed taken) replayed
      · simp at replayed

/--
A replay that ends in a state with a decidable property exhibits a reachable
state with that property.
-/
theorem exists_reachableUnder_of_run
    (system : TransitionSystem State Action)
    (permitted : State → Action → Prop)
    [∀ state action, Decidable (permitted state action)]
    {source : State} (isInitial : system.initial source)
    (actions : List Action) (property : State → Bool)
    (replayed :
      (system.run permitted source actions).map property = some true) :
    ∃ state, system.ReachableUnder permitted state ∧ property state = true := by
  cases result : system.run permitted source actions with
  | none => simp [result] at replayed
  | some state =>
      simp only [result, Option.map_some, Option.some.injEq] at replayed
      exact ⟨state, (ReachableUnder.start isInitial).run actions result, replayed⟩

/-- Restricting the permitted steps further only removes states. -/
theorem ReachableUnder.mono
    {strong weak : State → Action → Prop}
    (weaker : ∀ state action, strong state action → weak state action)
    {state : State} (reachable : system.ReachableUnder strong state) :
    system.ReachableUnder weak state := by
  induction reachable with
  | start isInitial => exact .start isInitial
  | step earlier allowed taken inductionHypothesis =>
      exact .step inductionHypothesis (weaker _ _ allowed) taken

/--
The invariant rule.  A step may use that its source is reachable, so that
invariants are proved one after another.
-/
theorem ReachableUnder.invariant
    {permitted : State → Action → Prop} {property : State → Prop}
    (base : ∀ state, system.initial state → property state)
    (preserved :
      ∀ source action target,
        system.ReachableUnder permitted source →
        permitted source action →
        system.next source action = some target →
        property source → property target)
    {state : State} (reachable : system.ReachableUnder permitted state) :
    property state := by
  induction reachable with
  | start isInitial => exact base _ isInitial
  | step earlier allowed taken inductionHypothesis =>
      exact preserved _ _ _ earlier allowed taken inductionHypothesis

/--
Projection onto a component: when every step of the composed system is a
stutter or a permitted step of the component, reachable states project to
reachable states.
-/
theorem ReachableUnder.project
    {Component : Type w} {Label : Type x}
    {component : TransitionSystem Component Label}
    {permitted : State → Action → Prop}
    {componentPermitted : Component → Label → Prop}
    (projection : State → Component)
    (startsInitial :
      ∀ state, system.initial state → component.initial (projection state))
    (simulates :
      ∀ source action target,
        permitted source action →
        system.next source action = some target →
        projection target = projection source ∨
          ∃ label,
            componentPermitted (projection source) label ∧
              component.next (projection source) label =
                some (projection target))
    {state : State} (reachable : system.ReachableUnder permitted state) :
    component.ReachableUnder componentPermitted (projection state) := by
  induction reachable with
  | start isInitial => exact .start (startsInitial _ isInitial)
  | step earlier allowed taken inductionHypothesis =>
      rcases simulates _ _ _ allowed taken with stutter | ⟨label, label_ok, moved⟩
      · rw [stutter]
        exact inductionHypothesis
      · exact .step inductionHypothesis label_ok moved

/-! ## Runs with their actions -/

variable (system) in
/-- The same steps, recording the actions; the latest action is the first of the list. -/
def recorded : TransitionSystem (State × List Action) Action where
  initial state := system.initial state.1 ∧ state.2 = []
  next state action :=
    (system.next state.1 action).map fun target => (target, action :: state.2)

theorem next_of_recorded {source target : State × List Action} {action : Action}
    (taken : system.recorded.next source action = some target) :
    system.next source.1 action = some target.1 ∧ target.2 = action :: source.2 := by
  obtain ⟨middle, moved, rfl⟩ := Option.map_eq_some_iff.mp taken
  exact ⟨moved, rfl⟩

/-- A run with its actions is a run. -/
theorem ReachableUnder.forget
    {permitted : State × List Action → Action → Prop} {state : State × List Action}
    (reachable : system.recorded.ReachableUnder permitted state) :
    system.Reachable state.1 := by
  induction reachable with
  | start isInitial => exact .start isInitial.1
  | step earlier allowed taken inductionHypothesis =>
      exact .step inductionHypothesis trivial (next_of_recorded taken).1

end TransitionSystem

end AsyncRuntime.Foundation
