import AsyncRuntime.Foundation.TransitionSystem
import Mathlib.Data.List.Basic

/-!
# Refinement by forward simulation

The steps of an observed system show events, and a history is what a run has
shown.  A system refines another one when all its histories are histories of the
other, so that nobody who only sees the events can tell that the other system has
been replaced.  A forward simulation answers every step by any number of steps
that show the same events; the invariants of the concrete system are at hand.
-/

namespace AsyncRuntime.Foundation

universe u v w x y

/-- A transition system with the events that its steps show. -/
structure ObservedSystem (State : Type u) (Action : Type v) (Event : Type w) extends
    TransitionSystem State Action where
  shows : State → Action → State → List Event

namespace ObservedSystem

variable {State : Type u} {Action : Type v} {Event : Type w}
variable (system : ObservedSystem State Action Event)

/-- The end states of the permitted runs, with what the runs have shown. -/
inductive HistoryUnder (permitted : State → Action → Prop) :
    State → List Event → Prop where
  | start {state : State} (isInitial : system.initial state) :
      HistoryUnder permitted state []
  | step {source target : State} {action : Action} {events : List Event}
      (earlier : HistoryUnder permitted source events)
      (allowed : permitted source action)
      (taken : system.next source action = some target) :
      HistoryUnder permitted target (events ++ system.shows source action target)

/-- The end states of all runs, with what the runs have shown. -/
abbrev History : State → List Event → Prop :=
  system.HistoryUnder fun _ _ => True

/-- Any number of steps, with what they show. -/
inductive Steps : State → List Event → State → Prop where
  | done {state : State} : Steps state [] state
  | step {source middle target : State} {action : Action} {events : List Event}
      (taken : system.next source action = some middle)
      (rest : Steps middle events target) :
      Steps source (system.shows source action middle ++ events) target

variable {system}

/-- A single step. -/
theorem Steps.one {source target : State} {action : Action}
    (taken : system.next source action = some target) :
    system.Steps source (system.shows source action target) target := by
  have single := Steps.step taken .done
  rwa [List.append_nil] at single

theorem Steps.trans {source middle target : State} {first second : List Event}
    (early : system.Steps source first middle) (late : system.Steps middle second target) :
    system.Steps source (first ++ second) target := by
  induction early with
  | done => exact late
  | step taken rest inductionHypothesis =>
      rw [List.append_assoc]
      exact .step taken (inductionHypothesis late)

/-- A run goes on by some steps. -/
theorem HistoryUnder.steps {source target : State} {events later : List Event}
    (history : system.History source events) (steps : system.Steps source later target) :
    system.History target (events ++ later) := by
  induction steps generalizing events with
  | done => rwa [List.append_nil]
  | step taken rest inductionHypothesis =>
      rw [← List.append_assoc]
      exact inductionHypothesis (.step history trivial taken)

/-- Every history belongs to a run. -/
theorem HistoryUnder.reachable {permitted : State → Action → Prop} {state : State}
    {events : List Event} (history : system.HistoryUnder permitted state events) :
    system.ReachableUnder permitted state := by
  induction history with
  | start isInitial => exact .start isInitial
  | step earlier allowed taken inductionHypothesis =>
      exact .step inductionHypothesis allowed taken

/-- Replay a list of actions together with what it shows. -/
def replay (system : ObservedSystem State Action Event) (permitted : State → Action → Prop)
    [∀ state action, Decidable (permitted state action)] :
    State → List Event → List Action → Option (State × List Event)
  | state, events, [] => some (state, events)
  | state, events, action :: rest =>
      if permitted state action then
        (system.next state action).bind fun target =>
          replay system permitted target (events ++ system.shows state action target) rest
      else
        none

theorem HistoryUnder.replay {permitted : State → Action → Prop}
    [∀ state action, Decidable (permitted state action)] {source target : State}
    {events shown : List Event} (history : system.HistoryUnder permitted source events)
    (actions : List Action)
    (replayed : system.replay permitted source events actions = some (target, shown)) :
    system.HistoryUnder permitted target shown := by
  induction actions generalizing source events with
  | nil =>
      cases replayed
      exact history
  | cons action rest inductionHypothesis =>
      rw [ObservedSystem.replay] at replayed
      split at replayed
      · rename_i allowed
        obtain ⟨middle, taken, replayed⟩ := Option.bind_eq_some_iff.mp replayed
        exact inductionHypothesis (.step history allowed taken) replayed
      · cases replayed

/-- A replay with a decidable property exhibits a history with that property. -/
theorem exists_history_of_replay (system : ObservedSystem State Action Event)
    (permitted : State → Action → Prop) [∀ state action, Decidable (permitted state action)]
    {source : State} (isInitial : system.initial source) (actions : List Action)
    (property : State × List Event → Bool)
    (replayed : (system.replay permitted source [] actions).map property = some true) :
    ∃ state events, system.HistoryUnder permitted state events ∧
      property (state, events) = true := by
  obtain ⟨⟨state, events⟩, found, holds⟩ := Option.map_eq_some_iff.mp replayed
  exact ⟨state, events, (HistoryUnder.start isInitial).replay actions found, holds⟩

/-! ## Simulation -/

section Simulation

variable {Abstract : Type x} {Label : Type y}

/-- A relation that the abstract system can keep up whatever the concrete one does. -/
structure Simulation (concrete : ObservedSystem State Action Event)
    (permitted : State → Action → Prop)
    (abstract : ObservedSystem Abstract Label Event) where
  relation : State → Abstract → Prop
  start :
    ∀ state, concrete.initial state →
      ∃ specification, abstract.initial specification ∧ relation state specification
  step :
    ∀ source action target specification,
      concrete.ReachableUnder permitted source →
      permitted source action →
      concrete.next source action = some target →
      relation source specification →
      ∃ next, abstract.Steps specification (concrete.shows source action target) next ∧
        relation target next

/-- Every history of the permitted runs is a history of the abstract system. -/
def Refines (concrete : ObservedSystem State Action Event)
    (permitted : State → Action → Prop)
    (abstract : ObservedSystem Abstract Label Event) : Prop :=
  ∀ state events, concrete.HistoryUnder permitted state events →
    ∃ specification, abstract.History specification events

variable {concrete : ObservedSystem State Action Event}
  {permitted : State → Action → Prop} {abstract : ObservedSystem Abstract Label Event}

/-- A history of the concrete system leads the abstract one to a related state. -/
theorem Simulation.history (simulation : Simulation concrete permitted abstract)
    {state : State} {events : List Event}
    (history : concrete.HistoryUnder permitted state events) :
    ∃ specification, abstract.History specification events ∧
      simulation.relation state specification := by
  induction history with
  | start isInitial =>
      obtain ⟨specification, begins, related⟩ := simulation.start _ isInitial
      exact ⟨specification, .start begins, related⟩
  | step earlier allowed taken inductionHypothesis =>
      obtain ⟨specification, before, related⟩ := inductionHypothesis
      obtain ⟨next, steps, follows⟩ :=
        simulation.step _ _ _ specification earlier.reachable allowed taken related
      exact ⟨next, before.steps steps, follows⟩

theorem Simulation.refines (simulation : Simulation concrete permitted abstract) :
    concrete.Refines permitted abstract := by
  intro state events history
  obtain ⟨specification, simulated, -⟩ := simulation.history history
  exact ⟨specification, simulated⟩

/-- Refinement composes: the middle system may stand in for the abstract one. -/
theorem Refines.trans {Middle : Type x} {MiddleLabel : Type y}
    {middle : ObservedSystem Middle MiddleLabel Event}
    (first : concrete.Refines permitted middle)
    (second : middle.Refines (fun _ _ => True) abstract) :
    concrete.Refines permitted abstract := by
  intro state events history
  obtain ⟨specification, simulated⟩ := first state events history
  exact second specification events simulated

end Simulation

end ObservedSystem

end AsyncRuntime.Foundation
