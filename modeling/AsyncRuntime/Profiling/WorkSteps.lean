import AsyncRuntime.Foundation.StepConditions
import AsyncRuntime.Profiling.Model
import Mathlib.Algebra.Order.Group.Int
import Mathlib.Data.Int.ConditionallyCompleteOrder
import Mathlib.Order.ConditionallyCompleteLattice.Basic

/-!
# The steps of a function that are kept

When the profiling interval since `begin_at` is exceeded, `Update` pops the oldest step
of the function without a look at it; only the later ones are popped for their own
begin.  Then `begin_at` is the begin of the oldest step that is left.  At first it is
the time of the registration, and it stays as it is when no step is left.

The recent steps are kept as long as whatever is popped first is old.
-/

namespace AsyncRuntime.Profiling

open AsyncRuntime.Foundation

/-! ## What one step pops -/

/-- The interval since the `begin_at` of the function is exceeded. -/
def Work.Overdue (work : Work) (interval now : ℤ) (step : WorkStep) : Prop :=
  0 < now ∧ 0 < work.begins step ∧ interval < now - work.begins step

/-- The oldest step that is kept, which is the new one if there is no other. -/
def Work.oldest (work : Work) (step : WorkStep) : WorkStep :=
  work.workTime.headD step

/-- Steps with the time at which `Update` comes to them. -/
abbrev TimedSteps := List (WorkStep × ℤ)

/-- What `Update` does with some steps of a function. -/
def Work.addSteps (work : Work) (interval : ℤ) (steps : TimedSteps) : Work :=
  steps.foldl (fun work timed => work.addStep interval timed.2 timed.1) work

/-- Whenever the function is overdue, its oldest step is old at the horizon. -/
def TimelyAt (interval horizon : ℤ) : Work → TimedSteps → Prop
  | _, [] => True
  | work, (step, now) :: steps =>
      (work.Overdue interval now step → interval ≤ horizon - (work.oldest step).beginTs) ∧
        TimelyAt interval horizon (work.addStep interval now step) steps

/-- The last time that `Update` comes to a step of the function. -/
def Work.horizon (work : Work) (steps : TimedSteps) : ℤ :=
  (steps.map Prod.snd).getLastD work.updatedAt

/-- Whenever the function is overdue, its oldest step is old when the update ends. -/
def Timely (interval : ℤ) (work : Work) (steps : TimedSteps) : Prop :=
  TimelyAt interval (work.horizon steps) work steps

/-- The steps that began less than the interval before `updated_at` are there. -/
def KeepsRecent (interval : ℤ) (work : Work) (processed : List WorkStep) : Prop :=
  ∀ step : WorkStep, work.updatedAt - step.beginTs < interval →
    processed.count step ≤ work.workTime.count step

variable {interval now horizon : ℤ} {work : Work} {step : WorkStep}

/-- Behind a front with its own `begin_at`, the loop pops what is beyond the interval. -/
theorem trim_front (workTime : List WorkStep) {beginAt : ℤ}
    (front : ∀ step ∈ workTime.head?, beginAt = step.beginTs) :
    ∃ popped, workTime = popped ++ (trim interval now workTime beginAt).1 ∧
      ∀ step ∈ popped, interval < now - step.beginTs := by
  induction workTime generalizing beginAt with
  | nil => exact ⟨[], rfl, by simp⟩
  | cons first workTime inductionHypothesis =>
      have same : beginAt = first.beginTs := front first rfl
      rw [trim]
      by_cases exceeded : interval < now - beginAt
      · obtain ⟨popped, split, beyond⟩ :=
          @inductionHypothesis (workTime.head?.elim beginAt WorkStep.beginTs) (by
            intro next found
            rw [Option.mem_def.mp found, Option.elim_some])
        refine ⟨first :: popped, ?_, ?_⟩
        · rw [if_pos exceeded, List.cons_append, ← split]
        · rw [List.forall_mem_cons, ← same]
          exact ⟨exceeded, beyond⟩
      · exact ⟨[], by rw [if_neg exceeded, List.nil_append], by simp⟩

theorem addStep_of_not_overdue (timely : ¬ work.Overdue interval now step) :
    (work.addStep interval now step).workTime = work.workTime ++ [step] := by
  rw [Work.addStep]
  by_cases positive : 0 < now ∧ 0 < work.begins step
  · have within : ¬ interval < now - work.begins step := fun exceeded =>
      timely ⟨positive.1, positive.2, exceeded⟩
    simp only [if_pos positive]
    cases work.workTime with
    | nil => rw [List.nil_append, trim, if_neg within]
    | cons first workTime => rw [List.cons_append, trim, if_neg within]
  · simp only [if_neg positive]

theorem addStep_of_overdue (overdue : work.Overdue interval now step) :
    ∃ popped, work.workTime ++ [step] =
        work.oldest step :: popped ++ (work.addStep interval now step).workTime ∧
      ∀ other ∈ popped, interval < now - other.beginTs := by
  obtain ⟨positive, begun, exceeded⟩ := overdue
  have front {workTime : List WorkStep} {beginAt : ℤ} :
      ∀ next ∈ workTime.head?, workTime.head?.elim beginAt WorkStep.beginTs = next.beginTs := by
    intro next found
    rw [Option.mem_def.mp found, Option.elim_some]
  simp only [Work.addStep, Work.oldest, if_pos (And.intro positive begun)]
  cases work.workTime with
  | nil =>
      obtain ⟨popped, split, beyond⟩ := @trim_front interval now [] (work.begins step) (by simp)
      refine ⟨popped, ?_, beyond⟩
      rw [List.nil_append, trim, if_pos exceeded, List.cons_append]
      exact congrArg _ split
  | cons first workTime =>
      obtain ⟨popped, split, beyond⟩ := @trim_front interval now (workTime ++ [step]) _ front
      refine ⟨popped, ?_, beyond⟩
      rw [List.cons_append, trim, if_pos exceeded, List.cons_append, ← split]
      rfl

/-- What a step pops is old at a horizon if and only if what it pops first is. -/
theorem addStep_popped (work : Work) (step : WorkStep) (reached : now ≤ horizon) :
    ∃ popped, work.workTime ++ [step] = popped ++ (work.addStep interval now step).workTime ∧
      ((∀ other ∈ popped, interval ≤ horizon - other.beginTs) ↔
        (work.Overdue interval now step →
          interval ≤ horizon - (work.oldest step).beginTs)) := by
  by_cases overdue : work.Overdue interval now step
  · obtain ⟨popped, split, beyond⟩ := addStep_of_overdue overdue
    refine ⟨work.oldest step :: popped, split, ?_⟩
    rw [List.forall_mem_cons]
    constructor
    · exact fun old _ => old.1
    · refine fun old => ⟨old overdue, fun other member => ?_⟩
      have before := beyond other member
      omega
  · refine ⟨[], (addStep_of_not_overdue overdue).symm, ?_⟩
    exact iff_of_true (by simp) fun late => absurd late overdue

/-! ## What an update pops -/

theorem addSteps_cons (work : Work) (interval : ℤ) (step : WorkStep) (now : ℤ)
    (steps : TimedSteps) :
    work.addSteps interval ((step, now) :: steps) =
      (work.addStep interval now step).addSteps interval steps :=
  rfl

/-- What an update pops is old at its horizon if and only if the update is timely. -/
theorem addSteps_popped (work : Work) (steps : TimedSteps)
    (reached : ∀ timed ∈ steps, timed.2 ≤ horizon) :
    ∃ popped, work.workTime ++ steps.map Prod.fst =
        popped ++ (work.addSteps interval steps).workTime ∧
      ((∀ other ∈ popped, interval ≤ horizon - other.beginTs) ↔
        TimelyAt interval horizon work steps) := by
  induction steps generalizing work with
  | nil => exact ⟨[], List.append_nil _, iff_of_true (by simp) trivial⟩
  | cons timed steps inductionHypothesis =>
      obtain ⟨step, now⟩ := timed
      rw [List.forall_mem_cons] at reached
      obtain ⟨here, split, old⟩ := @addStep_popped interval now horizon work step reached.1
      obtain ⟨later, rest, oldLater⟩ :=
        inductionHypothesis (work.addStep interval now step) reached.2
      refine ⟨here ++ later, ?_, ?_⟩
      · calc
          work.workTime ++ ((step, now) :: steps).map Prod.fst =
              work.workTime ++ [step] ++ steps.map Prod.fst := by
            rw [List.append_assoc]
            rfl
          _ = here ++ ((work.addStep interval now step).workTime ++ steps.map Prod.fst) := by
            rw [split, List.append_assoc]
          _ = here ++ later ++ (work.addSteps interval ((step, now) :: steps)).workTime := by
            rw [rest, List.append_assoc, addSteps_cons]
      · rw [List.forall_mem_append, old, oldLater, TimelyAt]

theorem updatedAt_addSteps (work : Work) (interval : ℤ) (steps : TimedSteps) :
    (work.addSteps interval steps).updatedAt = work.horizon steps := by
  induction steps generalizing work with
  | nil => rfl
  | cons timed steps inductionHypothesis =>
      rw [Work.horizon, List.map_cons, List.getLastD_cons]
      exact inductionHypothesis (work.addStep interval timed.2 timed.1)

/-- The horizon is the time of one of the steps. -/
theorem exists_horizon (work : Work) {steps : TimedSteps} (some : steps ≠ []) :
    ∃ timed ∈ steps, work.horizon steps = timed.2 := by
  cases steps with
  | nil => exact absurd rfl some
  | cons timed steps =>
      have listed : work.horizon (timed :: steps) ∈ (timed :: steps).map Prod.snd := by
        rw [Work.horizon, List.map_cons, List.getLastD_cons]
        exact List.getLastD_mem_cons
      obtain ⟨last, member, same⟩ := List.mem_map.mp listed
      exact ⟨last, member, same.symm⟩

/-- No step is later than the horizon if the times are in order. -/
theorem le_horizon (work : Work) {steps : TimedSteps}
    (ordered : (steps.map Prod.snd).Pairwise (· ≤ ·)) {timed : WorkStep × ℤ}
    (member : timed ∈ steps) : timed.2 ≤ work.horizon steps := by
  have listed : timed.2 ∈ steps.map Prod.snd := List.mem_map_of_mem member
  rw [Work.horizon, List.getLastD_eq_getLast?,
    List.getLast?_eq_some_getLast (List.ne_nil_of_mem listed), Option.getD_some]
  exact ordered.rel_getLast listed

/-- The recent steps are kept exactly if what was popped is old. -/
theorem keepsRecent_iff_popped {processed popped : List WorkStep}
    (split : processed = popped ++ work.workTime) :
    KeepsRecent interval work processed ↔
      ∀ step ∈ popped, interval ≤ work.updatedAt - step.beginTs := by
  subst split
  have counts (step : WorkStep) : (popped ++ work.workTime).count step ≤ work.workTime.count step ↔
      step ∉ popped := by
    rw [List.count_append, ← List.count_eq_zero]
    omega
  simp only [KeepsRecent, counts]
  constructor
  · intro kept step member
    by_contra recent
    exact kept step (not_le.mp recent) member
  · intro old step recent member
    exact absurd recent (not_lt.mpr (old step member))

end AsyncRuntime.Profiling
