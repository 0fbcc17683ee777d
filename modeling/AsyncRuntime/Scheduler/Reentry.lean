import AsyncRuntime.Scheduler.Order
import AsyncRuntime.WorkGroup.Calls
import Mathlib.Order.Monotone.Basic

/-!
# Whether the scheduler thread locks its mutex twice

`SchedulerLoop` holds the mutex while it gives a due task to
`ExecutorWorkGroup::Post`, which tests the delay once more with a reading of its
own.  If that reading is before the deadline, because the system clock has been
set back, the task returns to the scheduler and its thread waits for itself.
-/

namespace AsyncRuntime.Scheduler.Clocked

open AsyncRuntime.Foundation
open AsyncRuntime.WorkGroup (Group Task)

/-- The reading of the callback is not before the deadline of its task. -/
def NotSetBack (readings : Readings) (state : State) : Action → Prop
  | .call _ =>
      match state.loop with
      | .calling task => task.createdAt ≤ readings.clock state.ticks
      | _ => True
  | _ => True

instance (readings : Readings) (state : State) (action : Action) :
    Decidable (NotSetBack readings state action) := by
  unfold NotSetBack
  split
  · split <;> infer_instance
  · infer_instance

section

variable {readings : Readings} {state target : State} {heap : List Task}

/-- The callback returns the task to the scheduler if its own reading is early. -/
theorem call_blocked_iff {group : Group} {task : Task}
    (called : state.call readings group task = some target) :
    target.loop = .blocked ↔ readings.clock state.ticks < task.createdAt := by
  unfold State.call at called
  split at called
  · cases called
  · rename_i after posted result
    rcases (Group.post_cases result).2 with
      ⟨early, returned, -⟩ | ⟨due, index, slot, -, placed, -⟩
    · simp only [returned, Option.some.injEq] at called
      subst target
      rw [WorkGroup.Task.getDelay] at early
      exact ⟨fun _ => by omega, fun _ => rfl⟩
    · simp only [placed, Option.some.injEq] at called
      subst target
      rw [WorkGroup.Task.getDelay] at due
      refine ⟨fun impossible => ?_, fun early => by omega⟩
      cases impossible

theorem step_not_blocked {action : Action} (free : state.loop ≠ .blocked)
    (notSetBack : NotSetBack readings state action)
    (step : Step readings state action target) : target.loop ≠ .blocked := by
  cases step with
  | posts ready => exact free
  | waits ready empty => exact free
  | finds ready top due => exact fun impossible => by cases impossible
  | delays ready top early => exact fun impossible => by cases impossible
  | calls place called =>
      intro blocked
      have early := (call_blocked_iff called).mp blocked
      simp only [NotSetBack, place] at notSetBack
      omega
  | pops place => exact fun impossible => by cases impossible

theorem not_blocked_of_reachable
    (reachable : (system readings heap).ReachableUnder (NotSetBack readings) state) :
    state.loop ≠ .blocked := by
  induction reachable with
  | start isInitial =>
      rw [isInitial]
      exact fun impossible => by cases impossible
  | step earlier notSetBack taken inductionHypothesis =>
      exact step_not_blocked inductionHypothesis notSetBack (step_of_next taken)

/-! ## A clock that is not set back -/

/-- A task is given to the callback after a reading at which it was due. -/
def FoundDue (readings : Readings) (state : State) : Prop :=
  ∀ task, state.loop = .calling task →
    ∃ tick < state.ticks, task.createdAt ≤ readings.clock tick

theorem FoundDue.step {action : Action} (found : FoundDue readings state)
    (step : Step readings state action target) : FoundDue readings target := by
  cases step with
  | posts ready =>
      intro task calling
      have place : state.loop = .calling task := calling
      rw [ready] at place
      cases place
  | waits ready empty => exact found
  | finds ready top due =>
      intro task calling
      cases calling
      rw [WorkGroup.Task.getDelay] at due
      exact ⟨state.ticks, Nat.lt_succ_self _, by omega⟩
  | delays ready top early =>
      intro task calling
      cases calling
  | calls place called =>
      unfold State.call at called
      split at called
      · cases called
      · split at called <;> cases called <;> exact fun task calling => by cases calling
  | pops place =>
      intro task calling
      cases calling

theorem foundDue_of_reachable (reachable : (system readings heap).Reachable state) :
    FoundDue readings state := by
  refine reachable.invariant ?_ ?_
  · rintro start rfl task calling
    cases calling
  · intro source action target _ _ taken found
    exact found.step (step_of_next taken)

/-- With a clock that never goes back no reading of the callback is early. -/
theorem notSetBack_of_nondecreasing (nondecreasing : readings.Nondecreasing)
    (reachable : (system readings heap).Reachable state) (action : Action) :
    NotSetBack readings state action := by
  cases action with
  | call group =>
      cases place : state.loop with
      | calling task =>
          obtain ⟨tick, earlier, due⟩ := foundDue_of_reachable reachable task place
          simp only [NotSetBack, place]
          exact due.trans (monotone_nat_of_le_succ nondecreasing (Nat.le_of_lt earlier))
      | _ => simp only [NotSetBack, place]
  | _ => exact trivial

end

/-! ## The mutex -/

/--
The scheduler thread does not call `Post` of its own scheduler as long as the
callback does not read a time before the deadline of its task; when it does, it
calls `Post`.  A clock that never goes back gives no such reading.
-/
theorem reenters_iff_set_back (readings : Readings) (heap : List Task) :
    (∀ state, (system readings heap).ReachableUnder (NotSetBack readings) state →
        state.loop ≠ .blocked) ∧
      (∀ state group target, (system readings heap).Reachable state →
        next readings state (.call group) = some target →
          (target.loop = .blocked ↔ ¬ NotSetBack readings state (.call group))) ∧
      (readings.Nondecreasing →
        ∀ state action, (system readings heap).Reachable state →
          NotSetBack readings state action) := by
  refine ⟨fun state reachable => not_blocked_of_reachable reachable, ?_, ?_⟩
  · intro state group target _ taken
    cases step_of_next taken with
    | calls place called =>
        rw [call_blocked_iff called]
        simp only [NotSetBack, place, not_le]
  · exact fun nondecreasing state action reachable =>
      notSetBack_of_nondecreasing nondecreasing reachable action

/-! ## A clock set back by one microsecond -/

/-- The second reading is one microsecond before the first. -/
def setBackClock : Readings where
  clock tick := if tick = 0 then 10 else 9
  leftFirst _ := true

/-- The second reading is before the first, but not before the deadline. -/
theorem reenters_iff_set_back_little :
    ∃ state : State,
      (system setBackClock [taskDueAt 9]).ReachableUnder (NotSetBack setBackClock) state ∧
        state.passedDeadlines = [9] ∧ state.loop ≠ .blocked := by
  have start : (system setBackClock [taskDueAt 9]).initial (.start [taskDueAt 9]) := rfl
  obtain ⟨state, reachable, ends⟩ :=
    TransitionSystem.exists_reachableUnder_of_run (system setBackClock [taskDueAt 9])
      (NotSetBack setBackClock) start [.examine, .call sampleGroup, .pop]
      (fun state => decide (state.passedDeadlines = [9])) (by decide)
  exact ⟨state, reachable, of_decide_eq_true ends,
    (reenters_iff_set_back setBackClock [taskDueAt 9]).1 state reachable⟩

/-- A task due at the first reading only goes back to the scheduler. -/
theorem set_back_locks_twice :
    ¬ ∀ (readings : Readings) (heap : List Task) (state : State),
      (system readings heap).Reachable state → state.loop ≠ .blocked := by
  intro claim
  have start : (system setBackClock [taskDueAt 10]).initial (.start [taskDueAt 10]) := rfl
  obtain ⟨state, reachable, ends⟩ :=
    TransitionSystem.exists_reachableUnder_of_run (system setBackClock [taskDueAt 10])
      (fun _ _ => True) start [.examine, .call sampleGroup]
      (fun state => decide (state.loop = .blocked)) (by decide)
  exact claim setBackClock [taskDueAt 10] state reachable (of_decide_eq_true ends)

end AsyncRuntime.Scheduler.Clocked
