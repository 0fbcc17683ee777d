import AsyncRuntime.Scheduler.Model

/-!
# Destroying a scheduler

The destructor stores `is_continue = false` and notifies without the mutex, and
the scheduler thread waits without testing the flag again.  A `notify_one` that
falls between the thread's test of the flag and its wait on an empty heap wakes
nobody, and the join never returns.  In every run in which the destructor's
`notify_one` does not fall there, the thread is not left waiting.
-/

namespace AsyncRuntime.Scheduler

open AsyncRuntime.Foundation

universe u v

variable {Task : Type u} {Poster : Type v}

/-- The destructor's `notify_one` is complete. -/
def DestructorPc.notified : DestructorPc → Bool
  | .join => true
  | .finished => true
  | _ => false

/-- The destructor has stored the flag. -/
def DestructorPc.stored : DestructorPc → Bool
  | .notify => true
  | .join => true
  | .finished => true
  | _ => false

/-- The thread is left waiting for a task by a destructor that has notified. -/
structure State.hangs (state : State Task Poster) : Prop where
  stopped : state.isContinue = false
  notified : state.destructor.notified = true
  waits : state.loop = .wait
  empty : state.delayedTask = []

/--
The thread has tested the flag and is on its way into the wait for a task: it has
found the heap empty, or has not looked yet and would find it so.
-/
def State.aboutToWait (state : State Task Poster) : Bool :=
  match state.loop with
  | .lock => state.delayedTask.isEmpty
  | .examine => state.delayedTask.isEmpty
  | .beginWait => true
  | _ => false

/--
The destructor does not notify while the thread is between its test of the flag
and its wait, with the heap empty.
-/
def notifiesInTime (state : State Task Poster) : Action Task Poster → Prop
  | .destructor => state.destructor = .notify → state.aboutToWait = false
  | _ => True

/-- After the destructor's notification the thread does not wait for a task. -/
structure Awake (state : State Task Poster) : Prop where
  stopped : state.destructor.stored = true → state.isContinue = false
  awake : state.destructor.notified = true → state.loop ≠ .wait
  remains : state.destructor.notified = true → state.aboutToWait = false

section

variable {state target : State Task Poster}

theorem stored_of_notified {pc : DestructorPc} (notified : pc.notified = true) :
    pc.stored = true := by
  cases pc <;> first | rfl | exact Bool.noConfusion notified

/-- A notification takes the thread out of its wait. -/
theorem State.notifyOne_cases (state : State Task Poster) :
    state.notifyOne.loop = .reacquire ∨
      state.notifyOne.loop = state.loop ∧ state.loop ≠ .wait := by
  cases place : state.loop <;> simp [place]

theorem Awake.loopMove {pc : LoopPc} (awake : Awake state)
    (place : state.loop = pc) (move : LoopMove state pc target) :
    Awake target := by
  have remains := awake.remains
  simp only [State.aboutToWait, place] at remains
  cases move with
  | continues alive =>
      refine ⟨awake.stopped, fun _ => by simp, ?_⟩
      intro notified
      have stopped := awake.stopped (stored_of_notified notified)
      exact absurd (stopped.symm.trans alive) (by decide)
  | locks => exact ⟨awake.stopped, fun _ => by simp, remains⟩
  | misses empty =>
      refine ⟨awake.stopped, fun _ => by simp, ?_⟩
      intro notified
      exact absurd (remains notified) (by simp [empty])
  | waits =>
      refine ⟨awake.stopped, ?_, fun _ => rfl⟩
      intro notified
      exact absurd (remains notified) (by simp)
  | _ => exact ⟨awake.stopped, fun _ => by simp, fun _ => rfl⟩

/-- A notification does not bring the thread nearer to its wait. -/
theorem State.aboutToWait_of_notifyOne (loop_eq : target.loop = state.notifyOne.loop)
    (delayedTask_eq : target.delayedTask = state.delayedTask)
    (remains : state.aboutToWait = false) : target.aboutToWait = false := by
  rcases state.notifyOne_cases with woken | ⟨same, -⟩
  · rw [aboutToWait, loop_eq, woken]
  · rw [aboutToWait, loop_eq, same, delayedTask_eq]
    exact remains

theorem State.loop_ne_wait_of_notifyOne (loop_eq : target.loop = state.notifyOne.loop) :
    target.loop ≠ .wait := by
  rw [loop_eq]
  rcases state.notifyOne_cases with woken | ⟨same, elsewhere⟩
  · rw [woken]
    exact LoopPc.noConfusion
  · rw [same]
    exact elsewhere

variable [DecidableEq Poster] {action : Action Task Poster}

theorem Awake.step (awake : Awake state) (step : Step state action target)
    (inTime : notifiesInTime state action) : Awake target := by
  cases step with
  | loop move => exact awake.loopMove rfl move
  | wakes blocked => exact ⟨awake.stopped, fun _ => by simp, fun _ => rfl⟩
  | begins => exact ⟨awake.stopped, awake.awake, awake.remains⟩
  | posterLocks => exact ⟨awake.stopped, awake.awake, awake.remains⟩
  | pushes =>
      refine ⟨awake.stopped, awake.awake, ?_⟩
      intro notified
      have remains := awake.remains notified
      -- a task in the heap keeps the thread from waiting
      cases place : state.loop <;> simp_all [State.aboutToWait]
  | notifies =>
      exact ⟨awake.stopped, fun _ => State.loop_ne_wait_of_notifyOne rfl,
        fun notified => State.aboutToWait_of_notifyOne rfl rfl (awake.remains notified)⟩
  | posterUnlocks => exact ⟨awake.stopped, awake.awake, awake.remains⟩
  | destroys idle =>
      exact ⟨fun stored => Bool.noConfusion stored,
        fun notified => Bool.noConfusion notified,
        fun notified => Bool.noConfusion notified⟩
  | stores place =>
      exact ⟨fun _ => rfl, fun notified => Bool.noConfusion notified,
        fun notified => Bool.noConfusion notified⟩
  | destructorNotifies place =>
      exact ⟨fun _ => awake.stopped (by rw [place]; rfl),
        fun _ => State.loop_ne_wait_of_notifyOne rfl,
        fun _ => State.aboutToWait_of_notifyOne rfl rfl (inTime place)⟩
  | joins place exited =>
      have notified : state.destructor.notified = true := by
        rw [place]
        rfl
      exact ⟨fun _ => awake.stopped (stored_of_notified notified),
        fun _ => awake.awake notified, fun _ => awake.remains notified⟩

/--
In every run in which the destructor does not notify between the thread's test of
`is_continue` and its wait with the heap empty, the thread is not left blocked in
`wait` with an empty heap.
-/
theorem destroy_does_not_hang
    (reachable :
      (system Task Poster).ReachableUnder notifiesInTime state) :
    ¬ state.hangs := by
  have awake : Awake state := by
    refine reachable.invariant ?_ ?_
    · rintro state rfl
      exact ⟨fun stored => Bool.noConfusion stored,
        fun notified => Bool.noConfusion notified,
        fun notified => Bool.noConfusion notified⟩
    · intro source action target _ inTime taken awake
      exact awake.step (step_of_next taken) inTime
  intro hangs
  exact awake.awake hangs.notified hangs.waits

end

instance (state : State Task Poster)
    (action : Action Task Poster) : Decidable (notifiesInTime state action) :=
  match action with
  | .destructor =>
      inferInstanceAs (Decidable
        (state.destructor = .notify → state.aboutToWait = false))
  | .loop _ _ | .wake | .post _ _ => inferInstanceAs (Decidable True)
  | .poster _ | .destroy => inferInstanceAs (Decidable True)

/-- The destructor finds the thread in its wait and wakes it. -/
theorem destroy_does_not_hang_waiting :
    ∃ state : State ℕ Unit,
      (system ℕ Unit).ReachableUnder notifiesInTime state ∧
        state.isContinue = false ∧ state.destructor.notified = true ∧
        state.delayedTask = [] ∧ ¬ state.hangs := by
  rcases TransitionSystem.exists_reachableUnder_of_run
      (system ℕ Unit) notifiesInTime rfl
      [List.replicate 4 (.loop 0 false),
        [.destroy, .destructor, .destructor]].flatten
      (fun state =>
        !state.isContinue && state.destructor.notified &&
          decide (state.delayedTask = []))
      (by decide +kernel) with ⟨state, reachable, facts⟩
  simp only [Bool.and_eq_true, Bool.not_eq_true', decide_eq_true_eq] at facts
  exact
    ⟨state, reachable, facts.1.1, facts.1.2, facts.2,
      destroy_does_not_hang reachable⟩

/--
The thread has tested the flag; the destructor stores it and notifies; then the
thread locks the mutex, finds the heap empty and waits for ever.
-/
theorem destroy_hangs :
    ¬ ∀ state : State ℕ Unit, (system ℕ Unit).Reachable state → ¬ state.hangs := by
  intro claim
  rcases TransitionSystem.exists_reachableUnder_of_run
      (system ℕ Unit) (fun _ _ => True) rfl
      [.loop 0 false, .destroy, .destructor, .destructor, .loop 0 false,
        .loop 0 false, .loop 0 false]
      (fun state =>
        !state.isContinue && state.destructor.notified &&
          decide (state.loop = .wait) && decide (state.delayedTask = []))
      (by decide +kernel) with ⟨state, reachable, facts⟩
  simp only [Bool.and_eq_true, Bool.not_eq_true', decide_eq_true_eq] at facts
  exact claim state reachable ⟨facts.1.1.1, facts.1.1.2, facts.1.2, facts.2⟩

end AsyncRuntime.Scheduler
