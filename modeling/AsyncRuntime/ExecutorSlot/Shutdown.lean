import AsyncRuntime.ExecutorSlot.WorkerPhase

/-!
# Destroying a slot

The destructor stores `done`, runs one `notify(true)` and joins the threads.  A
worker tests `done` only at the top of its loop, so it may read `false`, be
overtaken by the destructor, and reach `prepare_wait` after the only notify that
could have woken it; then it parks and the join never returns.  As long as no
worker executes `prepare_wait` after the destructor's notify has taken effect,
nobody is left on the stack.  Whatever happens, the assertion of the
destructor of `WorkNotifier` holds once all threads are joined.
-/

namespace AsyncRuntime.ExecutorSlot

open AsyncRuntime.Foundation

universe u v

variable {Task : Type u} {Poster : Type v}

/-- The destructor's `notify(true)` has returned. -/
def DestructorPc.notified : DestructorPc → Bool
  | .join _ => true
  | .finished => true
  | _ => false

/-- The destructor's `notify(true)` has taken effect. -/
def State.notifiedAll (state : State Task Poster) : Bool :=
  match state.destructor with
  | .notify =>
      decide ((state.notifier.notifying .destructor).waking ≠ some true)
  | pc => pc.notified

/-- No `post` begins once the destructor has begun. -/
def noFurtherPosts (state : State Task Poster) : Action Task Poster → Prop
  | .post _ _ _ => state.destructor = .idle
  | _ => True

/-- No worker executes `prepare_wait` after the destructor's notify. -/
def preparesInTime (state : State Task Poster) : Action Task Poster → Prop
  | .worker worker _ =>
      state.workers worker = .prepareWait → state.notifiedAll = false
  | _ => True

/-- A worker sleeps on the stack and nobody is left to wake it. -/
structure State.hangs (state : State Task Poster) (size : ℕ) : Prop where
  done : state.done = true
  notified : state.destructor.notified = true
  parked : ∃ worker, state.notifier.waiting worker = .parked false
  alone :
    (∀ worker, worker < size → state.workers worker ≠ .notify) ∧
      ∀ poster, (state.posters poster).notifies = false

/-- The assertion `(_state & (kStackMask | kWaiterMask)) == kStackMask`. -/
def State.noWaiters (state : State Task Poster) : Prop :=
  state.notifier.word &&&
      (WorkNotifier.kStackMask ||| WorkNotifier.kWaiterMask) =
    WorkNotifier.kStackMask

/-- The threads joined so far have left their loops. -/
def Joined (size : ℕ) (state : State Task Poster) : DestructorPc → Prop
  | .join thread => ∀ worker, worker < thread → state.workers worker = .exited
  | .finished => ∀ worker, worker < size → state.workers worker = .exited
  | _ => True

variable {size : ℕ} {state target : State Task Poster}

theorem Joined.mono {pc : DestructorPc} (joined : Joined size state pc)
    (exited :
      ∀ worker, state.workers worker = .exited →
        target.workers worker = .exited) : Joined size target pc := by
  cases pc with
  | join thread =>
      exact fun worker worker_lt => exited worker (joined worker worker_lt)
  | finished =>
      exact fun worker worker_lt => exited worker (joined worker worker_lt)
  | _ => trivial

/-- With every worker outside its loop the state word shows nobody. -/
theorem noWaiters_of_exited
    (invariant : WorkNotifier.Invariant size state.notifier)
    (linked : state.linked)
    (exited : ∀ worker, worker < size → state.workers worker = .exited) :
    state.noWaiters := by
  have idle (worker : ℕ) : state.phase worker = .idle := by
    by_cases inside : worker < size
    · have here := linked worker
      rw [exited worker inside] at here
      exact here
    · rw [State.phase, invariant.tickets.outside worker (by omega)]
      rfl
  have nobody (worker : ℕ) : state.notifier.waiting worker = .idle := by
    have phase := idle worker
    unfold State.phase at phase
    cases place : state.notifier.waiting worker <;>
      simp [place, WorkNotifier.WaiterPc.phase] at phase
    rfl
  have uncounted : WorkNotifier.waiterField state.notifier.word = 0 := by
    by_contra counted
    rcases invariant.tickets.line.covered state.notifier.epochs le_rfl
      (by omega) with ⟨worker, waiting, -⟩
    simp [nobody worker, WorkNotifier.WaiterPc.preWait] at waiting
  have empty : WorkNotifier.stackTop state.notifier.word = none := by
    rcases invariant.stack with ⟨chain, stack⟩
    cases chain with
    | nil => exact stack.links
    | cons first rest =>
        have parked := (stack.members first).mp List.mem_cons_self
        simp [nobody first] at parked
  rw [State.noWaiters, BitVec.and_or_distrib_left,
    (WorkNotifier.and_waiterMask_eq_iff _).mpr uncounted,
    (WorkNotifier.and_stackMask_eq_iff _).mpr empty]
  exact BitVec.or_zero

variable [DecidableEq Poster]

/-- A worker that has left its loop stays outside. -/
theorem Step.exited {action : Action Task Poster}
    (step : Step size state action target) {worker : ℕ}
    (exited : state.workers worker = .exited) :
    target.workers worker = .exited := by
  have elsewhere {moved : ℕ} {pc : WorkerPc Task}
      (running : state.workers moved ≠ .exited) :
      Function.update state.workers moved pc worker = .exited := by
    have different : worker ≠ moved := by
      rintro rfl
      exact running exited
    rw [Function.update_of_ne different]
    exact exited
  cases step with
  | outside step =>
      rw [step.workers_eq]
      exact elsewhere step.running
  | prepare place _ => exact elsewhere (by simp [place])
  | lookOwn place => exact elsewhere (by simp [place])
  | ownEmpty place _ => exact elsewhere (by simp [place])
  | lookShared place => exact elsewhere (by simp [place])
  | sharedEmpty place _ => exact elsewhere (by simp [place])
  | scans place _ _ => exact elsewhere (by simp [place])
  | iterates place _ => exact elsewhere (by simp [place])
  | found place _ => exact elsewhere (by simp [place])
  | cancelled place _ _ => exact elsewhere (by simp [place])
  | commits place _ => exact elsewhere (by simp [place])
  | woken place _ => exact elsewhere (by simp [place])
  | _ => exact exited

theorem Step.joined {action : Action Task Poster}
    (step : Step size state action target)
    (joined : Joined size state state.destructor) :
    Joined size target target.destructor := by
  have stays := joined.mono fun _ exited => step.exited exited
  cases step with
  | outside step =>
      rw [step.destructor_eq]
      exact stays
  | destroy _ => trivial
  | storesDone _ _ => trivial
  | destructorReturns _ _ => exact fun worker worker_lt => by omega
  | @joins thread _ at_join exited =>
      rw [at_join] at joined
      intro worker worker_lt
      by_cases last : worker = thread
      · rw [last]
        exact exited
      · exact joined worker (by omega)
  | finishes at_join last =>
      rw [at_join] at joined
      exact fun worker worker_lt => joined worker (by omega)
  | _ => exact stays

/-- Once the destructor's notify has taken effect nobody falls asleep. -/
theorem Step.notifiedAll {action : Action Task Poster}
    (step : Step size state action target)
    (invariant : WorkNotifier.Invariant size state.notifier)
    (in_time : preparesInTime state action)
    (awake :
      state.notifiedAll = true → ∀ worker, ¬ state.notifier.asleep worker)
    (notified : target.notifiedAll = true) :
    ∀ worker, ¬ target.notifier.asleep worker := by
  -- a step of the event count lets the notify take effect or leaves it pending
  have calls {label : WorkNotifier.Action (Caller Poster)}
      (called : Called size state label target.notifier)
      (destructor_eq : target.destructor = state.destructor)
      (in_time :
        ∀ worker, label = .prepareWait worker → state.notifiedAll = false) :
      ∀ worker, ¬ target.notifier.asleep worker := by
    by_cases before : state.notifiedAll = true
    · intro worker asleep
      apply awake before worker
      apply called.asleep_of invariant _ asleep
      intro prepares
      simp [in_time worker prepares] at before
    · have pending :
          state.destructor = .notify ∧
            (state.notifier.notifying .destructor).waking = some true := by
        unfold State.notifiedAll at before notified
        rw [destructor_eq] at notified
        cases place : state.destructor with
        | notify =>
            simp only [place, decide_eq_true_eq, not_not] at before
            exact ⟨rfl, before⟩
        | _ =>
            simp only [place] at before notified
            exact absurd notified before
      rcases (WorkNotifier.step_of_next called.taken).waking invariant
        called.bounded pending.2 with still | woken
      · simp [State.notifiedAll, destructor_eq, pending.1, still] at notified
      · exact woken
  have stays (notifier_eq : target.notifier = state.notifier)
      (notified_before : state.notifiedAll = true) :
      ∀ worker, ¬ target.notifier.asleep worker := by
    rw [notifier_eq]
    exact awake notified_before
  cases step with
  | outside step =>
      refine stays step.notifier_eq ?_
      simpa only [State.notifiedAll, step.destructor_eq, step.notifier_eq]
        using notified
  | prepare place called =>
      exact calls called rfl fun _ _ => in_time place
  | found _ called => exact calls called rfl (by simp)
  | cancels _ called => exact calls called rfl (by simp)
  | cancelled _ _ called => exact calls called rfl (by simp)
  | notifies _ called => exact calls called rfl (by simp)
  | commits _ called => exact calls called rfl (by simp)
  | waits _ called => exact calls called rfl (by simp)
  | posterCalls _ called => exact calls called rfl (by simp)
  | posterNotifies _ called => exact calls called rfl (by simp)
  | destroy _ => simp [State.notifiedAll, DestructorPc.notified] at notified
  | storesDone _ called =>
      have waking := called.notify.2
      simp [State.notifiedAll, waking] at notified
  | destructorNotifies _ called => exact calls called rfl (by simp)
  | destructorReturns at_notify returned =>
      refine stays rfl ?_
      simp [State.notifiedAll, at_notify, returned, WorkNotifier.NotifyPc.waking]
  | joins at_join _ =>
      refine stays rfl ?_
      simp [State.notifiedAll, at_join, DestructorPc.notified]
  | finishes at_join _ =>
      refine stays rfl ?_
      simp [State.notifiedAll, at_join, DestructorPc.notified]
  | _ => exact stays rfl notified

/-- The steps of a run in which every worker prepares in time. -/
def shutdownInTime (state : State Task Poster) (action : Action Task Poster) :
    Prop :=
  epochsBounded state action ∧ noFurtherPosts state action ∧
    preparesInTime state action

/-- What a run in which every worker prepares in time maintains. -/
structure ShutdownInvariant (size : ℕ) (state : State Task Poster) : Prop where
  linked : state.linked
  joined : Joined size state state.destructor
  awake : state.notifiedAll = true → ∀ worker, ¬ state.notifier.asleep worker

theorem notifier_invariant_of_shutdownInTime {cpus : List ℕ}
    (size_lt : cpus.length < 2 ^ 16 - 1)
    (reachable :
      (system Task Poster cpus).ReachableUnder shutdownInTime state) :
    WorkNotifier.Invariant cpus.length state.notifier :=
  notifier_invariant size_lt (reachable.mono fun _ _ permitted => permitted.1)

theorem shutdownInvariant_of_reachable {cpus : List ℕ}
    (size_lt : cpus.length < 2 ^ 16 - 1)
    (reachable :
      (system Task Poster cpus).ReachableUnder shutdownInTime state) :
    ShutdownInvariant cpus.length state := by
  refine reachable.invariant ?_ ?_
  · rintro start ⟨memory, waiters, rfl⟩
    refine ⟨fun _ => rfl, trivial, ?_⟩
    intro notified
    simp [State.initial, State.notifiedAll, DestructorPc.notified] at notified
  · rintro source action target reached ⟨bounded, -, in_time⟩ taken invariant
    have step := step_of_next bounded taken
    have notifier := notifier_invariant_of_shutdownInTime size_lt reached
    exact
      ⟨step.linked invariant.linked, step.joined invariant.joined,
        step.notifiedAll notifier in_time invariant.awake⟩

/--
In every run in which no worker executes `prepare_wait` after the destructor's
notify has taken effect, no state hangs on a parked worker, and when all threads
are joined the event count has no waiters.
-/
theorem shutdown_leaves_nobody_parked {cpus : List ℕ}
    {state : State Task Poster} (size_lt : cpus.length < 2 ^ 16 - 1)
    (reachable :
      (system Task Poster cpus).ReachableUnder shutdownInTime state) :
    ¬ state.hangs cpus.length ∧
      (state.destructor = .finished → state.noWaiters) := by
  have invariant := shutdownInvariant_of_reachable size_lt reachable
  constructor
  · intro hangs
    have notified : state.notifiedAll = true := by
      have returned := hangs.notified
      unfold State.notifiedAll
      cases place : state.destructor <;>
        simp_all [DestructorPc.notified]
    rcases hangs.parked with ⟨worker, parked⟩
    exact invariant.awake notified worker (.inr parked)
  · intro finished
    have joined := invariant.joined
    rw [finished] at joined
    exact
      noWaiters_of_exited
        (notifier_invariant_of_shutdownInTime size_lt reachable)
        invariant.linked joined

instance (state : State Task Poster) :
    (action : Action Task Poster) → Decidable (noFurtherPosts state action)
  | .worker _ _ => inferInstanceAs (Decidable True)
  | .post _ _ _ => inferInstanceAs (Decidable (_ = _))
  | .poster _ _ => inferInstanceAs (Decidable True)
  | .destroy => inferInstanceAs (Decidable True)
  | .destructor _ => inferInstanceAs (Decidable True)

instance [DecidableEq Task] (state : State Task Poster) :
    (action : Action Task Poster) → Decidable (preparesInTime state action)
  | .worker _ _ => inferInstanceAs (Decidable (_ → _))
  | .post _ _ _ => inferInstanceAs (Decidable True)
  | .poster _ _ => inferInstanceAs (Decidable True)
  | .destroy => inferInstanceAs (Decidable True)
  | .destructor _ => inferInstanceAs (Decidable True)

instance [DecidableEq Task] (state : State Task Poster)
    (action : Action Task Poster) : Decidable (shutdownInTime state action) :=
  inferInstanceAs (Decidable (_ ∧ _ ∧ _))

/-- A worker parks first, the destructor wakes it, and its thread is joined. -/
theorem shutdown_leaves_nobody_parked_joined :
    ∃ state : State Unit Unit,
      (system Unit Unit [0]).ReachableUnder shutdownInTime state ∧
        state.destructor = .finished ∧ ¬ state.hangs 1 ∧ state.noWaiters := by
  rcases TransitionSystem.exists_reachableUnder_of_run
      (system Unit Unit [0]) shutdownInTime
      ⟨fun _ _ _ => none, fun _ => ⟨none, 0, .kNotSignaled⟩, rfl⟩
      [List.replicate 163 (.worker 0 false), [.destroy],
        List.replicate 6 (.destructor false), List.replicate 3 (.worker 0 false),
        List.replicate 2 (.destructor false)].flatten
      (fun state => decide (state.destructor = .finished))
      (by decide +kernel) with ⟨state, reachable, finished⟩
  rw [decide_eq_true_eq] at finished
  have safe := shutdown_leaves_nobody_parked (by decide) reachable
  exact ⟨state, reachable, finished, safe.1, safe.2 finished⟩

/--
A worker reads `done` as false, the destructor stores it, notifies nobody and
waits in `join`; then the worker prepares, finds no task and parks for ever.
-/
theorem shutdown_hangs :
    ∃ state : State Unit Unit,
      (system Unit Unit [0]).ReachableUnder
          (fun state action =>
            epochsBounded state action ∧ noFurtherPosts state action) state ∧
        state.hangs 1 := by
  rcases TransitionSystem.exists_reachableUnder_of_run
      (system Unit Unit [0])
      (fun state action =>
        epochsBounded state action ∧ noFurtherPosts state action)
      ⟨fun _ _ _ => none, fun _ => ⟨none, 0, .kNotSignaled⟩, rfl⟩
      [[.worker 0 false, .destroy], List.replicate 3 (.destructor false),
        List.replicate 162 (.worker 0 false)].flatten
      (fun state =>
        (state.done && state.destructor.notified) &&
          (decide (state.notifier.waiting 0 = .parked false) &&
            (decide (state.workers 0 = .commitWait) &&
              decide (state.posters () = .idle))))
      (by decide +kernel) with ⟨state, reachable, facts⟩
  simp only [Bool.and_eq_true, decide_eq_true_eq] at facts
  rcases facts with ⟨⟨done, notified⟩, parked, committed, idle⟩
  refine ⟨state, reachable, done, notified, ⟨0, parked⟩, ?_, ?_⟩
  · intro worker worker_lt
    have first : worker = 0 := by omega
    simp [first, committed]
  · intro poster
    rw [idle]
    rfl

end AsyncRuntime.ExecutorSlot
