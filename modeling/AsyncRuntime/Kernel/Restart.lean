import AsyncRuntime.Kernel.Attention
import AsyncRuntime.Kernel.Request

/-!
# Restarting a kernel

`AsyncInit` makes a new coroutine and resets `state`, but the notifier outlives
the run: a `TERMINATE` flag that nobody has consumed is found by the first watch
of the next run, which then executes `OnTerminate` although nobody has asked for
it.  In every run in which `AsyncInit` finds the flag cleared, `OnTerminate` is
executed only after an `AsyncTerminate` of the same run.
-/

namespace AsyncRuntime.Kernel

open AsyncRuntime.Foundation
open AsyncRuntime.Dataflow

universe u v w x

variable {Name : Type u} {User : Type v} {Message : Type w} {Client : Type x}

/-- `AsyncInit` is called while no `TERMINATE` flag is left in `notify_state`. -/
def startsCleared (state : State Name User Message Client) :
    Action Name User Message Client → Prop
  | .asyncInit =>
      hasState state.shared.notifier.notifyState KernelEvent.terminate.flag =
        false
  | _ => True

/-- The runs with one coroutine at a time, each started with the flag cleared. -/
structure RestartsCleared (state : State Name User Message Client)
    (action : Action Name User Message Client) : Prop where
  restarts : restartsEnded state action
  cleared : startsCleared state action

/-- The coroutine is inside `OnTerminate`. -/
def LoopPc.terminating : LoopPc Name → Bool
  | .flush place _ => decide (place = .onTerminate)
  | .terminateUnsubscribeAll => true
  | _ => false

/-- The coroutine of the last `AsyncInit` has begun `OnTerminate`. -/
def State.onTerminateInvoked (state : State Name User Message Client) : Prop :=
  .onTerminate ∈ state.current.log ∨ state.current.pc.terminating = true

/-! ## Nothing is heard of `TERMINATE` -/

/-- The value of the future, if it has one, does not contain `TERMINATE`. -/
def SilentFuture (notifier : Notifier) (future : WatchFuture) : Prop :=
  ∀ value, notifier.poll future = .ready value →
    hasState value KernelEvent.terminate.flag = false

/-- The events the coroutine acts on do not contain `TERMINATE`. -/
def Unheard (notifier : Notifier) : LoopPc Name → Prop
  | .await _ future => SilentFuture notifier future
  | .suspended _ promise => SilentFuture notifier (.promise promise)
  | .onProcess events _ =>
      hasState events KernelEvent.terminate.flag = false
  | pc => pc.terminating = false

/-- Nobody has notified `TERMINATE`, and the coroutine has not heard of it. -/
structure Silent (state : State Name User Message Client) : Prop where
  cleared :
    hasState state.shared.notifier.notifyState KernelEvent.terminate.flag = false
  unheard : Unheard state.shared.notifier state.current.pc
  log : .onTerminate ∉ state.current.log

/-- What is silent stays so until `AsyncTerminate` notifies. -/
def State.silentUntilNotified (state : State Name User Message Client) : Prop :=
  state.terminateNotified = false → Silent state

section

variable {notifier : Notifier}

theorem silentFuture_promise_iff (name : ℕ) :
    SilentFuture notifier (.promise name) ↔
      ∀ value, notifier.values name = some value →
        hasState value KernelEvent.terminate.flag = false := by
  constructor
  · intro silent value stored
    exact silent value (by simp [Notifier.poll, stored])
  · intro silent value ready
    cases stored : notifier.values name with
    | some found =>
        simp only [Notifier.poll, stored, Poll.ready.injEq] at ready
        rw [← ready]
        exact silent found stored
    | none =>
        simp only [Notifier.poll, stored] at ready
        split at ready <;> cases ready

/-- Another event adds no `TERMINATE` to any value. -/
theorem SilentFuture.notify {future : WatchFuture}
    (silent : SilentFuture notifier future)
    (cleared :
      hasState notifier.notifyState KernelEvent.terminate.flag = false)
    {event : KernelEvent} (different : event ≠ .terminate) :
    SilentFuture (notifier.notify event.flag) future := by
  cases future with
  | resolved value => exact silent
  | promise name =>
      rw [silentFuture_promise_iff] at silent ⊢
      intro value stored
      rw [Notifier.notify_values] at stored
      split at stored
      · cases stored
        simp [cleared, different.symm]
      · exact silent value stored

theorem Unheard.notify {pc : LoopPc Name} (unheard : Unheard notifier pc)
    (cleared :
      hasState notifier.notifyState KernelEvent.terminate.flag = false)
    {event : KernelEvent} (different : event ≠ .terminate) :
    Unheard (notifier.notify event.flag) pc := by
  cases pc with
  | await point future => exact SilentFuture.notify unheard cleared different
  | suspended point promise =>
      exact SilentFuture.notify unheard cleared different
  | _ => exact unheard

/-- A new promise has no value. -/
theorem SilentFuture.rearm (sound : notifier.Sound) (watchAny : Bool)
    (watchState : Flags) :
    SilentFuture (notifier.rearm watchAny watchState)
      (.promise (notifier.rearm watchAny watchState).promise) := by
  rw [silentFuture_promise_iff]
  intro value stored
  have unset := sound.later _ (Nat.lt_succ_self notifier.promise)
  exact absurd (unset.symm.trans stored) (by simp)

theorem silentFuture_asyncWatch (sound : notifier.Sound)
    (events : List KernelEvent)
    (cleared :
      hasState notifier.notifyState KernelEvent.terminate.flag = false) :
    SilentFuture (notifier.asyncWatch (events.map KernelEvent.flag)).1
      (notifier.asyncWatch (events.map KernelEvent.flag)).2 := by
  cases answer : (notifier.asyncWatch (events.map KernelEvent.flag)).2 with
  | promise promise =>
      rw [Notifier.asyncWatch_promise answer]
      exact SilentFuture.rearm sound false _
  | resolved found =>
      intro value ready
      cases ready
      simp only [Notifier.asyncWatch, Notifier.futureOf] at answer
      split at answer
      · cases answer
      · cases answer
        rw [foldl_checkNotifications, cleared]
        simp

theorem silentFuture_asyncWatchAny (sound : notifier.Sound)
    (cleared :
      hasState notifier.notifyState KernelEvent.terminate.flag = false) :
    SilentFuture notifier.asyncWatchAny.1 notifier.asyncWatchAny.2 := by
  cases answer : notifier.asyncWatchAny.2 with
  | promise promise =>
      rw [(Notifier.asyncWatchAny_promise answer).1]
      exact SilentFuture.rearm sound true _
  | resolved found =>
      intro value ready
      cases ready
      rw [Notifier.asyncWatchAny_resolved answer]
      exact cleared

end

section

variable {notifier : Notifier} (config : Config Name) {events : Flags}

theorem unheard_dispatchTerminate
    (silent : hasState events KernelEvent.terminate.flag = false) :
    Unheard notifier (dispatchTerminate config events) := by
  unfold dispatchTerminate dispatchSubscription dispatchUnsubscription
  rw [silent]
  simp only [Bool.false_eq_true, if_false]
  split
  · rfl
  · split <;> rfl

theorem unheard_unwind (standard : Bool) :
    Unheard notifier (unwind standard : LoopPc Name) := by
  cases standard <;> rfl

theorem unheard_afterWait (caller : WaitCaller) :
    Unheard notifier (afterWait caller : LoopPc Name) := by
  cases caller <;> rfl

/-- Without `TERMINATE` no wait ends in `OnTerminate`. -/
theorem unheard_dispatch (point : WatchPoint)
    (silent : hasState events KernelEvent.terminate.flag = false) :
    Unheard notifier (dispatch config events point) := by
  cases point with
  | any =>
      simp only [dispatch, dispatchProcess]
      split
      · exact silent
      · exact unheard_dispatchTerminate config silent
  | subscription caller =>
      simp only [dispatch, dispatchWait, silent, Bool.false_eq_true, if_false]
      split
      · rfl
      · exact unheard_afterWait caller

/-- Only the last step of `OnTerminate` records it. -/
theorem onTerminate_notMem_hook {pc : LoopPc Name}
    (elsewhere : pc ≠ .terminateUnsubscribeAll) :
    Hook.onTerminate ∉ pc.hook := by
  cases pc with
  | terminateUnsubscribeAll => exact absurd rfl elsewhere
  | subscribersEmpty caller => cases caller <;> simp [LoopPc.hook]
  | _ => simp [LoopPc.hook]

end

section

variable [DecidableEq Name] {config : Config Name}
variable {kernel moved : Shared Name User Message Client}
variable {pc after : LoopPc Name} {choice : Choice Name}

theorem Move.unheard (move : Move config kernel pc choice moved after)
    (sound : kernel.notifier.Sound)
    (cleared :
      hasState kernel.notifier.notifyState KernelEvent.terminate.flag = false)
    (unheard : Unheard kernel.notifier pc) : Unheard moved.notifier after := by
  cases move with
  | watches caller => exact silentFuture_asyncWatch sound waitedEvents cleared
  | watchesAny => exact silentFuture_asyncWatchAny sound cleared
  | sleeps point pending => exact unheard
  | awaits point ready =>
      exact unheard_dispatch config point (unheard _ ready)
  | wakes point ready => exact unheard_dispatch config point (unheard _ ready)
  | drains events drained empty => exact unheard
  | reads events drained name => exact unheard
  | processed events drained => exact unheard_dispatchTerminate config unheard
  | activates events =>
      unfold dispatchUnsubscription
      split <;> rfl
  | initThrows standard => exact unheard_unwind standard
  | initFailedThrows error standard => exact unheard_unwind standard
  | processThrows events drained standard => exact unheard_unwind standard
  | disposeThrows standard => exact unheard_unwind standard
  | findsSubscribers caller free => exact unheard_afterWait caller
  | flushNext place empty => exact unheard
  | flushPop place => exact unheard
  | flushed place =>
      cases place with
      | beforeWait caller => rfl
      | afterSubscription caller => exact unheard_afterWait caller
      | onTerminate => exact Bool.noConfusion unheard
  | unsubscribesAll free => exact Bool.noConfusion unheard
  | _ => rfl

theorem Move.cleared (move : Move config kernel pc choice moved after)
    (cleared :
      hasState kernel.notifier.notifyState KernelEvent.terminate.flag = false) :
    hasState moved.notifier.notifyState KernelEvent.terminate.flag = false := by
  cases move with
  | watches caller => exact hasState_zero .terminate
  | watchesAny => exact hasState_zero .terminate
  | _ => exact cleared

variable {state target : State Name User Message Client}

theorem Silent.coroutineStep (silent : Silent state)
    (sound : state.shared.notifier.Sound)
    (step : CoroutineStep config state target state.generation choice) :
    Silent target := by
  constructor
  · exact step.move.cleared silent.cleared
  · rw [step.current_eq]
    exact step.move.unheard sound silent.cleared silent.unheard
  · rw [step.current_eq, step.log_eq, List.mem_append, not_or]
    refine ⟨onTerminate_notMem_hook ?_, silent.log⟩
    intro ends
    have unheard := silent.unheard
    rw [show state.current.pc = .terminateUnsubscribeAll from ends] at unheard
    exact Bool.noConfusion unheard

variable [DecidableEq User] {action : Action Name User Message Client}

theorem State.silentUntilNotified.step (silent : state.silentUntilNotified)
    (attended : Attended state) (step : Step config state action target)
    (permitted : RestartsCleared state action) :
    target.silentUntilNotified := by
  cases step with
  | asyncInit idle =>
      intro _
      refine ⟨permitted.cleared, ?_, ?_⟩
      · simp [State.current, Unheard, LoopPc.terminating]
      · simp [State.current]
  | run idle =>
      intro unnotified
      rcases silent unnotified with ⟨cleared, unheard, log⟩
      exact ⟨cleared, unheard, log⟩
  | asyncTerminate idle =>
      intro unnotified
      rcases silent unnotified with ⟨cleared, unheard, log⟩
      exact ⟨cleared, unheard, log⟩
  | controller move =>
      intro unnotified
      have effect := move.effect
      rcases effect.shared_eq with
        ⟨⟨stored, shared_eq⟩, notified_eq⟩ | ⟨-, notified⟩
      · rw [notified_eq] at unnotified
        have pc_eq := effect.pc_eq state.generation
        have log_eq := effect.log_eq state.generation
        rcases silent unnotified with ⟨cleared, unheard, log⟩
        refine ⟨?_, ?_, ?_⟩
        · rw [shared_eq]
          exact cleared
        · rw [shared_eq, State.current, effect.generation_eq]
          rw [show (target.coroutines state.generation).pc = _ from pc_eq]
          exact unheard
        · rw [State.current, effect.generation_eq, log_eq]
          exact log
      · exact absurd (notified.symm.trans unnotified) (by decide)
  | coroutine step =>
      obtain rfl := attended.index_eq step
      intro unnotified
      rw [step.terminateNotified_eq] at unnotified
      exact (silent unnotified).coroutineStep attended.sound step
  | client step =>
      intro unnotified
      rw [step.terminateNotified_eq] at unnotified
      have current_eq := step.current_eq
      rcases silent unnotified with ⟨cleared, unheard, log⟩
      rcases step.move.notifier with notifier_eq | ⟨event, different, notifier_eq⟩
      · refine ⟨?_, ?_, ?_⟩
        · rw [notifier_eq]
          exact cleared
        · rw [notifier_eq, current_eq]
          exact unheard
        · rw [current_eq]
          exact log
      · refine ⟨?_, ?_, ?_⟩
        · simp [notifier_eq, cleared, different.symm]
        · rw [notifier_eq, current_eq]
          exact unheard.notify cleared different
        · rw [current_eq]
          exact log

variable [DecidableEq Client]

/--
In every run with one coroutine at a time, each started while no `TERMINATE` flag
is left, `OnTerminate` is executed only if `AsyncTerminate` has been called since
that coroutine's `AsyncInit`.
-/
theorem onTerminate_only_if_called
    (reachable :
      (system User Message Client config).ReachableUnder RestartsCleared state)
    (invoked : state.onTerminateInvoked) : state.terminateCalled := by
  have silent : state.silentUntilNotified := by
    refine reachable.invariant ?_ ?_
    · rintro state rfl _
      refine ⟨hasState_zero .terminate, rfl, ?_⟩
      simp [State.create, State.current]
    · intro source action target earlier permitted taken silent
      have attended :=
        attended_of_reachable
          (earlier.mono fun _ _ permitted => permitted.restarts)
      exact silent.step attended (step_of_next taken) permitted
  left
  apply (requested_of_reachable reachable).notified
  by_contra unnotified
  rcases silent (by simpa using unnotified) with ⟨-, unheard, log⟩
  rcases invoked with recorded | terminating
  · exact log recorded
  · cases at_pc : state.current.pc <;>
      simp_all [Unheard, LoopPc.terminating]

end

instance (state : State Name User Message Client)
    (action : Action Name User Message Client) :
    Decidable (startsCleared state action) :=
  match action with
  | .asyncInit => inferInstanceAs (Decidable (hasState _ _ = false))
  | .run | .asyncTerminate | .controller => inferInstanceAs (Decidable True)
  | .coroutine _ _ | .call _ _ | .client _ => inferInstanceAs (Decidable True)

instance (state : State Name User Message Client)
    (action : Action Name User Message Client) :
    Decidable (RestartsCleared state action) :=
  decidable_of_iff (restartsEnded state action ∧ startsCleared state action)
    ⟨fun ⟨restarts, cleared⟩ => ⟨restarts, cleared⟩,
      fun permitted => ⟨permitted.restarts, permitted.cleared⟩⟩

/--
`OnProcess` ends the first run and no `TERMINATE` flag is left; the second run waits for
events, is asked to terminate and executes `OnTerminate`.
-/
theorem onTerminate_only_if_called_restarted :
    ∃ state : State ℕ ℕ ℕ Unit,
      (system ℕ ℕ Unit ⟨[0], [0], fun _ => 1⟩).ReachableUnder RestartsCleared
          state ∧
        state.generation = 2 ∧ state.onTerminateInvoked ∧ state.terminateCalled := by
  rcases TransitionSystem.exists_reachableUnder_of_run
      (system ℕ ℕ Unit ⟨[0], [0], fun _ => 1⟩) RestartsCleared rfl
      [beginRun 1, List.replicate 9 (.coroutine 1 .proceed),
        -- a subscriber and a message come, and `OnProcess` returns `kEND`
        [.call () (.subscribe 0 1), .client ()], List.replicate 7 (.coroutine 1 .proceed),
        [.call () (.send 0 5)], List.replicate 3 (.client ()),
        List.replicate 4 (.coroutine 1 .proceed),
        [.coroutine 1 (.processReturns .finish), .coroutine 1 .proceed,
          .coroutine 1 (.disposeReturns 0), .coroutine 1 .proceed],
        beginRun 2, List.replicate 7 (.coroutine 2 .proceed), [.asyncTerminate],
        List.replicate 3 .controller, [.coroutine 2 .proceed]].flatten
      (fun state => decide (state.generation = 2) && state.current.pc.terminating)
      (by decide +kernel) with ⟨state, reachable, facts⟩
  rw [Bool.and_eq_true, decide_eq_true_eq] at facts
  have invoked : state.onTerminateInvoked := .inr facts.2
  exact ⟨state, reachable, facts.1, invoked, onTerminate_only_if_called reachable invoked⟩

/--
The first run is terminated before `Run` and leaves its flag behind; the second
run executes `OnTerminate` as soon as it waits for subscribers.
-/
theorem onTerminate_after_restart :
    ¬ ∀ state : State ℕ ℕ ℕ Unit,
      (system ℕ ℕ Unit ⟨[0], [0], fun _ => 1⟩).ReachableUnder restartsEnded
          state →
        state.onTerminateInvoked → state.terminateCalled := by
  intro claim
  rcases TransitionSystem.exists_reachableUnder_of_run
      (system ℕ ℕ Unit ⟨[0], [0], fun _ => 1⟩) restartsEnded rfl
      [beginInit 1, [.asyncTerminate], List.replicate 6 .controller,
        [.coroutine 1 .proceed, .coroutine 1 .proceed, .coroutine 1 .proceed,
          .coroutine 1 (.disposeReturns 0), .coroutine 1 .proceed],
        beginRun 2, List.replicate 9 (.coroutine 2 .proceed)].flatten
      (fun state =>
        state.current.pc.terminating &&
          !(state.requested || state.controller.terminates))
      (by decide +kernel) with ⟨state, reachable, facts⟩
  rw [Bool.and_eq_true, Bool.not_eq_true', Bool.or_eq_false_iff] at facts
  rcases claim state reachable (.inr facts.1) with requested | terminates
  · exact absurd (facts.2.1.symm.trans requested) (by decide)
  · exact absurd (facts.2.2.symm.trans terminates) (by decide)

end AsyncRuntime.Kernel
