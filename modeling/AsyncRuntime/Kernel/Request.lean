import AsyncRuntime.Kernel.Step

/-!
# Termination requests

`AsyncTerminate` stores `kTERMINATED`, and after the yield `AsyncLoop` looks for
it before it stores `kRUNNING`.  Its first store has no such guard: a request
that arrives during `OnInit` is overwritten with `kINITIALIZED`, and the kernel
can be run afterwards.  In every run in which that store is not executed over a
request, the request stands until the next `AsyncInit`.
-/

namespace AsyncRuntime.Kernel

open AsyncRuntime.Foundation
open AsyncRuntime.Dataflow

universe u v w x

variable {Name : Type u} {User : Type v} {Message : Type w} {Client : Type x}

/--
No coroutine stores `kINITIALIZED` after `AsyncTerminate` has stored its
request.
-/
def requestsStand (state : State Name User Message Client) :
    Action Name User Message Client → Prop
  | .coroutine index _ =>
      state.pc index = .storeInitialized → state.requested = false
  | _ => True

instance [DecidableEq Name] (state : State Name User Message Client)
    (action : Action Name User Message Client) :
    Decidable (requestsStand state action) :=
  match action with
  | .coroutine index _ =>
      inferInstanceAs (Decidable
        (state.pc index = .storeInitialized → state.requested = false))
  | .asyncInit | .run | .asyncTerminate => inferInstanceAs (Decidable True)
  | .controller | .call _ _ | .client _ => inferInstanceAs (Decidable True)

/-- Some `AsyncTerminate` has returned since the last `AsyncInit`. -/
def State.terminateReturned (state : State Name User Message Client) : Prop :=
  ∃ future, (state.generation, future) ∈ state.returned

/-- A coroutine is suspended at its yield and waits to be run. -/
def State.waitsToRun (state : State Name User Message Client) : Prop :=
  state.shared.state = .initialized ∧
    ∃ index, state.pc index = .yielded ∨ state.pc index = .suspendedAtYield

/-- `Run` has found the kernel initialised. -/
def ControllerPc.runs : ControllerPc → Bool
  | .runCheck => true
  | .runStore => true
  | .runAsync => true
  | .runPost => true
  | _ => false

/-- The controller is inside `AsyncTerminate`. -/
def ControllerPc.terminates : ControllerPc → Bool
  | .terminateLoad => true
  | .terminateStore => true
  | .terminateNotify => true
  | .terminateLoadAgain => true
  | .terminateStoreInitialized => true
  | .terminateNotifyInitialized => true
  | .terminateAsync => true
  | .terminatePost => true
  | .terminateStoreOtherwise => true
  | _ => false

/-- `AsyncTerminate` has stored its request. -/
def ControllerPc.hasStored : ControllerPc → Bool
  | .terminateNotify => true
  | .terminateNotifyInitialized => true
  | .terminateAsync => true
  | .terminatePost => true
  | _ => false

/-- `AsyncTerminate` has been called since the last `AsyncInit`. -/
def State.terminateCalled (state : State Name User Message Client) : Prop :=
  state.requested = true ∨ state.controller.terminates = true

/-! ## `Notify` follows the request -/

/-- `AsyncTerminate` notifies only after it has stored its request. -/
structure Requested (state : State Name User Message Client) : Prop where
  notified : state.terminateNotified = true → state.requested = true
  stored : state.controller.hasStored = true → state.requested = true

section

variable {state target : State Name User Message Client}

theorem Requested.controllerMove {pc : ControllerPc}
    (requested : Requested state) (place : state.controller = pc)
    (move : ControllerMove state pc target) : Requested target := by
  rcases requested with ⟨notified, stored⟩
  rw [place] at stored
  constructor
  · cases move with
    | terminateStores => exact fun _ => rfl
    | terminateStoresInitialized => exact fun _ => rfl
    | terminateStoresOtherwise => exact fun _ => rfl
    | terminateNotifies => exact fun _ => stored rfl
    | terminateNotifiesInitialized => exact fun _ => stored rfl
    | _ => exact notified
  · cases move with
    | terminateStores => exact fun _ => rfl
    | terminateStoresInitialized => exact fun _ => rfl
    | terminateNotifiesInitialized => exact fun _ => stored rfl
    | terminateRenews => exact fun _ => stored rfl
    | _ => exact fun stores => Bool.noConfusion stores

variable [DecidableEq Name] [DecidableEq User] {config : Config Name}

theorem Requested.step {action : Action Name User Message Client}
    (requested : Requested state) (step : Step config state action target) :
    Requested target := by
  cases step with
  | asyncInit idle =>
      exact ⟨fun notified => Bool.noConfusion notified,
        fun stores => Bool.noConfusion stores⟩
  | run idle =>
      exact ⟨requested.notified, fun stores => Bool.noConfusion stores⟩
  | asyncTerminate idle =>
      exact ⟨requested.notified, fun stores => Bool.noConfusion stores⟩
  | controller move => exact requested.controllerMove rfl move
  | coroutine step =>
      constructor
      · rw [step.terminateNotified_eq, step.requested_eq]
        exact requested.notified
      · rw [step.controller_eq, step.requested_eq]
        exact requested.stored
  | client step =>
      constructor
      · rw [step.terminateNotified_eq, step.requested_eq]
        exact requested.notified
      · rw [step.controller_eq, step.requested_eq]
        exact requested.stored

variable [DecidableEq Client]

theorem requested_of_reachable
    {permitted : State Name User Message Client →
      Action Name User Message Client → Prop}
    (reachable :
      (system User Message Client config).ReachableUnder permitted state) :
    Requested state := by
  refine reachable.invariant ?_ ?_
  · rintro state rfl
    exact ⟨fun notified => Bool.noConfusion notified,
      fun stores => Bool.noConfusion stores⟩
  · intro source action target _ _ taken requested
    exact requested.step (step_of_next taken)

end

/-! ## Requests stand -/

/-- What a request and the place of the controller say about each other. -/
structure Requests (state : State Name User Message Client) : Prop where
  tags : ∀ entry, entry ∈ state.returned → entry.1 ≤ state.generation
  requested : state.terminateReturned → state.requested = true
  refused : state.controller.runs = true → state.requested = false
  cleared : state.controller.terminates = true → state.lastRun = none
  stored : state.controller.hasStored = true → state.requested = true
  state_ne : state.requested = true → state.shared.state ≠ .initialized
  lastRun_ne : state.requested = true → state.lastRun ≠ some true

section

variable {state target : State Name User Message Client}

/-- A step of another thread only changes the state of the kernel. -/
theorem Requests.of_frame (requests : Requests state)
    (returned_eq : target.returned = state.returned)
    (generation_eq : target.generation = state.generation)
    (requested_eq : target.requested = state.requested)
    (controller_eq : target.controller = state.controller)
    (lastRun_eq : target.lastRun = state.lastRun)
    (state_ne :
      state.requested = true → target.shared.state ≠ .initialized) :
    Requests target := by
  constructor
  · rw [returned_eq, generation_eq]
    exact requests.tags
  · rw [State.terminateReturned, returned_eq, generation_eq, requested_eq]
    exact requests.requested
  · rw [controller_eq, requested_eq]
    exact requests.refused
  · rw [controller_eq, lastRun_eq]
    exact requests.cleared
  · rw [controller_eq, requested_eq]
    exact requests.stored
  · rw [requested_eq]
    exact state_ne
  · rw [requested_eq, lastRun_eq]
    exact requests.lastRun_ne

theorem Requests.controllerMove {pc : ControllerPc} (requests : Requests state)
    (place : state.controller = pc) (move : ControllerMove state pc target) :
    Requests target := by
  rcases requests with
    ⟨tags, requested, refused, cleared, stored, state_ne, lastRun_ne⟩
  rw [place] at refused cleared stored
  have tags_cons (future : TerminateFuture) (entry : ℕ × TerminateFuture)
      (member : entry ∈ (state.generation, future) :: state.returned) :
      entry.1 ≤ state.generation := by
    rcases List.mem_cons.mp member with rfl | older
    · exact Nat.le_refl _
    · exact tags entry older
  constructor
  · cases move with
    | terminateNotifies => exact tags_cons _
    | terminatePosts => exact tags_cons _
    | terminateStoresOtherwise => exact tags_cons _
    | _ => exact tags
  · cases move with
    | terminateStores => exact fun _ => rfl
    | terminateStoresInitialized => exact fun _ => rfl
    | terminateStoresOtherwise => exact fun _ => rfl
    | terminateNotifies => exact fun _ => stored rfl
    | terminatePosts => exact fun _ => stored rfl
    | _ => exact requested
  · cases move with
    | runAccepted initialized =>
        intro _
        by_contra pending
        exact state_ne (by simpa using pending) initialized
    | runChecked suspended => exact fun _ => refused rfl
    | runStores => exact fun _ => refused rfl
    | runRenews => exact fun _ => refused rfl
    | _ => exact fun runs => Bool.noConfusion runs
  · cases move with
    | terminateRunning running => exact fun _ => cleared rfl
    | terminateOther other => exact fun _ => cleared rfl
    | terminateStores => exact fun _ => cleared rfl
    | terminateInitialized initialized => exact fun _ => cleared rfl
    | terminateNeither other => exact fun _ => cleared rfl
    | terminateStoresInitialized => exact fun _ => cleared rfl
    | terminateNotifiesInitialized => exact fun _ => cleared rfl
    | terminateRenews => exact fun _ => cleared rfl
    | _ => exact fun terminates => Bool.noConfusion terminates
  · cases move with
    | terminateStores => exact fun _ => rfl
    | terminateStoresInitialized => exact fun _ => rfl
    | terminateNotifiesInitialized => exact fun _ => stored rfl
    | terminateRenews => exact fun _ => stored rfl
    | _ => exact fun stores => Bool.noConfusion stores
  · cases move with
    | initStores => exact fun _ => KernelState.noConfusion
    | runStores => exact fun _ => KernelState.noConfusion
    | terminateStores => exact fun _ => KernelState.noConfusion
    | terminateStoresInitialized => exact fun _ => KernelState.noConfusion
    | terminateStoresOtherwise => exact fun _ => KernelState.noConfusion
    | _ => exact state_ne
  · cases move with
    | runRefused other => exact fun _ => by simp
    | runCompleted completed => exact fun _ => by simp
    | runPosts =>
        intro pending
        exact absurd ((refused rfl).symm.trans pending) (by decide)
    | terminateStores => exact fun _ => by simp [cleared rfl]
    | terminateStoresInitialized => exact fun _ => by simp [cleared rfl]
    | terminateStoresOtherwise => exact fun _ => by simp [cleared rfl]
    | _ => exact lastRun_ne

variable [DecidableEq Name] {config : Config Name}

/-- Only the store after `OnInit` makes the kernel initialised. -/
theorem Move.state_ne_initialized {kernel moved : Shared Name User Message Client}
    {pc after : LoopPc Name} {choice : Choice Name}
    (move : Move config kernel pc choice moved after)
    (other : kernel.state ≠ .initialized) (elsewhere : pc ≠ .storeInitialized) :
    moved.state ≠ .initialized := by
  rcases move.state_cases with
    same | terminated | ⟨storing, -, -⟩ | ⟨-, running⟩
  · rw [same]
    exact other
  · simp [terminated]
  · exact absurd storing elsewhere
  · simp [running]

variable [DecidableEq User]

theorem Requests.step {action : Action Name User Message Client}
    (requests : Requests state) (step : Step config state action target)
    (stands : requestsStand state action) : Requests target := by
  cases step with
  | asyncInit idle =>
      constructor
      · exact fun entry member =>
          Nat.le_succ_of_le (requests.tags entry member)
      · rintro ⟨future, member⟩
        exact absurd (requests.tags _ member) (Nat.not_succ_le_self _)
      · exact fun runs => Bool.noConfusion runs
      · exact fun terminates => Bool.noConfusion terminates
      · exact fun stores => Bool.noConfusion stores
      · exact fun pending => Bool.noConfusion pending
      · exact fun pending => Bool.noConfusion pending
  | run idle =>
      exact
        ⟨requests.tags, requests.requested, fun runs => Bool.noConfusion runs,
          fun _ => rfl, fun stores => Bool.noConfusion stores,
          requests.state_ne, fun _ => by simp⟩
  | asyncTerminate idle =>
      exact
        ⟨requests.tags, requests.requested, fun runs => Bool.noConfusion runs,
          fun _ => rfl, fun stores => Bool.noConfusion stores,
          requests.state_ne, fun _ => by simp⟩
  | controller move => exact requests.controllerMove rfl move
  | coroutine step =>
      apply requests.of_frame step.returned_eq step.generation_eq
        step.requested_eq step.controller_eq step.lastRun_eq
      intro pending
      apply step.move.state_ne_initialized (requests.state_ne pending)
      intro storing
      exact absurd ((stands storing).symm.trans pending) (by decide)
  | client step =>
      apply requests.of_frame step.returned_eq step.generation_eq
        step.requested_eq step.controller_eq step.lastRun_eq
      rw [step.move.state_eq]
      exact requests.state_ne

variable [DecidableEq Client]

/--
A termination request is not overwritten in any run in which no coroutine stores
`kINITIALIZED` over one: once `AsyncTerminate` has returned and until the next
`AsyncInit`, `Run` has not returned `true`, and no coroutine is suspended at its
yield with the kernel initialised.
-/
theorem request_stands
    (reachable :
      (system User Message Client config).ReachableUnder requestsStand state)
    (returned : state.terminateReturned) :
    state.lastRun ≠ some true ∧ ¬ state.waitsToRun := by
  have requests : Requests state := by
    refine reachable.invariant ?_ ?_
    · rintro state rfl
      constructor <;>
        simp [State.create, State.terminateReturned, ControllerPc.runs,
          ControllerPc.terminates, ControllerPc.hasStored]
    · intro source action target _ stands taken requests
      exact requests.step (step_of_next taken) stands
  have pending := requests.requested returned
  constructor
  · exact requests.lastRun_ne pending
  · intro waits
    exact requests.state_ne pending waits.1

end

/-- `AsyncTerminate` during a run, and the coroutine stops as requested. -/
theorem request_stands_terminated :
    ∃ state : State ℕ ℕ ℕ Unit,
      (system ℕ ℕ Unit ⟨[0], [0], fun _ => 1⟩).ReachableUnder requestsStand
          state ∧
        state.terminateReturned ∧ state.lastRun ≠ some true ∧
        ¬ state.waitsToRun := by
  rcases TransitionSystem.exists_reachableUnder_of_run
      (system ℕ ℕ Unit ⟨[0], [0], fun _ => 1⟩) requestsStand rfl
      [beginRun 1, [.asyncTerminate], List.replicate 3 .controller,
        [.run, .controller]].flatten
      (fun state =>
        decide (((state.generation, .shared (some 3)) :
          ℕ × TerminateFuture) ∈ state.returned) &&
          decide (state.lastRun = some false))
      (by decide +kernel) with ⟨state, reachable, facts⟩
  rw [Bool.and_eq_true, decide_eq_true_eq, decide_eq_true_eq] at facts
  have returned : state.terminateReturned := ⟨_, facts.1⟩
  exact ⟨state, reachable, returned, request_stands reachable returned⟩

/--
`AsyncTerminate` is called while `OnInit` runs and returns; the coroutine then
stores `kINITIALIZED`, and `Run` returns `true`.
-/
theorem request_overwritten :
    ¬ ∀ state : State ℕ ℕ ℕ Unit,
      (system ℕ ℕ Unit ⟨[0], [0], fun _ => 1⟩).Reachable state →
        state.terminateReturned →
          state.lastRun ≠ some true ∧ ¬ state.waitsToRun := by
  intro claim
  rcases TransitionSystem.exists_reachableUnder_of_run
      (system ℕ ℕ Unit ⟨[0], [0], fun _ => 1⟩) (fun _ _ => True) rfl
      [[.asyncInit, .controller, .controller, .controller,
          .coroutine 1 .proceed, .asyncTerminate, .controller, .controller,
          .controller, .coroutine 1 (.initReturns 0)],
        List.replicate 3 (.coroutine 1 .proceed), [.run],
        List.replicate 5 .controller].flatten
      (fun state =>
        decide (((state.generation, .resolved) : ℕ × TerminateFuture) ∈
          state.returned) && decide (state.lastRun = some true))
      (by decide +kernel) with ⟨state, reachable, facts⟩
  rw [Bool.and_eq_true, decide_eq_true_eq, decide_eq_true_eq] at facts
  exact (claim state reachable ⟨_, facts.1⟩).1 facts.2

end AsyncRuntime.Kernel
