import AsyncRuntime.Kernel.Attention
import AsyncRuntime.Kernel.Request

/-!
# From `AsyncInit` to the update loop

The yield of `AsyncLoop` resolves the future of `AsyncInit` in the context of the
worker, before the worker has written the continuation back.  A controller that
waits for the future and calls `Run` in that window finds a coroutine without a
continuation, takes it for completed, and `Run` returns `false`.  In every run in
which `is_completed` is not evaluated in that window, `Run` returns `true` and
the coroutine goes on into its loop.
-/

namespace AsyncRuntime.Kernel

open AsyncRuntime.Foundation
open AsyncRuntime.Dataflow

universe u v w x

variable {Name : Type u} {User : Type v} {Message : Type w} {Client : Type x}

/--
`Run` is called after the future of `AsyncInit` has the value zero, and no other
call has been made since that `AsyncInit`.
-/
def runsInitialised (state : State Name User Message Client) :
    Action Name User Message Client → Prop
  | .run =>
      state.requested = false ∧ state.lastRun = none ∧
        state.promises state.current.promise = some (.value 0)
  | _ => True

/-- The controller waits for `AsyncInit`, and restarts only what has ended. -/
structure Waits (state : State Name User Message Client)
    (action : Action Name User Message Client) : Prop where
  restarts : restartsEnded state action
  runs : runsInitialised state action

/--
`Run` does not evaluate `is_completed` between the yield and the moment at which
the worker writes the continuation back.
-/
def checksSuspended (state : State Name User Message Client) :
    Action Name User Message Client → Prop
  | .controller =>
      state.controller = .runCheck → state.current.pc ≠ .yielded
  | _ => True

/-- The waiting controllers that do not look into the window. -/
structure WaitsSuspended (state : State Name User Message Client)
    (action : Action Name User Message Client) : Prop extends
    Waits state action where
  checks : checksSuspended state action

/-- Places from the yield to the first test of the first `OnUpdate`. -/
def LoopPc.entering : LoopPc Name → Bool
  | .suspendedAtYield => true
  | .checkTerminated => true
  | .storeRunning => true
  | .loopTest => true
  | .subscribersEmpty caller => decide (caller = .update)
  | _ => false

/--
The coroutine is on its way into its loop, with a task that resumes it while it
is suspended, or it has been there.
-/
def State.entersLoop (state : State Name User Message Client) : Prop :=
  .onUpdate ∈ state.current.log ∨
    state.shared.state = .running ∧ state.current.pc.entering = true ∧
      (state.current.pc = .suspendedAtYield → state.current.tasks ≠ 0)

/-- How many steps a call of `Run` takes at most until it returns. -/
def ControllerPc.remaining : ControllerPc → ℕ
  | .runLoad => 5
  | .runCheck => 4
  | .runStore => 3
  | .runAsync => 2
  | .runPost => 1
  | _ => 0

/--
Every step of `Run` can be taken and brings it closer to its end, it has not
returned `false`, and once it has returned `true` the coroutine enters its loop.
-/
structure State.runSucceeds (state : State Name User Message Client) : Prop where
  returns :
    0 < state.controller.remaining →
      ∃ target, controllerStep state = some target ∧
        target.controller.remaining < state.controller.remaining
  never_false : state.lastRun ≠ some false
  enters : state.lastRun = some true → state.entersLoop

/-- `Run` waits for nobody. -/
theorem exists_controllerStep {state : State Name User Message Client}
    (running : 0 < state.controller.remaining) :
    ∃ target, controllerStep state = some target ∧
      target.controller.remaining < state.controller.remaining := by
  unfold controllerStep
  cases place : state.controller with
  | runLoad =>
      by_cases initialized : state.shared.state = .initialized <;>
        simp [initialized, ControllerPc.remaining]
  | runCheck =>
      by_cases completed : state.current.isCompleted = true <;>
        simp [completed, ControllerPc.remaining]
  | runStore => simp [ControllerPc.remaining]
  | runAsync => simp [ControllerPc.remaining]
  | runPost => simp [ControllerPc.remaining]
  | _ => simp [place, ControllerPc.remaining] at running

/-! ## Names of promises -/

/-- Every coroutine has a promise that was made, and no other is satisfied. -/
structure Numbered (state : State Name User Message Client) : Prop where
  allocated :
    ∀ index, (state.coroutines index).promise < state.promiseCount
  fresh : ∀ name, state.promiseCount ≤ name → state.promises name = none

section

variable {state target : State Name User Message Client}

theorem Numbered.controllerMove {pc : ControllerPc} (numbered : Numbered state)
    (move : ControllerMove state pc target) : Numbered target := by
  rcases numbered with ⟨allocated, fresh⟩
  have renewed (index : ℕ) :
      (state.initPromise.coroutines index).promise < state.promiseCount + 1 := by
    by_cases here : index = state.generation
    · simp [here]
    · simpa [here] using Nat.lt_succ_of_lt (allocated index)
  have posted (index : ℕ) :
      (state.post.coroutines index).promise < state.promiseCount := by
    by_cases here : index = state.generation
    · simpa [here, State.current] using allocated state.generation
    · simpa [here] using allocated index
  have later (name : ℕ) (above : state.promiseCount + 1 ≤ name) :
      state.promises name = none := fresh name (Nat.le_of_succ_le above)
  cases move with
  | initRenews => exact ⟨renewed, later⟩
  | runRenews => exact ⟨renewed, later⟩
  | terminateRenews => exact ⟨renewed, later⟩
  | initPosts => exact ⟨posted, fresh⟩
  | runPosts => exact ⟨posted, fresh⟩
  | terminatePosts => exact ⟨posted, fresh⟩
  | _ => exact ⟨allocated, fresh⟩

variable [DecidableEq Name] {config : Config Name}

theorem Numbered.coroutineStep {index : ℕ} {choice : Choice Name}
    (numbered : Numbered state)
    (step : CoroutineStep config state target index choice) :
    Numbered target := by
  constructor
  · intro other
    rw [step.promiseCount_eq]
    by_cases here : other = index
    · rw [here, step.promise_eq]
      exact numbered.allocated index
    · rw [step.others other here]
      exact numbered.allocated other
  · intro name above
    rw [step.promiseCount_eq] at above
    have different : name ≠ (state.coroutines index).promise := by
      have below := numbered.allocated index
      omega
    rw [step.promises_eq name (.inl different)]
    exact numbered.fresh name above

variable [DecidableEq User]

theorem Numbered.step {action : Action Name User Message Client}
    (numbered : Numbered state) (step : Step config state action target) :
    Numbered target := by
  cases step with
  | asyncInit idle =>
      constructor
      · intro index
        by_cases here : index = state.generation + 1
        · simp [here]
        · simpa [here] using Nat.lt_succ_of_lt (numbered.allocated index)
      · exact fun name above => numbered.fresh name (Nat.le_of_succ_le above)
  | run idle => exact ⟨numbered.allocated, numbered.fresh⟩
  | asyncTerminate idle => exact ⟨numbered.allocated, numbered.fresh⟩
  | controller move => exact numbered.controllerMove move
  | coroutine step => exact numbered.coroutineStep step
  | client step =>
      constructor
      · rw [step.coroutines_eq, step.promiseCount_eq]
        exact numbered.allocated
      · rw [step.promiseCount_eq, step.promises_eq]
        exact numbered.fresh

variable [DecidableEq Client]

theorem numbered_of_reachable
    {permitted : State Name User Message Client →
      Action Name User Message Client → Prop}
    (reachable :
      (system User Message Client config).ReachableUnder permitted state) :
    Numbered state := by
  refine reachable.invariant ?_ ?_
  · rintro state rfl
    exact ⟨fun _ => Nat.zero_lt_one, fun _ _ => rfl⟩
  · intro source action target _ _ taken numbered
    exact numbered.step (step_of_next taken)

end

/-! ## Phases of a start -/

/--
Places of a coroutine that nobody has resumed yet, the state of the kernel there
and the outcome of its promise.
-/
def Initialising (stored : KernelState) (outcome : Option Outcome) :
    LoopPc Name → Prop
  | .created => outcome = none
  | .onInit => outcome = none
  | .initFailedDispose error => outcome = none ∧ error ≠ 0
  | .initFailedStore error => outcome = none ∧ error ≠ 0
  | .storeInitialized => outcome = none
  | .yield => outcome = none ∧ stored = .initialized
  | .yielded => stored = .initialized
  | .suspendedAtYield => stored = .initialized
  | .catchStore => outcome = none
  | .catchDispose => outcome = none
  | .resolve result => outcome = none ∧ result ≠ .value 0
  | .finished => outcome ≠ some (.value 0)
  | .escape => outcome = none
  | .escaped => outcome ≠ some (.value 0)
  | _ => False

/-- Nobody has called `Run` or `AsyncTerminate` since the last `AsyncInit`. -/
structure Initialises (state : State Name User Message Client) : Prop where
  place :
    Initialising state.shared.state (state.promises state.current.promise)
      state.current.pc
  controller :
    state.controller = .idle ∨
      state.controller.initialises = true ∧ state.current.pc = .created ∧
        state.current.tasks = 0
  tasks_le : state.current.tasks ≤ 1
  tasks : state.current.pc ≠ .created → state.current.tasks = 0
  requested : state.requested = false
  lastRun : state.lastRun = none

/-- Where the coroutine is while the controller executes `Run`. -/
def Running (stored : KernelState) (pc : LoopPc Name) : ControllerPc → Prop
  | .runLoad => stored = .initialized ∧ (pc = .yielded ∨ pc = .suspendedAtYield)
  | .runCheck => stored = .initialized ∧ (pc = .yielded ∨ pc = .suspendedAtYield)
  | .runStore => stored = .initialized ∧ pc = .suspendedAtYield
  | .runAsync => stored = .running ∧ pc = .suspendedAtYield
  | .runPost => stored = .running ∧ pc = .suspendedAtYield
  | _ => False

/-- The controller is inside `Run`. -/
structure Runs (state : State Name User Message Client) : Prop where
  place : Running state.shared.state state.current.pc state.controller
  tasks : state.current.tasks = 0
  lastRun : state.lastRun = none

/-- `Run` has returned, and nobody has called anything since. -/
structure Ran (state : State Name User Message Client) : Prop where
  controller : state.controller = .idle
  lastRun : state.lastRun = some true
  enters : state.entersLoop

/-- `AsyncTerminate` has been called. -/
structure Terminated (state : State Name User Message Client) : Prop where
  called :
    state.controller.terminates = true ∨
      state.controller = .idle ∧ state.requested = true
  lastRun : state.lastRun = none

/-- The phases of a coroutine as its controller sees them. -/
inductive Phase (state : State Name User Message Client) : Prop where
  | initialises (initialises : Initialises state)
  | runs (runs : Runs state)
  | ran (ran : Ran state)
  | terminated (terminated : Terminated state)

theorem Phase.runSucceeds {state : State Name User Message Client}
    (phase : Phase state) : state.runSucceeds := by
  refine ⟨exists_controllerStep, ?_, ?_⟩
  · cases phase with
    | initialises initialises => simp [initialises.lastRun]
    | runs runs => simp [runs.lastRun]
    | ran ran => simp [ran.lastRun]
    | terminated terminated => simp [terminated.lastRun]
  · cases phase with
    | initialises initialises => simp [initialises.lastRun]
    | runs runs => simp [runs.lastRun]
    | ran ran => exact fun _ => ran.enters
    | terminated terminated => simp [terminated.lastRun]

section

variable {state target : State Name User Message Client}

theorem Phase.asyncInit (numbered : Numbered state) :
    Phase (state.makeCoroutine.setController .initStore) := by
  have created :
      (state.makeCoroutine.setController .initStore).current =
        { pc := .created, promise := state.promiseCount, tasks := 0,
          log := [] } := by
    simp [State.current]
  refine .initialises ⟨?_, .inr ⟨rfl, ?_, ?_⟩, ?_, ?_, rfl, rfl⟩
  · rw [created]
    exact numbered.fresh _ (Nat.le_refl _)
  · rw [created]
  · rw [created]
  · rw [created]
    exact Nat.zero_le 1
  · rw [created]
    exact fun _ => rfl

/-- The controller finds the future of `AsyncInit` with the value zero. -/
theorem Phase.run (phase : Phase state) (idle : state.controller = .idle)
    (initialised : runsInitialised state .run) :
    Phase (state.beginCall .runLoad) := by
  rcases initialised with ⟨unrequested, unrun, zero⟩
  cases phase with
  | initialises initialises =>
      have place := initialises.place
      rw [zero] at place
      have yielded :
          state.shared.state = .initialized ∧
            (state.current.pc = .yielded ∨
              state.current.pc = .suspendedAtYield) := by
        cases at_pc : state.current.pc <;>
          simp_all [Initialising]
      have tasks : state.current.tasks = 0 := by
        apply initialises.tasks
        rcases yielded.2 with at_pc | at_pc <;> simp [at_pc]
      exact .runs ⟨yielded, tasks, rfl⟩
  | runs runs =>
      have place := runs.place
      rw [idle] at place
      exact place.elim
  | ran ran => exact absurd (unrun.symm.trans ran.lastRun) (by decide)
  | terminated terminated =>
      rcases terminated.called with inside | ⟨-, requested⟩
      · rw [idle] at inside
        exact Bool.noConfusion inside
      · exact absurd (unrequested.symm.trans requested) (by decide)

theorem Initialises.controllerMove {pc : ControllerPc}
    (initialises : Initialises state) (numbered : Numbered state)
    (place : state.controller = pc) (move : ControllerMove state pc target) :
    Phase target := by
  have inside := initialises.controller
  rw [place] at inside
  have created (busy : pc ≠ .idle) :
      state.current.pc = .created ∧ state.current.tasks = 0 := by
    rcases inside with idle | ⟨-, created⟩
    · exact absurd idle busy
    · exact created
  cases move with
  | initStores =>
      have here := created (by decide)
      have unresolved := initialises.place
      rw [here.1] at unresolved
      refine .initialises
        ⟨?_, .inr ⟨rfl, here⟩, initialises.tasks_le, initialises.tasks,
          initialises.requested, initialises.lastRun⟩
      simpa [here.1, Initialising] using unresolved
  | initRenews =>
      have here := created (by decide)
      refine .initialises ⟨?_, .inr ⟨rfl, ?_, ?_⟩, ?_, ?_, ?_, ?_⟩
      · simpa [here.1, Initialising] using numbered.fresh _ (Nat.le_refl _)
      · simp [here.1]
      · simp [here.2]
      · simp [here.2]
      · simp [here.2]
      · exact initialises.requested
      · exact initialises.lastRun
  | initPosts =>
      have here := created (by decide)
      refine .initialises ⟨?_, .inl rfl, ?_, ?_, ?_, ?_⟩
      · simpa using initialises.place
      · simp [here.2]
      · simp [here.1]
      · exact initialises.requested
      · exact initialises.lastRun
  | _ => simp [ControllerPc.initialises] at inside

theorem Runs.controllerMove {pc : ControllerPc} (runs : Runs state)
    (place : state.controller = pc) (move : ControllerMove state pc target)
    (checks : checksSuspended state .controller) : Phase target := by
  rcases runs with ⟨running, tasks, lastRun⟩
  rw [place] at running
  cases move with
  | runRefused other => exact absurd running.1 other
  | runAccepted initialized => exact .runs ⟨running, tasks, lastRun⟩
  | runCompleted completed =>
      -- outside the window the coroutine has its continuation
      rcases running.2 with yielded | suspended
      · exact absurd yielded (checks place)
      · simp [Coroutine.isCompleted, suspended] at completed
  | runChecked suspended =>
      refine .runs ⟨⟨running.1, ?_⟩, tasks, lastRun⟩
      exact running.2.resolve_left (checks place)
  | runStores => exact .runs ⟨⟨rfl, running.2⟩, tasks, lastRun⟩
  | runRenews => exact .runs ⟨by simpa [Running] using running, by simpa, lastRun⟩
  | runPosts =>
      refine .ran ⟨rfl, rfl, .inr ⟨running.1, ?_, ?_⟩⟩
      · simp [running.2, LoopPc.entering]
      · simp
  | _ => exact running.elim

theorem Terminated.controllerMove {pc : ControllerPc}
    (terminated : Terminated state) (requested : Requested state)
    (place : state.controller = pc) (move : ControllerMove state pc target) :
    Phase target := by
  rcases terminated with ⟨called, lastRun⟩
  have stored := requested.stored
  rw [place] at stored called
  have inside (busy : pc ≠ .idle) : pc.terminates = true := by
    rcases called with inside | ⟨idle, -⟩
    · exact inside
    · exact absurd idle busy
  have goes_on {pc : ControllerPc} (inside : pc.terminates = true)
      (controller_eq : target.controller = pc)
      (lastRun_eq : target.lastRun = state.lastRun) : Phase target :=
    .terminated ⟨.inl (by rw [controller_eq, inside]), lastRun_eq.trans lastRun⟩
  cases move with
  | terminateRunning running => exact goes_on rfl rfl rfl
  | terminateOther other => exact goes_on rfl rfl rfl
  | terminateStores => exact goes_on rfl rfl rfl
  | terminateInitialized initialized => exact goes_on rfl rfl rfl
  | terminateNeither other => exact goes_on rfl rfl rfl
  | terminateStoresInitialized => exact goes_on rfl rfl rfl
  | terminateNotifiesInitialized => exact goes_on rfl rfl rfl
  | terminateRenews => exact goes_on rfl rfl rfl
  | terminateNotifies => exact .terminated ⟨.inr ⟨rfl, stored rfl⟩, lastRun⟩
  | terminatePosts => exact .terminated ⟨.inr ⟨rfl, stored rfl⟩, lastRun⟩
  | terminateStoresOtherwise => exact .terminated ⟨.inr ⟨rfl, rfl⟩, lastRun⟩
  | _ => exact Bool.noConfusion (inside (by decide))

theorem Phase.controllerMove (phase : Phase state) (numbered : Numbered state)
    (requested : Requested state)
    (move : ControllerMove state state.controller target)
    (checks : checksSuspended state .controller) : Phase target := by
  cases phase with
  | initialises initialises => exact initialises.controllerMove numbered rfl move
  | runs runs => exact runs.controllerMove rfl move checks
  | ran ran =>
      rw [ran.controller] at move
      cases move
  | terminated terminated => exact terminated.controllerMove requested rfl move

end

/-! ## The coroutine -/

section

variable {pc : LoopPc Name} {stored : KernelState}

theorem unresolved_of_outcome {before : Option Outcome} {outcome : Outcome}
    (initialising : Initialising stored before pc)
    (settles : pc.outcome = some outcome) : before = none := by
  cases pc with
  | yield => exact initialising.1
  | resolve result => exact initialising.1
  | escape => exact initialising
  | _ => cases settles

theorem settles_eq_false_of_outcome (settles : pc.outcome = none) :
    pc.settles = false := by
  cases pc <;> first | rfl | cases settles

/-- The coroutine moves during `Run` only in the window. -/
theorem Running.yielded_of_unparked {controller : ControllerPc}
    (running : Running stored pc controller) (unparked : pc.parked = false) :
    pc = .yielded ∧ stored = .initialized ∧
      (controller = .runLoad ∨ controller = .runCheck) := by
  have yielded (place : pc = .yielded ∨ pc = .suspendedAtYield) :
      pc = .yielded := by
    rcases place with yielded | suspended
    · exact yielded
    · rw [suspended] at unparked
      exact Bool.noConfusion unparked
  have unsuspended (suspended : pc = .suspendedAtYield) : False := by
    rw [suspended] at unparked
    exact Bool.noConfusion unparked
  cases controller with
  | runLoad => exact ⟨yielded running.2, running.1, .inl rfl⟩
  | runCheck => exact ⟨yielded running.2, running.1, .inr rfl⟩
  | runStore => exact (unsuspended running.2).elim
  | runAsync => exact (unsuspended running.2).elim
  | runPost => exact (unsuspended running.2).elim
  | _ => exact running.elim

end

section

variable [DecidableEq Name] {config : Config Name} {choice : Choice Name}
variable {kernel moved : Shared Name User Message Client}
variable {pc after : LoopPc Name}

/-- A coroutine that starts comes to its yield, or ends with another outcome. -/
theorem Move.initialising {outcome : Option Outcome}
    (move : Move config kernel pc choice moved after)
    (initialising : Initialising kernel.state outcome pc)
    (unparked : pc ≠ .suspendedAtYield) (unsettled : pc.settles = false) :
    Initialising moved.state outcome after := by
  have thrown (unresolved : outcome = none) (standard : Bool) :
      Initialising kernel.state outcome (unwind standard : LoopPc Name) := by
    cases standard <;> exact unresolved
  cases move with
  | starts => exact initialising
  | initSucceeds => exact initialising
  | initFails failed => exact ⟨initialising, failed⟩
  | initThrows standard => exact thrown initialising standard
  | initFailedDisposes error code => exact initialising
  | initFailedThrows error standard => exact thrown initialising.1 standard
  | initFailedStores error =>
      exact ⟨initialising.1, by simpa using initialising.2⟩
  | storesInitialized => exact ⟨initialising, rfl⟩
  | suspends => exact initialising
  | resumes => exact absurd rfl unparked
  | catchStores => exact initialising
  | catchDisposes code => exact ⟨initialising, by simp⟩
  | catchThrows standard => exact initialising
  | yields => exact Bool.noConfusion unsettled
  | resolves outcome => exact Bool.noConfusion unsettled
  | escapes => exact Bool.noConfusion unsettled
  | _ => exact initialising.elim

theorem Move.of_yielded (move : Move config kernel .yielded choice moved after) :
    moved = kernel ∧ after = .suspendedAtYield := by
  cases move
  exact ⟨rfl, rfl⟩

theorem Move.initialising_of_outcome {outcome : Outcome}
    (move : Move config kernel pc choice moved after)
    (initialising : Initialising kernel.state none pc)
    (settles : pc.outcome = some outcome) :
    Initialising moved.state (some outcome) after := by
  cases move with
  | yields => exact initialising.2
  | resolves result =>
      cases settles
      simpa [Initialising] using initialising.2
  | escapes =>
      cases settles
      simp [Initialising]
  | _ => cases settles

/-- The coroutine goes on towards its first `OnUpdate`. -/
theorem Move.entering (move : Move config kernel pc choice moved after)
    (entering : pc.entering = true) (running : kernel.state = .running) :
    .onUpdate ∈ pc.hook ∨
      moved.state = .running ∧ after.entering = true ∧
        after ≠ .suspendedAtYield := by
  cases move with
  | resumes => exact .inr ⟨running, rfl, by simp⟩
  | skipsLoop terminated => exact absurd (running.symm.trans terminated) (by decide)
  | entersLoop alive => exact .inr ⟨running, rfl, by simp⟩
  | storesRunning => exact .inr ⟨rfl, rfl, by simp⟩
  | leavesLoop terminated =>
      exact absurd (running.symm.trans terminated) (by decide)
  | updates alive => exact .inr ⟨running, rfl, by simp⟩
  | findsNobody caller free nobody =>
      left
      rw [of_decide_eq_true entering]
      simp [LoopPc.hook]
  | findsSubscribers caller free =>
      left
      rw [of_decide_eq_true entering]
      simp [LoopPc.hook]
  | _ => exact Bool.noConfusion entering

variable {state target : State Name User Message Client}

theorem Initialises.coroutineStep (initialises : Initialises state)
    (step : CoroutineStep config state target state.generation choice) :
    Initialises target := by
  have current_eq := step.current_eq
  have move := step.move_current
  have promise_eq : target.current.promise = state.current.promise := by
    rw [current_eq]
    exact step.promise_eq
  have idle : state.controller = .idle := by
    rcases initialises.controller with idle | ⟨-, created, tasks⟩
    · exact idle
    · have unparked := step.unparked tasks
      rw [created] at unparked
      exact Bool.noConfusion unparked
  have tasks : target.current.tasks = 0 := by
    rw [current_eq, step.tasks_eq]
    by_cases created : state.current.pc = .created
    · rw [show state.pc state.generation = .created from created]
      exact Nat.sub_eq_zero_of_le initialises.tasks_le
    · have none_left := initialises.tasks created
      have same : (state.coroutines state.generation).tasks = 0 := none_left
      split <;> simp [same]
  refine ⟨?_, ?_, ?_, fun _ => tasks, ?_, ?_⟩
  · rw [promise_eq]
    have place := initialises.place
    cases settles : state.current.pc.outcome with
    | none =>
        have unsettled := settles_eq_false_of_outcome settles
        rw [step.promises_eq _ (.inr unsettled)]
        refine move.initialising place ?_ unsettled
        intro suspended
        have unparked := step.unparked (initialises.tasks (by simp [suspended]))
        rw [suspended] at unparked
        exact Bool.noConfusion unparked
    | some outcome =>
        have unresolved := unresolved_of_outcome place settles
        rw [show target.promises state.current.promise = some outcome from
          step.outcome_eq outcome settles unresolved]
        rw [unresolved] at place
        exact move.initialising_of_outcome place settles
  · rw [step.controller_eq]
    exact .inl idle
  · omega
  · rw [step.requested_eq]
    exact initialises.requested
  · rw [step.lastRun_eq]
    exact initialises.lastRun

theorem Runs.coroutineStep (runs : Runs state)
    (step : CoroutineStep config state target state.generation choice) :
    Runs target := by
  have unparked := step.unparked runs.tasks
  rcases runs.place.yielded_of_unparked unparked with
    ⟨at_yielded, initialized, controller_eq⟩
  have move := step.move_current
  rw [at_yielded] at move
  rcases move.of_yielded with ⟨shared_eq, suspended⟩
  refine ⟨?_, ?_, ?_⟩
  · rw [step.controller_eq, shared_eq, suspended]
    rcases controller_eq with loads | checks
    · rw [loads]
      exact ⟨initialized, .inr rfl⟩
    · rw [checks]
      exact ⟨initialized, .inr rfl⟩
  · rw [step.current_eq, step.tasks_eq,
      show (state.pc state.generation).parked = false from unparked]
    exact runs.tasks
  · rw [step.lastRun_eq]
    exact runs.lastRun

theorem State.entersLoop.coroutineStep (enters : state.entersLoop)
    (step : CoroutineStep config state target state.generation choice) :
    target.entersLoop := by
  have log_eq : target.current.log =
      state.current.pc.hook ++ state.current.log := by
    rw [step.current_eq]
    exact step.log_eq
  rcases enters with updated | ⟨running, entering, -⟩
  · left
    rw [log_eq]
    exact List.mem_append_right _ updated
  · rcases step.move_current.entering entering running with
      updates | ⟨still_running, still_entering, resumed⟩
    · left
      rw [log_eq]
      exact List.mem_append_left _ updates
    · exact .inr
        ⟨still_running, still_entering, fun again => absurd again resumed⟩

theorem Phase.coroutineStep (phase : Phase state)
    (step : CoroutineStep config state target state.generation choice) :
    Phase target := by
  cases phase with
  | initialises initialises => exact .initialises (initialises.coroutineStep step)
  | runs runs => exact .runs (runs.coroutineStep step)
  | ran ran =>
      refine .ran ⟨?_, ?_, ran.enters.coroutineStep step⟩
      · rw [step.controller_eq]
        exact ran.controller
      · rw [step.lastRun_eq]
        exact ran.lastRun
  | terminated terminated =>
      refine .terminated ⟨?_, ?_⟩
      · rw [step.controller_eq, step.requested_eq]
        exact terminated.called
      · rw [step.lastRun_eq]
        exact terminated.lastRun

variable [DecidableEq User] {client : Client}

/-- A client does not see the start. -/
theorem Phase.clientStep (phase : Phase state)
    (step : ClientStep config state target client) : Phase target := by
  have current_eq := step.current_eq
  have state_eq := step.move.state_eq
  cases phase with
  | initialises initialises =>
      rcases initialises with ⟨place, inside, le, tasks, requested, lastRun⟩
      refine .initialises ⟨?_, ?_, ?_, ?_, ?_, ?_⟩ <;>
        simpa [current_eq, state_eq, step.controller_eq, step.promises_eq,
          step.requested_eq, step.lastRun_eq]
  | runs runs =>
      rcases runs with ⟨place, tasks, lastRun⟩
      refine .runs ⟨?_, ?_, ?_⟩ <;>
        simpa [current_eq, state_eq, step.controller_eq, step.lastRun_eq]
  | ran ran =>
      rcases ran with ⟨inside, lastRun, enters⟩
      refine .ran ⟨?_, ?_, ?_⟩
      · rw [step.controller_eq]
        exact inside
      · rw [step.lastRun_eq]
        exact lastRun
      · rw [State.entersLoop, current_eq, state_eq]
        exact enters
  | terminated terminated =>
      rcases terminated with ⟨called, lastRun⟩
      refine .terminated ⟨?_, ?_⟩
      · rw [step.controller_eq, step.requested_eq]
        exact called
      · rw [step.lastRun_eq]
        exact lastRun

theorem Phase.step {action : Action Name User Message Client}
    (phase : Phase state) (attended : Attended state) (numbered : Numbered state)
    (requested : Requested state) (step : Step config state action target)
    (permitted : WaitsSuspended state action) : Phase target := by
  cases step with
  | asyncInit idle => exact .asyncInit numbered
  | run idle => exact phase.run idle permitted.runs
  | asyncTerminate idle => exact .terminated ⟨.inl rfl, rfl⟩
  | controller move =>
      exact phase.controllerMove numbered requested move permitted.checks
  | coroutine step =>
      obtain rfl := attended.index_eq step
      exact phase.coroutineStep step
  | client step => exact phase.clientStep step

variable [DecidableEq Client]

/--
In every run in which the controller calls `Run` after the future of `AsyncInit`
has the value zero, without another call in between, and does not evaluate
`is_completed` before the continuation is written back: `Run` does not return
`false`, and once it has returned `true` the coroutine is on its way into its
loop or has been there.
-/
theorem run_succeeds
    (reachable :
      (system User Message Client config).ReachableUnder WaitsSuspended state) :
    state.runSucceeds := by
  have phase : Phase state := by
    refine reachable.invariant ?_ ?_
    · rintro state rfl
      refine .initialises ⟨?_, .inl rfl, Nat.zero_le 1, fun _ => rfl, rfl, rfl⟩
      simp [State.create, State.current, Initialising]
    · intro source action target earlier permitted taken phase
      have attended :=
        attended_of_reachable
          (earlier.mono fun _ _ permitted => permitted.restarts)
      exact phase.step attended (numbered_of_reachable earlier)
        (requested_of_reachable earlier) (step_of_next taken) permitted
  exact phase.runSucceeds

end

instance (state : State Name User Message Client)
    (action : Action Name User Message Client) :
    Decidable (runsInitialised state action) :=
  match action with
  | .run =>
      inferInstanceAs (Decidable
        (state.requested = false ∧ state.lastRun = none ∧
          state.promises state.current.promise = some (.value 0)))
  | .asyncInit | .asyncTerminate | .controller => inferInstanceAs (Decidable True)
  | .coroutine _ _ | .call _ _ | .client _ => inferInstanceAs (Decidable True)

instance (state : State Name User Message Client)
    (action : Action Name User Message Client) :
    Decidable (Waits state action) :=
  decidable_of_iff (restartsEnded state action ∧ runsInitialised state action)
    ⟨fun ⟨restarts, runs⟩ => ⟨restarts, runs⟩,
      fun waits => ⟨waits.restarts, waits.runs⟩⟩

instance [DecidableEq Name] (state : State Name User Message Client)
    (action : Action Name User Message Client) :
    Decidable (checksSuspended state action) :=
  match action with
  | .controller =>
      inferInstanceAs (Decidable
        (state.controller = .runCheck → state.current.pc ≠ .yielded))
  | .asyncInit | .run | .asyncTerminate => inferInstanceAs (Decidable True)
  | .coroutine _ _ | .call _ _ | .client _ => inferInstanceAs (Decidable True)

instance [DecidableEq Name] (state : State Name User Message Client)
    (action : Action Name User Message Client) :
    Decidable (WaitsSuspended state action) :=
  decidable_of_iff (Waits state action ∧ checksSuspended state action)
    ⟨fun ⟨waits, checks⟩ => ⟨waits, checks⟩,
      fun permitted => ⟨permitted.toWaits, permitted.checks⟩⟩

/-- `Run` is called after the continuation has been written back. -/
theorem run_succeeds_suspended :
    ∃ state : State ℕ ℕ ℕ Unit,
      (system ℕ ℕ Unit ⟨[0], [0], fun _ => 1⟩).ReachableUnder WaitsSuspended
          state ∧
        state.lastRun = some true ∧ state.entersLoop := by
  rcases TransitionSystem.exists_reachableUnder_of_run
      (system ℕ ℕ Unit ⟨[0], [0], fun _ => 1⟩) WaitsSuspended rfl
      (beginRun 1 ++ List.replicate 3 (.coroutine 1 .proceed))
      (fun state => decide (state.lastRun = some true))
      (by decide +kernel) with ⟨state, reachable, returned⟩
  rw [decide_eq_true_eq] at returned
  exact ⟨state, reachable, returned, (run_succeeds reachable).enters returned⟩

/--
The coroutine has resolved the future of `AsyncInit` in its yield, and `Run`
returns `false` because the continuation is not back yet.
-/
theorem run_fails_in_window :
    ¬ ∀ state : State ℕ ℕ ℕ Unit,
      (system ℕ ℕ Unit ⟨[0], [0], fun _ => 1⟩).ReachableUnder Waits state →
        state.runSucceeds := by
  intro claim
  rcases TransitionSystem.exists_reachableUnder_of_run
      (system ℕ ℕ Unit ⟨[0], [0], fun _ => 1⟩) Waits rfl
      [.asyncInit, .controller, .controller, .controller,
        .coroutine 1 .proceed, .coroutine 1 (.initReturns 0),
        .coroutine 1 .proceed, .coroutine 1 .proceed, .run, .controller,
        .controller]
      (fun state => decide (state.lastRun = some false))
      (by decide +kernel) with ⟨state, reachable, returned⟩
  rw [decide_eq_true_eq] at returned
  exact (claim state reachable).never_false returned

end AsyncRuntime.Kernel
