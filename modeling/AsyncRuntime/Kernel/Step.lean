import AsyncRuntime.Kernel.System

/-!
# What one step of the kernel can do

`Move` lists the moves of a coroutine with their guards and their effect on the
shared fields, `ClientMove` those of a client and `ControllerMove` those of the
controller; `ControllerEffect` says what the others see of the last.  Invariants
are proved from these and never unfold the step function.
-/

namespace AsyncRuntime.Kernel

open AsyncRuntime.Foundation
open AsyncRuntime.Dataflow

universe u v w x

variable {Name : Type u} {User : Type v} {Message : Type w} {Client : Type x}

/-- Where a coroutine is. -/
def State.pc (state : State Name User Message Client) (index : ℕ) : LoopPc Name :=
  (state.coroutines index).pc

/-- The coroutine will not run again. -/
def LoopPc.ended : LoopPc Name → Bool
  | .finished => true
  | .escaped => true
  | _ => false

/-! ## Moves of the controller -/

/-- The controller is inside `AsyncInit`. -/
def ControllerPc.initialises : ControllerPc → Bool
  | .initStore => true
  | .initAsync => true
  | .initPost => true
  | _ => false

/-- The steps of the controller inside a call. -/
inductive ControllerMove (state : State Name User Message Client) :
    ControllerPc → State Name User Message Client → Prop where
  | initStores :
      ControllerMove state .initStore
        ((state.setShared (state.shared.setState .ready)).setController
          .initAsync)
  | initRenews :
      ControllerMove state .initAsync (state.initPromise.setController .initPost)
  | initPosts :
      ControllerMove state .initPost (state.post.setController .idle)
  | runRefused (other : state.shared.state ≠ .initialized) :
      ControllerMove state .runLoad (state.returnRun false)
  | runAccepted (initialized : state.shared.state = .initialized) :
      ControllerMove state .runLoad (state.setController .runCheck)
  | runCompleted (completed : state.current.isCompleted = true) :
      ControllerMove state .runCheck (state.returnRun false)
  | runChecked (suspended : state.current.isCompleted = false) :
      ControllerMove state .runCheck (state.setController .runStore)
  | runStores :
      ControllerMove state .runStore
        ((state.setShared (state.shared.setState .running)).setController
          .runAsync)
  | runRenews :
      ControllerMove state .runAsync (state.initPromise.setController .runPost)
  | runPosts :
      ControllerMove state .runPost (state.post.setFutureRes.returnRun true)
  | terminateRunning (running : state.shared.state = .running) :
      ControllerMove state .terminateLoad (state.setController .terminateStore)
  | terminateOther (other : state.shared.state ≠ .running) :
      ControllerMove state .terminateLoad
        (state.setController .terminateLoadAgain)
  | terminateStores :
      ControllerMove state .terminateStore
        (state.storeRequest.setController .terminateNotify)
  | terminateNotifies :
      ControllerMove state .terminateNotify
        (state.notifyTerminate.returnTerminate (.shared state.futureRes))
  | terminateInitialized (initialized : state.shared.state = .initialized) :
      ControllerMove state .terminateLoadAgain
        (state.setController .terminateStoreInitialized)
  | terminateNeither (other : state.shared.state ≠ .initialized) :
      ControllerMove state .terminateLoadAgain
        (state.setController .terminateStoreOtherwise)
  | terminateStoresInitialized :
      ControllerMove state .terminateStoreInitialized
        (state.storeRequest.setController .terminateNotifyInitialized)
  | terminateNotifiesInitialized :
      ControllerMove state .terminateNotifyInitialized
        (state.notifyTerminate.setController .terminateAsync)
  | terminateRenews :
      ControllerMove state .terminateAsync
        (state.initPromise.setController .terminatePost)
  | terminatePosts :
      ControllerMove state .terminatePost
        (state.post.setFutureRes.returnTerminate
          (.shared (some state.current.promise)))
  | terminateStoresOtherwise :
      ControllerMove state .terminateStoreOtherwise
        (state.storeRequest.returnTerminate .resolved)

theorem controllerMove_of_step {state target : State Name User Message Client}
    (taken : controllerStep state = some target) :
    ControllerMove state state.controller target := by
  unfold controllerStep at taken
  cases place : state.controller <;> simp only [place] at taken
  case idle => cases taken
  case runLoad =>
    split at taken <;> cases taken
    · rename_i initialized
      exact .runAccepted initialized
    · rename_i other
      exact .runRefused other
  case runCheck =>
    split at taken <;> cases taken
    · rename_i completed
      exact .runCompleted completed
    · rename_i suspended
      exact .runChecked (by simpa using suspended)
  case terminateLoad =>
    split at taken <;> cases taken
    · rename_i running
      exact .terminateRunning running
    · rename_i other
      exact .terminateOther other
  case terminateLoadAgain =>
    split at taken <;> cases taken
    · rename_i initialized
      exact .terminateInitialized initialized
    · rename_i other
      exact .terminateNeither other
  all_goals
    cases taken
    constructor

/-! ## The controller as the others see it -/

section

variable {state target : State Name User Message Client}

theorem State.initPromise_pc (index : ℕ) :
    state.initPromise.pc index = state.pc index := by
  by_cases here : index = state.generation <;>
    simp [State.pc, State.current, here]

theorem State.initPromise_log (index : ℕ) :
    (state.initPromise.coroutines index).log = (state.coroutines index).log := by
  by_cases here : index = state.generation <;> simp [State.current, here]

theorem State.post_pc (index : ℕ) : state.post.pc index = state.pc index := by
  by_cases here : index = state.generation <;>
    simp [State.pc, State.current, here]

theorem State.post_log (index : ℕ) :
    (state.post.coroutines index).log = (state.coroutines index).log := by
  by_cases here : index = state.generation <;> simp [State.current, here]

/--
A step of the controller stores a state or notifies; it moves no coroutine and
no client.
-/
structure ControllerEffect (state target : State Name User Message Client) :
    Prop where
  clients_eq : target.clients = state.clients
  generation_eq : target.generation = state.generation
  pc_eq : ∀ index, target.pc index = state.pc index
  log_eq :
    ∀ index, (target.coroutines index).log = (state.coroutines index).log
  shared_eq :
    (∃ stored, target.shared = state.shared.setState stored) ∧
        target.terminateNotified = state.terminateNotified ∨
      target.shared = state.shared.notify .terminate ∧
        target.terminateNotified = true

theorem ControllerEffect.of_store (stored : KernelState)
    (clients_eq : target.clients = state.clients)
    (generation_eq : target.generation = state.generation)
    (coroutines_eq : target.coroutines = state.coroutines)
    (shared_eq : target.shared = state.shared.setState stored)
    (terminateNotified_eq :
      target.terminateNotified = state.terminateNotified) :
    ControllerEffect state target where
  clients_eq := clients_eq
  generation_eq := generation_eq
  pc_eq := fun index => by rw [State.pc, coroutines_eq, State.pc]
  log_eq := fun index => by rw [coroutines_eq]
  shared_eq := .inl ⟨⟨stored, shared_eq⟩, terminateNotified_eq⟩

theorem ControllerEffect.of_initPromise (pc : ControllerPc) :
    ControllerEffect state (state.initPromise.setController pc) where
  clients_eq := rfl
  generation_eq := rfl
  pc_eq := State.initPromise_pc
  log_eq := State.initPromise_log
  shared_eq := .inl ⟨⟨state.shared.state, rfl⟩, rfl⟩

theorem ControllerEffect.of_post
    (clients_eq : target.clients = state.clients)
    (generation_eq : target.generation = state.generation)
    (coroutines_eq : target.coroutines = state.post.coroutines)
    (shared_eq : target.shared = state.shared)
    (terminateNotified_eq :
      target.terminateNotified = state.terminateNotified) :
    ControllerEffect state target where
  clients_eq := clients_eq
  generation_eq := generation_eq
  pc_eq := fun index => by
    rw [State.pc, coroutines_eq]
    exact State.post_pc index
  log_eq := fun index => by
    rw [coroutines_eq]
    exact State.post_log index
  shared_eq := .inl ⟨⟨state.shared.state, shared_eq⟩, terminateNotified_eq⟩

theorem ControllerMove.effect {pc : ControllerPc}
    (move : ControllerMove state pc target) : ControllerEffect state target := by
  cases move with
  | initStores => exact .of_store .ready rfl rfl rfl rfl rfl
  | runStores => exact .of_store .running rfl rfl rfl rfl rfl
  | terminateStores => exact .of_store .terminated rfl rfl rfl rfl rfl
  | terminateStoresInitialized => exact .of_store .terminated rfl rfl rfl rfl rfl
  | terminateStoresOtherwise => exact .of_store .terminated rfl rfl rfl rfl rfl
  | terminateNotifies =>
      exact ⟨rfl, rfl, fun _ => rfl, fun _ => rfl, .inr ⟨rfl, rfl⟩⟩
  | terminateNotifiesInitialized =>
      exact ⟨rfl, rfl, fun _ => rfl, fun _ => rfl, .inr ⟨rfl, rfl⟩⟩
  | initRenews => exact .of_initPromise .initPost
  | runRenews => exact .of_initPromise .runPost
  | terminateRenews => exact .of_initPromise .terminatePost
  | initPosts => exact .of_post rfl rfl rfl rfl rfl
  | runPosts => exact .of_post rfl rfl rfl rfl rfl
  | terminatePosts => exact .of_post rfl rfl rfl rfl rfl
  | _ => exact .of_store state.shared.state rfl rfl rfl rfl rfl

end

section

variable [DecidableEq Name]

/-! ## Moves of a coroutine -/

/-- The moves of a coroutine. -/
inductive Move (config : Config Name) (kernel : Shared Name User Message Client) :
    LoopPc Name → Choice Name → Shared Name User Message Client → LoopPc Name →
      Prop where
  | starts : Move config kernel .created .proceed kernel .onInit
  | initSucceeds :
      Move config kernel .onInit (.initReturns 0) kernel .storeInitialized
  | initFails {error : ℤ} (failed : error ≠ 0) :
      Move config kernel .onInit (.initReturns error) kernel
        (.initFailedDispose error)
  | initThrows (standard : Bool) :
      Move config kernel .onInit (.throws standard) kernel (unwind standard)
  | initFailedDisposes (error code : ℤ) :
      Move config kernel (.initFailedDispose error) (.disposeReturns code) kernel
        (.initFailedStore error)
  | initFailedThrows (error : ℤ) (standard : Bool) :
      Move config kernel (.initFailedDispose error) (.throws standard) kernel
        (unwind standard)
  | initFailedStores (error : ℤ) :
      Move config kernel (.initFailedStore error) .proceed
        (kernel.setState .terminated) (.resolve (.value error))
  | storesInitialized :
      Move config kernel .storeInitialized .proceed
        (kernel.setState .initialized) .yield
  | yields : Move config kernel .yield .proceed kernel .yielded
  | suspends : Move config kernel .yielded .proceed kernel .suspendedAtYield
  | resumes :
      Move config kernel .suspendedAtYield .proceed kernel .checkTerminated
  | skipsLoop (terminated : kernel.state = .terminated) :
      Move config kernel .checkTerminated .proceed kernel .storeTerminated
  | entersLoop (alive : kernel.state ≠ .terminated) :
      Move config kernel .checkTerminated .proceed kernel .storeRunning
  | storesRunning :
      Move config kernel .storeRunning .proceed (kernel.setState .running)
        .loopTest
  | leavesLoop (terminated : kernel.state = .terminated) :
      Move config kernel .loopTest .proceed kernel .storeTerminated
  | updates (alive : kernel.state ≠ .terminated) :
      Move config kernel .loopTest .proceed kernel (.subscribersEmpty .update)
  | findsNobody (caller : WaitCaller) (free : kernel.sinkMutex = none)
      (nobody : kernel.subscribersEmpty config = true) :
      Move config kernel (.subscribersEmpty caller) .proceed kernel
        (.flush (.beforeWait caller) config.sourcePorts)
  | findsSubscribers (caller : WaitCaller) (free : kernel.sinkMutex = none) :
      Move config kernel (.subscribersEmpty caller) .proceed kernel
        (afterWait caller)
  | flushed (place : FlushPlace) :
      Move config kernel (.flush place []) .proceed kernel (afterFlush place)
  | flushNext (place : FlushPlace) {name : Name} {rest : List Name}
      (empty : (kernel.source name).empty = true) :
      Move config kernel (.flush place (name :: rest)) .proceed kernel
        (.flush place rest)
  | flushPop (place : FlushPlace) {name : Name} {rest : List Name} :
      Move config kernel (.flush place (name :: rest)) .proceed
        (kernel.setSource name (kernel.source name).pop)
        (.flush place (name :: rest))
  | watches (caller : WaitCaller) :
      Move config kernel (.asyncWatch caller) .proceed
        (kernel.setNotifier
          (kernel.notifier.asyncWatch (waitedEvents.map KernelEvent.flag)).1)
        (.await (.subscription caller)
          (kernel.notifier.asyncWatch (waitedEvents.map KernelEvent.flag)).2)
  | waitActivates (caller : WaitCaller) :
      Move config kernel (.waitActivate caller) .proceed kernel.activate
        (.flush (.afterSubscription caller) config.sourcePorts)
  | watchesAny :
      Move config kernel .asyncWatchAny .proceed
        (kernel.setNotifier kernel.notifier.asyncWatchAny.1)
        (.await .any kernel.notifier.asyncWatchAny.2)
  | awaits (point : WatchPoint) {future : WatchFuture} {value : Flags}
      (ready : kernel.notifier.poll future = .ready value) :
      Move config kernel (.await point future) .proceed kernel
        (dispatch config value point)
  | awaitsBroken (point : WatchPoint) {future : WatchFuture}
      (broken : kernel.notifier.poll future = .broken) :
      Move config kernel (.await point future) .proceed kernel .catchStore
  | sleeps (point : WatchPoint) {promise : ℕ}
      (pending : kernel.notifier.poll (.promise promise) = .pending) :
      Move config kernel (.await point (.promise promise)) .proceed kernel
        (.suspended point promise)
  | wakes (point : WatchPoint) {promise : ℕ} {value : Flags}
      (ready : kernel.notifier.poll (.promise promise) = .ready value) :
      Move config kernel (.suspended point promise) .proceed kernel
        (dispatch config value point)
  | wakesBroken (point : WatchPoint) {promise : ℕ}
      (broken : kernel.notifier.poll (.promise promise) = .broken) :
      Move config kernel (.suspended point promise) .proceed kernel .catchStore
  | drains (events : Flags) (drained : List Name) {name : Name}
      (empty : (kernel.source name).empty = true) :
      Move config kernel (.onProcess events drained) (.processReads name) kernel
        (.onProcess events (name :: drained))
  | reads (events : Flags) (drained : List Name) (name : Name) :
      Move config kernel (.onProcess events drained) (.processReads name)
        (kernel.setSource name (kernel.source name).pop)
        (.onProcess events drained)
  | processed (events : Flags) (drained : List Name) :
      Move config kernel (.onProcess events drained) (.processReturns .next)
        kernel (dispatchTerminate config events)
  | processEnds (events : Flags) (drained : List Name)
      {result : KernelProcessResult} (ends : result ≠ .next) :
      Move config kernel (.onProcess events drained) (.processReturns result)
        kernel .storeTerminated
  | processThrows (events : Flags) (drained : List Name) (standard : Bool) :
      Move config kernel (.onProcess events drained) (.throws standard) kernel
        (unwind standard)
  | activates (events : Flags) :
      Move config kernel (.onSinkSubscription events) .proceed kernel.activate
        (dispatchUnsubscription events)
  | unsubscribesAll (free : kernel.sinkMutex = none) :
      Move config kernel .terminateUnsubscribeAll .proceed kernel.unsubscribeAll
        .storeTerminated
  | storesTerminated :
      Move config kernel .storeTerminated .proceed (kernel.setState .terminated)
        .dispose
  | disposes (code : ℤ) :
      Move config kernel .dispose (.disposeReturns code) kernel
        (.resolve (.value code))
  | disposeThrows (standard : Bool) :
      Move config kernel .dispose (.throws standard) kernel (unwind standard)
  | catchStores :
      Move config kernel .catchStore .proceed (kernel.setState .terminated)
        .catchDispose
  | catchDisposes (code : ℤ) :
      Move config kernel .catchDispose (.disposeReturns code) kernel
        (.resolve (.value (-1)))
  | catchThrows (standard : Bool) :
      Move config kernel .catchDispose (.throws standard) kernel .escape
  | resolves (outcome : Outcome) :
      Move config kernel (.resolve outcome) .proceed kernel .finished
  | escapes : Move config kernel .escape .proceed kernel .escaped

variable {config : Config Name} {kernel moved : Shared Name User Message Client}
variable {pc target : LoopPc Name} {choice : Choice Name}

theorem move_of_await {point : WatchPoint} {future : WatchFuture}
    (taken :
      loopStep config kernel (.await point future) .proceed =
        some (moved, target)) :
    Move config kernel (.await point future) .proceed moved target := by
  simp only [loopStep, awaitStep] at taken
  cases polled : kernel.notifier.poll future with
  | ready value =>
      simp only [polled, Option.some.injEq, Prod.mk.injEq] at taken
      rcases taken with ⟨rfl, rfl⟩
      exact .awaits point polled
  | pending =>
      cases future with
      | resolved value => simp [polled] at taken
      | promise promise =>
          simp only [polled, Option.some.injEq, Prod.mk.injEq] at taken
          rcases taken with ⟨rfl, rfl⟩
          exact .sleeps point polled
  | broken =>
      simp only [polled, Option.some.injEq, Prod.mk.injEq] at taken
      rcases taken with ⟨rfl, rfl⟩
      exact .awaitsBroken point polled

theorem move_of_suspended {point : WatchPoint} {promise : ℕ}
    (taken :
      loopStep config kernel (.suspended point promise) .proceed =
        some (moved, target)) :
    Move config kernel (.suspended point promise) .proceed moved target := by
  simp only [loopStep, awaitStep] at taken
  cases polled : kernel.notifier.poll (.promise promise) with
  | ready value =>
      simp only [polled, Option.map_some, Option.some.injEq, Prod.mk.injEq] at taken
      rcases taken with ⟨rfl, rfl⟩
      exact .wakes point polled
  | pending => simp [polled] at taken
  | broken =>
      simp only [polled, Option.map_some, Option.some.injEq, Prod.mk.injEq] at taken
      rcases taken with ⟨rfl, rfl⟩
      exact .wakesBroken point polled

theorem move_of_loopStep
    (taken : loopStep config kernel pc choice = some (moved, target)) :
    Move config kernel pc choice moved target := by
  -- the cases are the arms of the step function, in their order
  unfold loopStep at taken
  split at taken
  · split at taken <;> cases taken
    · rename_i succeeded
      rw [succeeded]
      exact .initSucceeds
    · rename_i failed
      exact .initFails failed
  · cases taken
    exact .initThrows _
  · cases taken
    exact .initFailedDisposes _ _
  · cases taken
    exact .initFailedThrows _ _
  · cases taken
    exact .initFailedStores _
  · cases taken
    exact .storesInitialized
  · split at taken <;> cases taken
    · rename_i terminated
      exact .skipsLoop terminated
    · rename_i alive
      exact .entersLoop alive
  · cases taken
    exact .storesRunning
  · split at taken <;> cases taken
    · rename_i terminated
      exact .leavesLoop terminated
    · rename_i alive
      exact .updates alive
  · split at taken
    · rename_i free
      split at taken <;> cases taken
      · rename_i nobody
        exact .findsNobody _ free nobody
      · exact .findsSubscribers _ free
    · cases taken
  · cases taken
    exact .flushed _
  · split at taken <;> cases taken
    · rename_i empty
      exact .flushNext _ empty
    · exact .flushPop _
  · cases taken
    exact .watches _
  · cases taken
    exact .waitActivates _
  · cases taken
    exact .watchesAny
  · exact move_of_await (by simpa only [loopStep] using taken)
  · exact move_of_suspended (by simpa only [loopStep] using taken)
  · split at taken <;> cases taken
    · rename_i empty
      exact .drains _ _ empty
    · exact .reads _ _ _
  · split at taken <;> cases taken
    · rename_i continues
      rw [continues]
      exact .processed _ _
    · rename_i ends
      exact .processEnds _ _ ends
  · cases taken
    exact .processThrows _ _ _
  · cases taken
    exact .activates _
  · split at taken
    · rename_i free
      cases taken
      exact .unsubscribesAll free
    · cases taken
  · cases taken
    exact .storesTerminated
  · cases taken
    exact .disposes _
  · cases taken
    exact .disposeThrows _
  · cases taken
    exact .catchStores
  · cases taken
    exact .catchDisposes _
  · cases taken
    exact .catchThrows _
  · cases taken

/-- The stores of a coroutine to `state`. -/
theorem Move.state_cases (move : Move config kernel pc choice moved target) :
    moved.state = kernel.state ∨ moved.state = .terminated ∨
      pc = .storeInitialized ∧ target = .yield ∧ moved.state = .initialized ∨
      pc = .storeRunning ∧ moved.state = .running := by
  cases move with
  | initFailedStores error => exact .inr (.inl rfl)
  | storesInitialized => exact .inr (.inr (.inl ⟨rfl, rfl, rfl⟩))
  | storesRunning => exact .inr (.inr (.inr ⟨rfl, rfl⟩))
  | storesTerminated => exact .inr (.inl rfl)
  | catchStores => exact .inr (.inl rfl)
  | _ => exact .inl rfl

/-- The coroutine waits for a task to resume it. -/
def LoopPc.parked : LoopPc Name → Bool
  | .created => true
  | .suspendedAtYield => true
  | _ => false

/-- The next step of the coroutine satisfies its promise. -/
def LoopPc.settles : LoopPc Name → Bool
  | .yield => true
  | .resolve _ => true
  | .escape => true
  | _ => false

/-- What the next step of the coroutine satisfies its promise with. -/
def LoopPc.outcome : LoopPc Name → Option Outcome
  | .yield => some (.value 0)
  | .resolve outcome => some outcome
  | .escape => some .exception
  | _ => none

/-- A step of a coroutine. -/
structure CoroutineStep (config : Config Name)
    (state target : State Name User Message Client) (index : ℕ)
    (choice : Choice Name) : Prop where
  move :
    Move config state.shared (state.pc index) choice target.shared
      (target.pc index)
  others :
    ∀ other, other ≠ index → target.coroutines other = state.coroutines other
  promise_eq :
    (target.coroutines index).promise = (state.coroutines index).promise
  log_eq :
    (target.coroutines index).log =
      (state.pc index).hook ++ (state.coroutines index).log
  tasks_eq :
    (target.coroutines index).tasks =
      if (state.pc index).parked then
        (state.coroutines index).tasks - 1
      else
        (state.coroutines index).tasks
  posted : (state.pc index).parked = true → (state.coroutines index).tasks ≠ 0
  promises_eq :
    ∀ name,
      name ≠ (state.coroutines index).promise ∨
          (state.pc index).settles = false →
        target.promises name = state.promises name
  satisfied :
    (state.pc index).settles = true →
      target.promises (state.coroutines index).promise ≠ none
  outcome_eq :
    ∀ outcome, (state.pc index).outcome = some outcome →
      state.promises (state.coroutines index).promise = none →
        target.promises (state.coroutines index).promise = some outcome
  generation_eq : target.generation = state.generation
  controller_eq : target.controller = state.controller
  clients_eq : target.clients = state.clients
  promiseCount_eq : target.promiseCount = state.promiseCount
  futureRes_eq : target.futureRes = state.futureRes
  requested_eq : target.requested = state.requested
  terminateNotified_eq : target.terminateNotified = state.terminateNotified
  returned_eq : target.returned = state.returned
  lastRun_eq : target.lastRun = state.lastRun

section

variable {state : State Name User Message Client} {index : ℕ}

theorem CoroutineStep.current_eq {target : State Name User Message Client}
    (step : CoroutineStep config state target state.generation choice) :
    target.current = target.coroutines state.generation := by
  rw [State.current, step.generation_eq]

theorem CoroutineStep.move_current {target : State Name User Message Client}
    (step : CoroutineStep config state target state.generation choice) :
    Move config state.shared state.current.pc choice target.shared
      target.current.pc := by
  rw [step.current_eq]
  exact step.move

/-- A coroutine without a task is not resumed. -/
theorem CoroutineStep.unparked {target : State Name User Message Client}
    (step : CoroutineStep config state target state.generation choice)
    (tasks : state.current.tasks = 0) : state.current.pc.parked = false := by
  cases parked : state.current.pc.parked
  · rfl
  · exact absurd tasks (step.posted parked)

/-- A resumed coroutine touches nothing else. -/
theorem CoroutineStep.of_resume {target : State Name User Message Client}
    (move :
      Move config state.shared (state.pc index) choice state.shared pc)
    (parked : (state.pc index).parked = true)
    (settles : (state.pc index).settles = false)
    (outcome_eq : (state.pc index).outcome = none)
    (taken :
      ((state.coroutines index).resume pc).map (state.setCoroutine index) =
        some target) :
    CoroutineStep config state target index choice := by
  unfold Coroutine.resume at taken
  split at taken
  · simp at taken
  · rename_i posted
    simp only [Option.map_some, Option.some.injEq] at taken
    subst target
    constructor
    · simpa [State.pc, Coroutine.goto] using move
    · intro other different
      simp [different]
    · simp [Coroutine.goto]
    · simp [Coroutine.goto, State.pc]
    · simp [parked]
    · exact fun _ => posted
    · exact fun _ _ => rfl
    · simp [settles]
    · simp [outcome_eq]
    all_goals rfl

/-- The coroutine satisfies its promise and goes on. -/
theorem CoroutineStep.of_satisfy {outcome : Outcome}
    (move :
      Move config state.shared (state.pc index) choice state.shared pc)
    (parked : (state.pc index).parked = false)
    (settles : (state.pc index).settles = true)
    (outcome_eq : (state.pc index).outcome = some outcome) :
    CoroutineStep config state
      ((state.satisfy (state.coroutines index).promise outcome).setCoroutine
        index ((state.coroutines index).goto pc)) index choice := by
  constructor
  · simpa [State.pc, Coroutine.goto] using move
  · intro other different
    simp [different]
  · simp [Coroutine.goto]
  · simp [Coroutine.goto, State.pc]
  · simp [parked, Coroutine.goto]
  · simp [parked]
  · intro name elsewhere
    simp only [settles, Bool.true_eq_false, or_false] at elsewhere
    simp [elsewhere]
  · intro _
    simp only [State.setCoroutine_promises, State.satisfy_promises]
    split
    · simp
    · rename_i stored
      simpa using stored
  · intro other same unset
    rw [outcome_eq] at same
    simp [unset, Option.some.inj same]
  all_goals rfl

/-- The coroutine executes a step of `AsyncLoop`. -/
theorem CoroutineStep.of_loopStep {moved : Shared Name User Message Client}
    (move : Move config state.shared (state.pc index) choice moved pc)
    (parked : (state.pc index).parked = false)
    (settles : (state.pc index).settles = false)
    (outcome_eq : (state.pc index).outcome = none) :
    CoroutineStep config state
      ((state.setShared moved).setCoroutine index
        ((state.coroutines index).goto pc)) index choice := by
  constructor
  · simpa [State.pc, Coroutine.goto] using move
  · intro other different
    simp [different]
  · simp [Coroutine.goto]
  · simp [Coroutine.goto, State.pc]
  · simp [parked, Coroutine.goto]
  · simp [parked]
  · exact fun _ _ => rfl
  · simp [settles]
  · simp [outcome_eq]
  all_goals rfl

/-- Inside `AsyncLoop` the coroutine waits for no task and resolves nothing. -/
theorem inside_of_loopStep
    (taken : loopStep config kernel pc choice = some (moved, target)) :
    pc.parked = false ∧ pc.settles = false ∧ pc.outcome = none := by
  cases pc <;> first | exact ⟨rfl, rfl, rfl⟩ | simp [loopStep] at taken

theorem coroutineStep_sound {target : State Name User Message Client}
    (taken : coroutineStep config state index choice = some target) :
    CoroutineStep config state target index choice := by
  simp only [coroutineStep] at taken
  split at taken
  · rename_i place
    replace place : state.pc index = .created := place
    apply CoroutineStep.of_resume _ (by rw [place]; rfl) (by rw [place]; rfl)
      (by rw [place]; rfl) taken
    rw [place]
    exact .starts
  · rename_i place
    replace place : state.pc index = .yield := place
    cases taken
    apply CoroutineStep.of_satisfy _ (by rw [place]; rfl) (by rw [place]; rfl)
      (by rw [place]; rfl)
    rw [place]
    exact .yields
  · rename_i place
    replace place : state.pc index = .yielded := place
    cases taken
    apply CoroutineStep.of_loopStep _ (by rw [place]; rfl) (by rw [place]; rfl)
      (by rw [place]; rfl)
    rw [place]
    exact .suspends
  · rename_i place
    replace place : state.pc index = .suspendedAtYield := place
    apply CoroutineStep.of_resume _ (by rw [place]; rfl) (by rw [place]; rfl)
      (by rw [place]; rfl) taken
    rw [place]
    exact .resumes
  · rename_i outcome place
    replace place : state.pc index = .resolve outcome := place
    cases taken
    apply CoroutineStep.of_satisfy _ (by rw [place]; rfl) (by rw [place]; rfl)
      (by rw [place]; rfl)
    rw [place]
    exact .resolves outcome
  · rename_i place
    replace place : state.pc index = .escape := place
    cases taken
    apply CoroutineStep.of_satisfy _ (by rw [place]; rfl) (by rw [place]; rfl)
      (by rw [place]; rfl)
    rw [place]
    exact .escapes
  · rw [Option.map_eq_some_iff] at taken
    rcases taken with ⟨⟨moved, after⟩, inside, rfl⟩
    rcases inside_of_loopStep inside with ⟨parked, settles, outcome_eq⟩
    exact CoroutineStep.of_loopStep (move_of_loopStep inside) parked settles
      outcome_eq

end

/-! ## Moves of a client -/

variable [DecidableEq User]

/-- The moves of a client thread. -/
inductive ClientMove (config : Config Name) (kernel : Shared Name User Message Client)
    (client : Client) :
    ClientPc Name User Message → Shared Name User Message Client →
      ClientPc Name User Message → Prop where
  | sendBegins {name : Name} (message : Message)
      (known : name ∈ config.sourcePorts) :
      ClientMove config kernel client .idle kernel (.sendTest name message)
  | writeBegins {name : Name} (message : Message)
      (known : name ∈ config.sourcePorts) :
      ClientMove config kernel client .idle kernel (.push name message)
  | subscribes {name : Name} (user : User) (known : name ∈ config.sinkPorts)
      (free : kernel.sinkMutex = none) :
      ClientMove config kernel client .idle
        ((kernel.setSink name ((kernel.sink name).subscribe user)).setSinkMutex
          (some client))
        (.subscribeNotify name user)
  | unsubscribesNobody {name : Name} (user : User)
      (free : kernel.sinkMutex = none) :
      ClientMove config kernel client .idle
        ((kernel.setSink name ((kernel.sink name).unsubscribe user)).setConfirmed
          name ((kernel.confirmed name).filter (· ≠ user)))
        .idle
  | unsubscribes {name : Name} (user : User) (free : kernel.sinkMutex = none) :
      ClientMove config kernel client .idle
        (((kernel.setSink name
          ((kernel.sink name).unsubscribe user)).setConfirmed name
            ((kernel.confirmed name).filter (· ≠ user))).setSinkMutex
              (some client))
        .unsubscribeNotify
  | sendTests {name : Name} {message : Message}
      (active : (kernel.source name).active = true) :
      ClientMove config kernel client (.sendTest name message) kernel
        (.push name message)
  | sendSkips {name : Name} {message : Message} :
      ClientMove config kernel client (.sendTest name message) kernel .idle
  | pushes {name : Name} {message : Message} :
      ClientMove config kernel client (.push name message)
        (kernel.setSource name ((kernel.source name).push message))
        (.writeNotify name)
  | writeNotifies {name : Name} :
      ClientMove config kernel client (.writeNotify name)
        (kernel.notify .readSource) .idle
  | subscribeNotifies {name : Name} {user : User} :
      ClientMove config kernel client (.subscribeNotify name user)
        (((kernel.notify .sinkSubscription).setConfirmed name
          ((kernel.confirmed name).insert user)).setSinkMutex none)
        .idle
  | unsubscribeNotifies :
      ClientMove config kernel client .unsubscribeNotify
        ((kernel.notify .sinkUnsubscription).setSinkMutex none) .idle

/-- Clients do not touch the state of the kernel. -/
theorem ClientMove.state_eq {client : Client}
    {before after : ClientPc Name User Message}
    (move : ClientMove config kernel client before moved after) :
    moved.state = kernel.state := by
  cases move <;> rfl

/-- A step of a client: its move and the states around it. -/
structure ClientStep (config : Config Name)
    (state target : State Name User Message Client) (client : Client) : Prop where
  move :
    ClientMove config state.shared client (state.clients client) target.shared
      (target.clients client)
  others : ∀ other, other ≠ client → target.clients other = state.clients other
  coroutines_eq : target.coroutines = state.coroutines
  generation_eq : target.generation = state.generation
  controller_eq : target.controller = state.controller
  promises_eq : target.promises = state.promises
  promiseCount_eq : target.promiseCount = state.promiseCount
  futureRes_eq : target.futureRes = state.futureRes
  requested_eq : target.requested = state.requested
  terminateNotified_eq : target.terminateNotified = state.terminateNotified
  returned_eq : target.returned = state.returned
  lastRun_eq : target.lastRun = state.lastRun

variable {state : State Name User Message Client} {client : Client}

/-- A client moves no coroutine. -/
theorem ClientStep.pc_eq {target : State Name User Message Client}
    (step : ClientStep config state target client) (index : ℕ) :
    target.pc index = state.pc index := by
  rw [State.pc, step.coroutines_eq, State.pc]

theorem ClientStep.current_eq {target : State Name User Message Client}
    (step : ClientStep config state target client) :
    target.current = state.current := by
  rw [State.current, step.generation_eq, step.coroutines_eq, State.current]

variable [DecidableEq Client]

theorem ClientStep.of_move {moved : Shared Name User Message Client}
    {after : ClientPc Name User Message}
    (move :
      ClientMove config state.shared client (state.clients client) moved after) :
    ClientStep config state ((state.setShared moved).setClient client after)
      client := by
  constructor
  · simpa using move
  · intro other different
    simp [different]
  all_goals rfl

theorem ClientStep.clients_eq_update {target : State Name User Message Client}
    (step : ClientStep config state target client) :
    target.clients =
      Function.update state.clients client (target.clients client) := by
  funext other
  by_cases here : other = client
  · rw [here, Function.update_self]
  · rw [Function.update_of_ne here, step.others other here]

theorem clientStep_of_call {target : State Name User Message Client}
    {call : ClientCall Name User Message}
    (place : state.clients client = .idle)
    (taken : callStep config state client call = some target) :
    ClientStep config state target client := by
  cases call with
  | send name message =>
      simp only [callStep] at taken
      split at taken
      · rename_i known
        cases taken
        apply ClientStep.of_move
        rw [place]
        exact .sendBegins message known
      · cases taken
  | write name message =>
      simp only [callStep] at taken
      split at taken
      · rename_i known
        cases taken
        apply ClientStep.of_move
        rw [place]
        exact .writeBegins message known
      · cases taken
  | subscribe name user =>
      simp only [callStep] at taken
      split at taken
      · rename_i allowed
        cases taken
        apply ClientStep.of_move
        rw [place]
        exact .subscribes user allowed.1 allowed.2
      · cases taken
  | unsubscribe name user =>
      simp only [callStep] at taken
      split at taken
      · rename_i allowed
        split at taken
        · cases taken
          constructor
          · rw [State.setShared_clients, place]
            exact .unsubscribesNobody user allowed.2
          · exact fun _ _ => rfl
          all_goals rfl
        · cases taken
          apply ClientStep.of_move
          rw [place]
          exact .unsubscribes user allowed.2
      · cases taken

theorem clientStep_sound {target : State Name User Message Client}
    (taken : clientStep state client = some target) :
    ClientStep config state target client := by
  unfold clientStep at taken
  split at taken
  · cases taken
  · rename_i name message place
    split at taken <;> cases taken <;> apply ClientStep.of_move <;> rw [place]
    · rename_i active
      exact .sendTests active
    · exact .sendSkips
  · rename_i name message place
    cases taken
    apply ClientStep.of_move
    rw [place]
    exact .pushes
  · rename_i name place
    cases taken
    apply ClientStep.of_move
    rw [place]
    exact .writeNotifies
  · rename_i name user place
    cases taken
    apply ClientStep.of_move
    rw [place]
    exact .subscribeNotifies
  · rename_i place
    cases taken
    apply ClientStep.of_move
    rw [place]
    exact .unsubscribeNotifies

/-! ## The steps -/

/-- The steps of the system. -/
inductive Step (config : Config Name) (state : State Name User Message Client) :
    Action Name User Message Client → State Name User Message Client → Prop where
  | asyncInit (idle : state.controller = .idle) :
      Step config state .asyncInit (state.makeCoroutine.setController .initStore)
  | run (idle : state.controller = .idle) :
      Step config state .run (state.beginCall .runLoad)
  | asyncTerminate (idle : state.controller = .idle) :
      Step config state .asyncTerminate (state.beginCall .terminateLoad)
  | controller {target : State Name User Message Client}
      (move : ControllerMove state state.controller target) :
      Step config state .controller target
  | coroutine {target : State Name User Message Client} {index : ℕ}
      {choice : Choice Name}
      (step : CoroutineStep config state target index choice) :
      Step config state (.coroutine index choice) target
  | client {target : State Name User Message Client}
      {action : Action Name User Message Client} {client : Client}
      (step : ClientStep config state target client) :
      Step config state action target

theorem step_of_next {target : State Name User Message Client}
    {action : Action Name User Message Client}
    (taken : (system User Message Client config).next state action = some target) :
    Step config state action target := by
  replace taken : next config state action = some target := taken
  cases action with
  | asyncInit =>
      simp only [next] at taken
      split at taken <;> cases taken
      rename_i idle
      exact .asyncInit idle
  | run =>
      simp only [next] at taken
      split at taken <;> cases taken
      rename_i idle
      exact .run idle
  | asyncTerminate =>
      simp only [next] at taken
      split at taken <;> cases taken
      rename_i idle
      exact .asyncTerminate idle
  | controller => exact .controller (controllerMove_of_step taken)
  | coroutine index choice => exact .coroutine (coroutineStep_sound taken)
  | call client call =>
      simp only [next] at taken
      split at taken
      · rename_i place
        exact .client (clientStep_of_call place taken)
      · cases taken
  | client client => exact .client (clientStep_sound taken)

end

end AsyncRuntime.Kernel
