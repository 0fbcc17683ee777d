import AsyncRuntime.Kernel.Attention

/-!
# What the future of `AsyncTerminate` means

The three branches of `AsyncTerminate` return three kinds of future.  On a
running kernel it is the future of the coroutine's promise, which `AsyncLoop`
resolves at its end; on an initialised kernel the promise is renewed and the
coroutine resumed; otherwise the future is resolved at once.  The last branch is
also taken while `OnInit` runs and by a second call, and in the second branch
the promise may be renewed before the coroutine has reached its yield, which
then resolves it.

When these two things do not happen, `AsyncInit` waits for the previous
coroutine and no exception leaves `AsyncLoop`, the future means what it says.
The last coroutine is then in one of three phases: it starts or fails to start,
it is at its yield, or it has been resumed and its promise is the one that
`future_res` belongs to.
-/

namespace AsyncRuntime.Kernel

open AsyncRuntime.Foundation
open AsyncRuntime.Dataflow

universe u v w x

variable {Name : Type u} {User : Type v} {Message : Type w} {Client : Type x}

/-- `OnInit` has begun and `OnDispose` has not returned. -/
def LoopPc.live : LoopPc Name → Bool
  | .created => false
  | .initFailedStore _ => false
  | .resolve _ => false
  | .finished => false
  | _ => true

/-- `OnDispose` has returned, or there is no coroutine. -/
def LoopPc.disposed : LoopPc Name → Bool
  | .initFailedStore _ => true
  | .resolve _ => true
  | .finished => true
  | _ => false

/-- A future returned by `AsyncTerminate` has a value. -/
def State.isResolved (state : State Name User Message Client) :
    TerminateFuture → Bool
  | .resolved => true
  | .shared none => false
  | .shared (some promise) => (state.promises promise).isSome

/-- No exception leaves `AsyncLoop`. -/
def exceptionsContained (state : State Name User Message Client) :
    Action Name User Message Client → Prop
  | .coroutine index choice =>
      match choice with
      | .throws standard => standard = true ∧ state.pc index ≠ .catchDispose
      | _ => True
  | _ => True

/--
`AsyncTerminate` returns a resolved future only after `OnDispose`, and renews
the promise only after the yield.
-/
def terminatesInOrder (state : State Name User Message Client) :
    Action Name User Message Client → Prop
  | .controller =>
      (state.controller = .terminateStoreOtherwise →
          state.current.pc.disposed = true) ∧
        (state.controller = .terminateAsync → state.current.pc ≠ .yield)
  | _ => True

/-- The runs in which the future of `AsyncTerminate` keeps its promise. -/
structure Orderly (state : State Name User Message Client)
    (action : Action Name User Message Client) : Prop where
  restarts : restartsEnded state action
  contained : exceptionsContained state action
  ordered : terminatesInOrder state action

/-! ## Phases of the last coroutine -/

/-- Places before the yield, and where a failed start ends. -/
def LoopPc.starting : LoopPc Name → Bool
  | .created => true
  | .onInit => true
  | .initFailedDispose _ => true
  | .initFailedStore _ => true
  | .storeInitialized => true
  | .catchStore => true
  | .catchDispose => true
  | .resolve _ => true
  | .finished => true
  | _ => false

/-- Places at the yield. -/
def LoopPc.atYield : LoopPc Name → Bool
  | .yield => true
  | .yielded => true
  | .suspendedAtYield => true
  | _ => false

/-- Places after the yield. -/
def LoopPc.resumed : LoopPc Name → Bool
  | .created => false
  | .onInit => false
  | .initFailedDispose _ => false
  | .initFailedStore _ => false
  | .storeInitialized => false
  | .yield => false
  | .escape => false
  | .escaped => false
  | _ => true

/-- Places of the controller while the kernel is not initialised. -/
def ControllerPc.early : ControllerPc → Bool
  | .idle => true
  | .initStore => true
  | .initAsync => true
  | .initPost => true
  | .runLoad => true
  | .terminateLoad => true
  | .terminateLoadAgain => true
  | .terminateStoreOtherwise => true
  | _ => false

/-- Places of the controller once the coroutine has been resumed. -/
def ControllerPc.late : ControllerPc → Bool
  | .idle => true
  | .runLoad => true
  | .terminateLoad => true
  | .terminateStore => true
  | .terminateNotify => true
  | .terminateLoadAgain => true
  | .terminateStoreOtherwise => true
  | _ => false

/-- Places of the controller while the coroutine waits at its yield. -/
def Yielding (state : KernelState) (pc : LoopPc Name) : ControllerPc → Prop
  | .idle => state = .initialized
  | .runLoad => state = .initialized
  | .runCheck => state = .initialized
  | .runStore => state = .initialized ∧ pc = .suspendedAtYield
  | .runAsync => state = .running ∧ pc = .suspendedAtYield
  | .runPost => state = .running ∧ pc = .suspendedAtYield
  | .terminateLoad => state = .initialized
  | .terminateLoadAgain => state = .initialized
  | .terminateStoreInitialized => state = .initialized
  | .terminateNotifyInitialized => state = .terminated
  | .terminateAsync => state = .terminated
  | .terminatePost => state = .terminated ∧ pc ≠ .yield
  | .terminateStoreOtherwise => state = .initialized
  | _ => False

/-- The promise has been renewed since the yield. -/
def ControllerPc.hasRenewed : ControllerPc → Bool
  | .runPost => true
  | .terminatePost => true
  | _ => false

/-- The coroutine starts, or has failed to. -/
structure Starting (state : State Name User Message Client) : Prop where
  place : state.current.pc.starting = true
  controller : state.controller.early = true
  initialises :
    state.controller.initialises = true →
      state.current.pc = .created ∧ state.current.tasks = 0
  stored :
    state.controller ≠ .initStore →
      state.shared.state ≠ .running ∧ state.shared.state ≠ .initialized
  returned :
    ∀ future, (state.generation, future) ∈ state.returned →
      state.current.pc.disposed = true ∧ future = .resolved
  tasks_le : state.current.tasks ≤ 1
  tasks : state.current.pc ≠ .created → state.current.tasks = 0

/-- The coroutine is at its yield, and nobody has resumed it. -/
structure AtYield (state : State Name User Message Client) : Prop where
  place : state.current.pc.atYield = true
  controller : Yielding state.shared.state state.current.pc state.controller
  returned : ∀ future, (state.generation, future) ∉ state.returned
  tasks : state.current.tasks = 0
  pending :
    state.controller.hasRenewed = true →
      state.promises state.current.promise = none

/-- The coroutine has been resumed, and its promise is that of `future_res`. -/
structure Resumed (state : State Name User Message Client) : Prop where
  place : state.current.pc.resumed = true
  controller : state.controller.late = true
  stored : state.shared.state ≠ .initialized
  futureRes_eq : state.futureRes = some state.current.promise
  returned :
    ∀ future, (state.generation, future) ∈ state.returned →
      future = .shared (some state.current.promise) ∨
        state.current.pc.disposed = true ∧ future = .resolved
  pending :
    state.current.pc ≠ .finished →
      state.promises state.current.promise = none
  settled :
    state.current.pc = .finished →
      state.promises state.current.promise ≠ none

/-- The phases, and the bookkeeping of promises and returned futures. -/
structure Orders (state : State Name User Message Client) : Prop where
  phase : Starting state ∨ AtYield state ∨ Resumed state
  tags : ∀ entry, entry ∈ state.returned → entry.1 ≤ state.generation
  older :
    ∀ entry, entry ∈ state.returned → entry.1 ≠ state.generation →
      state.isResolved entry.2 = true
  allocated : state.current.promise < state.promiseCount
  fresh : ∀ name, state.promiseCount ≤ name → state.promises name = none

section

variable {state target : State Name User Message Client}

/-- What was resolved stays resolved. -/
theorem State.isResolved_of_kept
    (kept :
      ∀ name, state.promises name ≠ none → target.promises name ≠ none)
    {future : TerminateFuture} (resolved : state.isResolved future = true) :
    target.isResolved future = true := by
  cases future with
  | resolved => rfl
  | shared promise =>
      cases promise with
      | none => exact Bool.noConfusion resolved
      | some promise =>
          have stored : state.promises promise ≠ none :=
            Option.isSome_iff_ne_none.mp resolved
          exact Option.isSome_iff_ne_none.mpr (kept promise stored)

/-- The bookkeeping after a step of anyone but `AsyncInit`. -/
theorem Orders.of_phase (orders : Orders state)
    (phase : Starting target ∨ AtYield target ∨ Resumed target)
    (generation_eq : target.generation = state.generation)
    (returned :
      ∀ entry, entry ∈ target.returned →
        entry ∈ state.returned ∨ entry.1 = state.generation)
    (kept :
      ∀ name, state.promises name ≠ none → target.promises name ≠ none)
    (allocated : target.current.promise < target.promiseCount)
    (fresh :
      ∀ name, target.promiseCount ≤ name → target.promises name = none) :
    Orders target := by
  constructor
  · exact phase
  · intro entry member
    rw [generation_eq]
    rcases returned entry member with older | recent
    · exact orders.tags entry older
    · exact Nat.le_of_eq recent
  · intro entry member different
    rw [generation_eq] at different
    rcases returned entry member with older | recent
    · exact State.isResolved_of_kept kept (orders.older entry older different)
    · exact absurd recent different
  · exact allocated
  · exact fresh

/-! ## The controller -/

/-- The controller moves on without touching anything of the coroutine. -/
theorem Starting.of_controller (starting : Starting state)
    (left : state.controller ≠ .initStore)
    (current_eq : target.current = state.current)
    (state_eq : target.shared.state = state.shared.state)
    (generation_eq : target.generation = state.generation)
    (returned_eq : target.returned = state.returned)
    (early : target.controller.early = true)
    (outside : target.controller.initialises = false) : Starting target := by
  constructor
  · rw [current_eq]
    exact starting.place
  · exact early
  · intro inside
    exact absurd (outside.symm.trans inside) (by decide)
  · rw [state_eq]
    exact fun _ => starting.stored left
  · rw [current_eq, generation_eq, returned_eq]
    exact starting.returned
  · rw [current_eq]
    exact starting.tasks_le
  · rw [current_eq]
    exact starting.tasks

theorem Starting.controllerMove {pc : ControllerPc} (starting : Starting state)
    (place : state.controller = pc) (move : ControllerMove state pc target)
    (ordered : terminatesInOrder state .controller) : Starting target := by
  have early := starting.controller
  rw [place] at early
  have stored (left : pc ≠ .initStore) := starting.stored (place ▸ left)
  cases move with
  | initStores =>
      have inside := starting.initialises (by rw [place]; rfl)
      exact
        ⟨starting.place, rfl, fun _ => inside, fun _ => by simp,
          starting.returned, starting.tasks_le, starting.tasks⟩
  | initRenews =>
      have inside := starting.initialises (by rw [place]; rfl)
      constructor
      · simpa using starting.place
      · rfl
      · simpa using fun _ => inside
      · exact fun _ => stored (by decide)
      · simpa using starting.returned
      · simpa using starting.tasks_le
      · simpa using starting.tasks
  | initPosts =>
      have inside := starting.initialises (by rw [place]; rfl)
      constructor
      · simpa using starting.place
      · rfl
      · exact fun again => Bool.noConfusion again
      · exact fun _ => stored (by decide)
      · simpa using starting.returned
      · simp [inside.2]
      · intro elsewhere
        exact absurd inside.1 (by simpa using elsewhere)
  | runRefused other =>
      exact starting.of_controller (by rw [place]; decide) rfl rfl rfl rfl rfl rfl
  | runAccepted initialized => exact absurd initialized (stored (by decide)).2
  | terminateRunning running => exact absurd running (stored (by decide)).1
  | terminateOther other =>
      exact starting.of_controller (by rw [place]; decide) rfl rfl rfl rfl rfl rfl
  | terminateInitialized initialized =>
      exact absurd initialized (stored (by decide)).2
  | terminateNeither other =>
      exact starting.of_controller (by rw [place]; decide) rfl rfl rfl rfl rfl rfl
  | terminateStoresOtherwise =>
      have disposed := ordered.1 place
      constructor
      · exact starting.place
      · rfl
      · exact fun again => Bool.noConfusion again
      · exact fun _ => by simp
      · intro future member
        rcases List.mem_cons.mp member with added | older
        · exact ⟨disposed, (Prod.mk.inj added).2⟩
        · exact starting.returned future older
      · exact starting.tasks_le
      · exact starting.tasks
  | _ => exact Bool.noConfusion early

/-- The controller moves on before the promise is renewed. -/
theorem AtYield.of_controller (atYield : AtYield state)
    (current_eq : target.current = state.current)
    (generation_eq : target.generation = state.generation)
    (returned_eq : target.returned = state.returned)
    (controller :
      Yielding target.shared.state state.current.pc target.controller)
    (renewed : target.controller.hasRenewed = false) : AtYield target := by
  constructor
  · rw [current_eq]
    exact atYield.place
  · rw [current_eq]
    exact controller
  · rw [generation_eq, returned_eq]
    exact atYield.returned
  · rw [current_eq]
    exact atYield.tasks
  · intro has
    exact absurd (renewed.symm.trans has) (by decide)

/-- The promise is renewed. -/
theorem AtYield.of_initPromise (atYield : AtYield state)
    (fresh : state.promises state.promiseCount = none) (after : ControllerPc)
    (controller : Yielding state.shared.state state.current.pc after) :
    AtYield (state.initPromise.setController after) := by
  constructor
  · simpa using atYield.place
  · simpa using controller
  · exact atYield.returned
  · simpa using atYield.tasks
  · simpa using fun _ => fresh

/-- The coroutine is resumed and `future_res` is set. -/
theorem AtYield.resumed (atYield : AtYield state)
    (place : state.current.pc ≠ .yield)
    (renewed : state.controller.hasRenewed = true)
    (current_eq : target.current = state.post.current)
    (promises_eq : target.promises = state.promises)
    (futureRes_eq : target.futureRes = some state.current.promise)
    (controller : target.controller.late = true)
    (stored : target.shared.state ≠ .initialized)
    (returned :
      ∀ future, (target.generation, future) ∈ target.returned →
        future = .shared (some state.current.promise)) : Resumed target := by
  have where_ := atYield.place
  constructor
  · rw [current_eq, State.post_current]
    cases here : state.current.pc <;> simp_all [LoopPc.atYield, LoopPc.resumed]
  · exact controller
  · exact stored
  · rw [current_eq, State.post_current]
    exact futureRes_eq
  · rw [current_eq, State.post_current]
    exact fun future member => .inl (returned future member)
  · rw [current_eq, State.post_current, promises_eq]
    exact fun _ => atYield.pending renewed
  · rw [current_eq, State.post_current]
    intro finished
    replace finished : state.current.pc = .finished := finished
    rw [finished] at where_
    exact Bool.noConfusion where_

theorem AtYield.controllerMove {pc : ControllerPc} (atYield : AtYield state)
    (place : state.controller = pc) (move : ControllerMove state pc target)
    (ordered : terminatesInOrder state .controller)
    (fresh : state.promises state.promiseCount = none) :
    AtYield target ∨ Resumed target := by
  have yielding := atYield.controller
  rw [place] at yielding
  cases move with
  | runRefused other => exact absurd yielding other
  | runAccepted initialized =>
      exact .inl (atYield.of_controller rfl rfl rfl yielding rfl)
  | runCompleted completed =>
      exact .inl (atYield.of_controller rfl rfl rfl yielding rfl)
  | runChecked suspended =>
      left
      refine atYield.of_controller rfl rfl rfl ⟨yielding, ?_⟩ rfl
      have here := atYield.place
      unfold Coroutine.isCompleted at suspended
      cases at_pc : state.current.pc <;>
        simp_all [LoopPc.atYield]
  | runStores =>
      exact .inl (atYield.of_controller rfl rfl rfl ⟨rfl, yielding.2⟩ rfl)
  | runRenews => exact .inl (atYield.of_initPromise fresh _ yielding)
  | runPosts =>
      right
      refine atYield.resumed ?_ (by rw [place]; rfl) rfl rfl ?_ rfl ?_ ?_
      · simp [yielding.2]
      · simp
      · simp [yielding.1]
      · exact fun future member => absurd member (atYield.returned future)
  | terminateRunning running =>
      exact absurd (Eq.trans (Eq.symm yielding) running) (by decide)
  | terminateOther other =>
      exact .inl (atYield.of_controller rfl rfl rfl yielding rfl)
  | terminateInitialized initialized =>
      exact .inl (atYield.of_controller rfl rfl rfl yielding rfl)
  | terminateNeither other => exact absurd yielding other
  | terminateStoresInitialized =>
      exact .inl (atYield.of_controller rfl rfl rfl rfl rfl)
  | terminateNotifiesInitialized =>
      exact .inl (atYield.of_controller rfl rfl rfl yielding rfl)
  | terminateRenews =>
      exact .inl (atYield.of_initPromise fresh _ ⟨yielding, ordered.2 place⟩)
  | terminatePosts =>
      right
      refine atYield.resumed yielding.2 (by rw [place]; rfl) rfl rfl ?_ rfl ?_ ?_
      · simp
      · simp [yielding.1]
      · intro future member
        rcases List.mem_cons.mp member with added | older
        · exact (Prod.mk.inj added).2
        · exact absurd older (atYield.returned future)
  | terminateStoresOtherwise =>
      have disposed := ordered.1 place
      have here := atYield.place
      cases at_pc : state.current.pc <;>
        simp_all [LoopPc.atYield, LoopPc.disposed]
  | _ => exact yielding.elim

/-- The controller moves on without touching anything of the coroutine. -/
theorem Resumed.of_controller (resumed : Resumed state)
    (current_eq : target.current = state.current)
    (generation_eq : target.generation = state.generation)
    (promises_eq : target.promises = state.promises)
    (futureRes_eq : target.futureRes = state.futureRes)
    (late : target.controller.late = true)
    (stored : target.shared.state ≠ .initialized)
    (returned :
      ∀ future, (state.generation, future) ∈ target.returned →
        future = .shared (some state.current.promise) ∨
          state.current.pc.disposed = true ∧ future = .resolved) :
    Resumed target := by
  constructor
  · rw [current_eq]
    exact resumed.place
  · exact late
  · exact stored
  · rw [current_eq, futureRes_eq]
    exact resumed.futureRes_eq
  · rw [current_eq, generation_eq]
    exact returned
  · rw [current_eq, promises_eq]
    exact resumed.pending
  · rw [current_eq, promises_eq]
    exact resumed.settled

theorem Resumed.controllerMove {pc : ControllerPc} (resumed : Resumed state)
    (place : state.controller = pc) (move : ControllerMove state pc target)
    (ordered : terminatesInOrder state .controller) : Resumed target := by
  have late := resumed.controller
  rw [place] at late
  cases move with
  | runRefused other =>
      exact resumed.of_controller rfl rfl rfl rfl rfl resumed.stored
        resumed.returned
  | runAccepted initialized => exact absurd initialized resumed.stored
  | terminateRunning running =>
      exact resumed.of_controller rfl rfl rfl rfl rfl resumed.stored
        resumed.returned
  | terminateOther other =>
      exact resumed.of_controller rfl rfl rfl rfl rfl resumed.stored
        resumed.returned
  | terminateStores =>
      exact resumed.of_controller rfl rfl rfl rfl rfl (by simp) resumed.returned
  | terminateNotifies =>
      refine resumed.of_controller rfl rfl rfl rfl rfl resumed.stored ?_
      intro future member
      rcases List.mem_cons.mp member with added | older
      · left
        rw [(Prod.mk.inj added).2, resumed.futureRes_eq]
      · exact resumed.returned future older
  | terminateInitialized initialized => exact absurd initialized resumed.stored
  | terminateNeither other =>
      exact resumed.of_controller rfl rfl rfl rfl rfl resumed.stored
        resumed.returned
  | terminateStoresOtherwise =>
      refine resumed.of_controller rfl rfl rfl rfl rfl (by simp) ?_
      intro future member
      rcases List.mem_cons.mp member with added | older
      · exact .inr ⟨ordered.1 place, (Prod.mk.inj added).2⟩
      · exact resumed.returned future older
  | _ => exact Bool.noConfusion late

end

/-! ## The coroutine -/

section

variable {pc after : LoopPc Name} {controller : ControllerPc}
variable {kernelState : KernelState}

/-- The coroutine takes a step towards its suspension. -/
theorem Yielding.of_forward (yielding : Yielding kernelState pc controller)
    (unparked : pc.parked = false) (forward : after ≠ .yield) :
    Yielding kernelState after controller := by
  have never {state : KernelState}
      (waits : kernelState = state ∧ pc = .suspendedAtYield) : False := by
    rw [waits.2] at unparked
    exact Bool.noConfusion unparked
  cases controller with
  | runStore => exact (never yielding).elim
  | runAsync => exact (never yielding).elim
  | runPost => exact (never yielding).elim
  | terminatePost => exact ⟨yielding.1, forward⟩
  | _ => exact yielding

/-- The promise is renewed only after the yield. -/
theorem Yielding.past (yielding : Yielding kernelState pc controller)
    (renewed : controller.hasRenewed = true) : pc ≠ .yield := by
  cases controller with
  | runPost => simp [yielding.2]
  | terminatePost => exact yielding.2
  | _ => exact Bool.noConfusion renewed

theorem settles_eq_false_of_atYield (atYield : pc.atYield = true)
    (past : pc ≠ .yield) : pc.settles = false := by
  cases pc with
  | yield => exact absurd rfl past
  | _ => first | rfl | exact Bool.noConfusion atYield

end


/-- An exception is a standard one, and is not thrown by the last `OnDispose`. -/
def Contained (pc : LoopPc Name) (choice : Choice Name) : Prop :=
  ∀ standard, choice = .throws standard →
    standard = true ∧ pc ≠ .catchDispose

section

variable {pc after : LoopPc Name}

theorem resumed_of_inside (inside : pc.updates = true ∨ pc.listens = true) :
    pc.resumed = true := by
  cases pc <;> first | rfl | simp [LoopPc.updates, LoopPc.listens] at inside

variable [DecidableEq Name] {config : Config Name} {choice : Choice Name}
variable {kernel moved : Shared Name User Message Client}

theorem Move.disposed (move : Move config kernel pc choice moved after)
    (disposed : pc.disposed = true) : after.disposed = true := by
  cases move <;> first | rfl | exact Bool.noConfusion disposed

theorem Move.starting (move : Move config kernel pc choice moved after)
    (starting : pc.starting = true) (contained : Contained pc choice) :
    after.starting = true ∨ pc = .storeInitialized ∧ after = .yield := by
  have caught {standard : Bool} (throws : choice = .throws standard) :
      (unwind standard : LoopPc Name).starting = true := by
    rw [(contained standard throws).1]
    rfl
  cases move with
  | storesInitialized => exact .inr ⟨rfl, rfl⟩
  | initThrows standard => exact .inl (caught rfl)
  | initFailedThrows error standard => exact .inl (caught rfl)
  | catchThrows standard => exact absurd rfl (contained standard rfl).2
  | _ => first | exact .inl rfl | exact Bool.noConfusion starting

theorem Move.state_of_storeInitialized
    (move : Move config kernel .storeInitialized choice moved after) :
    moved.state = .initialized := by
  cases move
  rfl

theorem Move.resumed (move : Move config kernel pc choice moved after)
    (resumed : pc.resumed = true) (contained : Contained pc choice) :
    after.resumed = true := by
  have caught {standard : Bool} (throws : choice = .throws standard) :
      (unwind standard : LoopPc Name).resumed = true := by
    rw [(contained standard throws).1]
    rfl
  cases move with
  | processThrows events drained standard => exact caught rfl
  | disposeThrows standard => exact caught rfl
  | initThrows standard => exact caught rfl
  | initFailedThrows error standard => exact caught rfl
  | catchThrows standard => exact absurd rfl (contained standard rfl).2
  | findsSubscribers caller free =>
      exact resumed_of_inside (.inl (updates_afterWait caller))
  | flushed place =>
      cases place with
      | afterSubscription caller =>
          exact resumed_of_inside (.inl (updates_afterWait caller))
      | _ => rfl
  | awaits point ready =>
      exact resumed_of_inside (.inl (updates_dispatch config _ point))
  | wakes point ready =>
      exact resumed_of_inside (.inl (updates_dispatch config _ point))
  | processed events drained =>
      exact resumed_of_inside (.inl (updates_dispatchTerminate config events))
  | activates events =>
      exact resumed_of_inside (.inl (updates_dispatchUnsubscription events))
  | _ => first | rfl | exact Bool.noConfusion resumed

/-- An unparked coroutine at its yield goes on to be suspended there. -/
theorem Move.stays_atYield (move : Move config kernel pc choice moved after)
    (atYield : pc.atYield = true) (unparked : pc.parked = false) :
    after.atYield = true ∧ moved = kernel ∧ after ≠ .yield := by
  cases move with
  | yields => exact ⟨rfl, rfl, by simp⟩
  | suspends => exact ⟨rfl, rfl, by simp⟩
  | resumes => exact Bool.noConfusion unparked
  | _ => exact Bool.noConfusion atYield

/-- The last step of a coroutine resolves its promise. -/
theorem Move.settles_of_finished
    (move : Move config kernel pc choice moved after)
    (finished : after = .finished) : pc.settles = true := by
  have ended : after.ended = true := by
    rw [finished]
    rfl
  have impossible {place : LoopPc Name} (inside : place.updates = true)
      (stopped : place.ended = true) : pc.settles = true := by
    cases place <;> simp_all [LoopPc.updates, LoopPc.ended]
  cases move with
  | resolves outcome => rfl
  | initThrows standard => cases standard <;> exact Bool.noConfusion ended
  | initFailedThrows error standard =>
      cases standard <;> exact Bool.noConfusion ended
  | processThrows events drained standard =>
      cases standard <;> exact Bool.noConfusion ended
  | disposeThrows standard => cases standard <;> exact Bool.noConfusion ended
  | findsSubscribers caller free =>
      exact impossible (updates_afterWait caller) ended
  | flushed place =>
      cases place with
      | afterSubscription caller =>
          exact impossible (updates_afterWait caller) ended
      | _ => exact Bool.noConfusion ended
  | awaits point ready => exact impossible (updates_dispatch config _ point) ended
  | wakes point ready => exact impossible (updates_dispatch config _ point) ended
  | processed events drained =>
      exact impossible (updates_dispatchTerminate config events) ended
  | activates events =>
      exact impossible (updates_dispatchUnsubscription events) ended
  | _ => first | rfl | exact Bool.noConfusion ended

/-- After the yield only the last step resolves the promise. -/
theorem Move.finished_of_settles
    (move : Move config kernel pc choice moved after)
    (resumed : pc.resumed = true) (settles : pc.settles = true) :
    after = .finished := by
  cases move with
  | resolves outcome => rfl
  | yields => exact Bool.noConfusion resumed
  | escapes => exact Bool.noConfusion resumed
  | _ => exact Bool.noConfusion settles

end

section

variable [DecidableEq Name] {config : Config Name} {choice : Choice Name}
variable {state target : State Name User Message Client}

/-- A coroutine that starts goes on, fails, or comes to its yield. -/
theorem Starting.coroutineStep (starting : Starting state)
    (step : CoroutineStep config state target state.generation choice)
    (contained : Contained state.current.pc choice) :
    Starting target ∨ AtYield target := by
  have move := step.move_current
  -- nobody resumes the coroutine before `AsyncInit` has posted it
  have outside : state.controller.initialises = false := by
    by_contra inside
    have created := starting.initialises (by simpa using inside)
    apply step.posted
    · rw [show state.pc state.generation = .created from created.1]
      rfl
    · exact created.2
  have stored := starting.stored (by
    intro storing
    rw [storing] at outside
    exact Bool.noConfusion outside)
  have tasks : target.current.tasks = 0 := by
    rw [step.current_eq, step.tasks_eq]
    by_cases created : state.current.pc = .created
    · rw [show state.pc state.generation = .created from created]
      exact Nat.sub_eq_zero_of_le starting.tasks_le
    · have none_left := starting.tasks created
      have same : (state.coroutines state.generation).tasks = 0 := none_left
      split <;> simp [same]
  rcases move.starting starting.place contained with goes_on | ⟨storing, at_yield⟩
  · left
    constructor
    · exact goes_on
    · rw [step.controller_eq]
      exact starting.controller
    · rw [step.controller_eq, outside]
      exact fun inside => Bool.noConfusion inside
    · intro _
      rcases move.state_cases with
        same | terminated | ⟨-, at_yield, -⟩ | ⟨running, -⟩
      · rw [same]
        exact stored
      · simp [terminated]
      · rw [at_yield] at goes_on
        exact Bool.noConfusion goes_on
      · have place := starting.place
        rw [running] at place
        exact Bool.noConfusion place
    · rw [step.generation_eq, step.returned_eq]
      intro future member
      rcases starting.returned future member with ⟨disposed, resolved⟩
      exact ⟨move.disposed disposed, resolved⟩
    · omega
    · exact fun _ => tasks
  · right
    have stores_initialized : target.shared.state = .initialized := by
      rw [storing] at move
      exact move.state_of_storeInitialized
    constructor
    · rw [at_yield]
      rfl
    · have early := starting.controller
      rw [step.controller_eq, stores_initialized]
      cases at_controller : state.controller <;>
        simp_all [ControllerPc.early, ControllerPc.initialises, Yielding]
    · rw [step.generation_eq, step.returned_eq]
      intro future member
      have disposed := (starting.returned future member).1
      rw [storing] at disposed
      exact Bool.noConfusion disposed
    · exact tasks
    · have early := starting.controller
      rw [step.controller_eq]
      cases at_controller : state.controller <;>
        simp_all [ControllerPc.early, ControllerPc.hasRenewed]

/-- Nobody resumes the coroutine, so it stays at its yield. -/
theorem AtYield.coroutineStep (atYield : AtYield state)
    (step : CoroutineStep config state target state.generation choice) :
    AtYield target := by
  have parked : (state.pc state.generation).parked = false := by
    by_contra waits
    exact step.posted (by simpa using waits) atYield.tasks
  have promise_eq : target.current.promise = state.current.promise := by
    rw [step.current_eq]
    exact step.promise_eq
  rcases step.move_current.stays_atYield atYield.place parked with
    ⟨stays, shared_eq, forward⟩
  constructor
  · exact stays
  · rw [step.controller_eq, shared_eq]
    exact atYield.controller.of_forward parked forward
  · rw [step.generation_eq, step.returned_eq]
    exact atYield.returned
  · rw [step.current_eq, step.tasks_eq, parked]
    exact atYield.tasks
  · rw [step.controller_eq, promise_eq]
    intro renewed
    have past := atYield.controller.past renewed
    have unsettled := settles_eq_false_of_atYield atYield.place past
    rw [step.promises_eq _ (.inr unsettled)]
    exact atYield.pending renewed

/-- A resumed coroutine keeps its promise pending until it has disposed. -/
theorem Resumed.coroutineStep (resumed : Resumed state)
    (step : CoroutineStep config state target state.generation choice)
    (contained : Contained state.current.pc choice) : Resumed target := by
  have move := step.move_current
  have promise_eq : target.current.promise = state.current.promise := by
    rw [step.current_eq]
    exact step.promise_eq
  constructor
  · exact move.resumed resumed.place contained
  · rw [step.controller_eq]
    exact resumed.controller
  · rcases move.state_cases with
      same | terminated | ⟨storing, -, -⟩ | ⟨-, running⟩
    · rw [same]
      exact resumed.stored
    · simp [terminated]
    · have place := resumed.place
      rw [storing] at place
      exact Bool.noConfusion place
    · simp [running]
  · rw [step.futureRes_eq, promise_eq]
    exact resumed.futureRes_eq
  · rw [step.generation_eq, step.returned_eq, promise_eq]
    intro future member
    rcases resumed.returned future member with promised | ⟨disposed, resolved⟩
    · exact .inl promised
    · exact .inr ⟨move.disposed disposed, resolved⟩
  · intro unfinished
    have unsettled : state.current.pc.settles = false := by
      by_contra settles
      exact unfinished
        (move.finished_of_settles resumed.place (by simpa using settles))
    rw [promise_eq, step.promises_eq _ (.inr unsettled)]
    apply resumed.pending
    intro finished
    have ended := move.ended_eq_false
    rw [finished] at ended
    exact Bool.noConfusion ended
  · intro finished
    rw [promise_eq]
    exact step.satisfied (move.settles_of_finished finished)

end

/-! ## Runs -/

section

variable {state target : State Name User Message Client}

/-- A controller returns futures, and resolves none. -/
theorem ControllerMove.returned_cases {pc : ControllerPc}
    (move : ControllerMove state pc target) :
    ∀ entry, entry ∈ target.returned →
      entry ∈ state.returned ∨ entry.1 = state.generation := by
  have added (future : TerminateFuture) (entry : ℕ × TerminateFuture)
      (member : entry ∈ (state.generation, future) :: state.returned) :
      entry ∈ state.returned ∨ entry.1 = state.generation := by
    rcases List.mem_cons.mp member with rfl | older
    · exact .inr rfl
    · exact .inl older
  cases move with
  | terminateNotifies => exact added _
  | terminatePosts => exact added _
  | terminateStoresOtherwise => exact added _
  | _ => exact fun _ => .inl

theorem ControllerMove.promises_eq {pc : ControllerPc}
    (move : ControllerMove state pc target) :
    target.promises = state.promises ∧
      state.promiseCount ≤ target.promiseCount := by
  cases move <;> exact ⟨rfl, by simp⟩

theorem ControllerMove.allocated {pc : ControllerPc}
    (move : ControllerMove state pc target)
    (allocated : state.current.promise < state.promiseCount) :
    target.current.promise < target.promiseCount := by
  cases move <;> simp [allocated]

theorem Orders.controllerMove (orders : Orders state)
    (move : ControllerMove state state.controller target)
    (ordered : terminatesInOrder state .controller) : Orders target := by
  refine orders.of_phase ?_ move.effect.generation_eq move.returned_cases ?_
    (move.allocated orders.allocated) ?_
  · rcases orders.phase with starting | atYield | resumed
    · exact .inl (starting.controllerMove rfl move ordered)
    · exact .inr (atYield.controllerMove rfl move ordered
        (orders.fresh _ (Nat.le_refl _)))
    · exact .inr (.inr (resumed.controllerMove rfl move ordered))
  · rw [move.promises_eq.1]
    exact fun _ stored => stored
  · intro name unallocated
    rw [move.promises_eq.1]
    exact orders.fresh name (Nat.le_trans move.promises_eq.2 unallocated)

/-- The futures of an ended coroutine are all resolved. -/
theorem Orders.isResolved_of_ended (orders : Orders state)
    (ended : state.current.pc.ended = true) (entry : ℕ × TerminateFuture)
    (member : entry ∈ state.returned) : state.isResolved entry.2 = true := by
  rcases entry with ⟨tag, future⟩
  by_cases recent : tag = state.generation
  · subst recent
    rcases orders.phase with starting | atYield | resumed
    · rw [(starting.returned future member).2]
      rfl
    · exact absurd member (atYield.returned future)
    · rcases resumed.returned future member with promised | ⟨-, resolved⟩
      · have finished : state.current.pc = .finished := by
          have place := resumed.place
          cases at_pc : state.current.pc <;>
            simp_all [LoopPc.ended, LoopPc.resumed]
        rw [promised]
        exact Option.isSome_iff_ne_none.mpr (resumed.settled finished)
      · rw [resolved]
        rfl
  · exact orders.older (tag, future) member recent

/-- `AsyncInit` starts a coroutine for which no future has been returned. -/
theorem Orders.asyncInit (orders : Orders state)
    (ended : state.current.pc.ended = true) :
    Orders (state.makeCoroutine.setController .initStore) := by
  have created :
      (state.makeCoroutine.setController .initStore).current =
        { pc := .created, promise := state.promiseCount, tasks := 0, log := [] } := by
    simp [State.current]
  constructor
  · left
    constructor
    · rw [created]
      rfl
    · rfl
    · rw [created]
      exact fun _ => ⟨rfl, rfl⟩
    · exact fun left => absurd rfl left
    · intro future member
      exact absurd (orders.tags _ member) (Nat.not_succ_le_self _)
    · rw [created]
      exact Nat.zero_le 1
    · rw [created]
      exact fun _ => rfl
  · exact fun entry member => Nat.le_succ_of_le (orders.tags entry member)
  · intro entry member _
    exact orders.isResolved_of_ended ended entry member
  · rw [created]
    exact Nat.lt_succ_self _
  · intro name unallocated
    exact orders.fresh name (Nat.le_of_succ_le unallocated)

/-- A call of `Run` or `AsyncTerminate` begins. -/
theorem Orders.beginCall (orders : Orders state)
    (idle : state.controller = .idle) {pc : ControllerPc}
    (begins : pc = .runLoad ∨ pc = .terminateLoad) :
    Orders (state.beginCall pc) := by
  refine orders.of_phase ?_ rfl (fun _ => .inl) (fun _ => id) orders.allocated
    orders.fresh
  rcases orders.phase with starting | atYield | resumed
  · left
    refine starting.of_controller (by simp [idle]) rfl rfl rfl rfl ?_ ?_ <;>
      rcases begins with rfl | rfl <;> rfl
  · right
    left
    have initialized := atYield.controller
    rw [idle] at initialized
    refine atYield.of_controller rfl rfl rfl ?_ ?_ <;>
      rcases begins with rfl | rfl
    · exact initialized
    · exact initialized
    · rfl
    · rfl
  · right
    right
    refine resumed.of_controller rfl rfl rfl rfl ?_ resumed.stored
      resumed.returned
    rcases begins with rfl | rfl <;> rfl

variable [DecidableEq Name] {config : Config Name} {choice : Choice Name}

theorem Orders.coroutineStep (orders : Orders state)
    (step : CoroutineStep config state target state.generation choice)
    (contained : Contained state.current.pc choice) : Orders target := by
  refine orders.of_phase ?_ step.generation_eq ?_ ?_ ?_ ?_
  · rcases orders.phase with starting | atYield | resumed
    · rcases starting.coroutineStep step contained with goes_on | at_yield
      · exact .inl goes_on
      · exact .inr (.inl at_yield)
    · exact .inr (.inl (atYield.coroutineStep step))
    · exact .inr (.inr (resumed.coroutineStep step contained))
  · rw [step.returned_eq]
    exact fun _ => .inl
  · intro name stored
    by_cases settled :
        name = (state.coroutines state.generation).promise ∧
          (state.pc state.generation).settles = true
    · rw [settled.1]
      exact step.satisfied settled.2
    · rw [not_and_or, Bool.not_eq_true] at settled
      rw [step.promises_eq name settled]
      exact stored
  · rw [step.current_eq, step.promise_eq, step.promiseCount_eq]
    exact orders.allocated
  · intro name unallocated
    rw [step.promiseCount_eq] at unallocated
    have later : name ≠ (state.coroutines state.generation).promise :=
      (Nat.ne_of_lt (Nat.lt_of_lt_of_le orders.allocated unallocated)).symm
    rw [step.promises_eq name (.inl later)]
    exact orders.fresh name unallocated

variable [DecidableEq User] {client : Client}

/-- A client does not see the coroutine. -/
theorem Orders.clientStep (orders : Orders state)
    (step : ClientStep config state target client) : Orders target := by
  have current_eq := step.current_eq
  have state_eq := step.move.state_eq
  refine orders.of_phase ?_ step.generation_eq ?_ ?_ ?_ ?_
  · rcases orders.phase with starting | atYield | resumed
    · left
      rcases starting with ⟨place, early, inside, stored, returned, le, tasks⟩
      constructor <;>
        simpa [current_eq, step.controller_eq, state_eq, step.generation_eq,
          step.returned_eq]
    · right
      left
      rcases atYield with ⟨place, yielding, returned, tasks, pending⟩
      constructor <;>
        simpa [current_eq, step.controller_eq, state_eq, step.generation_eq,
          step.returned_eq, step.promises_eq]
    · right
      right
      apply resumed.of_controller current_eq step.generation_eq step.promises_eq
        step.futureRes_eq
      · rw [step.controller_eq]
        exact resumed.controller
      · rw [state_eq]
        exact resumed.stored
      · rw [step.returned_eq]
        exact resumed.returned
  · rw [step.returned_eq]
    exact fun _ => .inl
  · rw [step.promises_eq]
    exact fun _ => id
  · rw [current_eq, step.promiseCount_eq]
    exact orders.allocated
  · rw [step.promiseCount_eq, step.promises_eq]
    exact orders.fresh

theorem Orders.step {action : Action Name User Message Client}
    (orders : Orders state) (attended : Attended state)
    (step : Step config state action target) (orderly : Orderly state action) :
    Orders target := by
  cases step with
  | asyncInit idle => exact orders.asyncInit orderly.restarts
  | run idle => exact orders.beginCall idle (.inl rfl)
  | asyncTerminate idle => exact orders.beginCall idle (.inr rfl)
  | controller move => exact orders.controllerMove move orderly.ordered
  | coroutine step =>
      obtain rfl := attended.index_eq step
      apply orders.coroutineStep step
      intro standard throws
      have contained := orderly.contained
      rw [throws] at contained
      exact contained
  | client step => exact orders.clientStep step

variable [DecidableEq Client]

theorem orders_of_reachable
    (reachable : (system User Message Client config).ReachableUnder Orderly state) :
    Orders state := by
  refine reachable.invariant ?_ ?_
  · rintro state rfl
    constructor
    · left
      constructor <;>
        simp [State.create, State.current, LoopPc.starting, ControllerPc.early,
          ControllerPc.initialises]
    · simp [State.create]
    · simp [State.create]
    · exact Nat.zero_lt_one
    · exact fun _ _ => rfl
  · intro source action target earlier orderly taken orders
    have attended :=
      attended_of_reachable (earlier.mono fun _ _ orderly => orderly.restarts)
    exact orders.step attended (step_of_next taken) orderly

/--
In every orderly run, while the coroutine of the last `AsyncInit` has begun
`OnInit` and has not returned from `OnDispose`, no future that `AsyncTerminate`
has returned since that `AsyncInit` is resolved, and those it had returned before
are resolved already.
-/
theorem terminate_future_pending
    (reachable : (system User Message Client config).ReachableUnder Orderly state)
    (live : state.current.pc.live = true) (entry : ℕ × TerminateFuture)
    (member : entry ∈ state.returned) :
    (entry.1 = state.generation → state.isResolved entry.2 = false) ∧
      (entry.1 ≠ state.generation → state.isResolved entry.2 = true) := by
  have orders := orders_of_reachable reachable
  have not_disposed : state.current.pc.disposed ≠ true := by
    intro disposed
    cases at_pc : state.current.pc <;>
      simp_all [LoopPc.live, LoopPc.disposed]
  constructor
  · rcases entry with ⟨tag, future⟩
    rintro rfl
    rcases orders.phase with starting | atYield | resumed
    · exact absurd (starting.returned future member).1 not_disposed
    · exact absurd member (atYield.returned future)
    · rcases resumed.returned future member with promised | ⟨disposed, -⟩
      · have unfinished : state.current.pc ≠ .finished := by
          intro finished
          rw [finished] at live
          exact Bool.noConfusion live
        rw [promised, State.isResolved, resumed.pending unfinished]
        rfl
      · exact absurd disposed not_disposed
  · exact orders.older entry member

end

instance (state : State Name User Message Client)
    (action : Action Name User Message Client) [DecidableEq Name] :
    Decidable (exceptionsContained state action) :=
  match action with
  | .coroutine index (.throws standard) =>
      inferInstanceAs (Decidable
        (standard = true ∧ state.pc index ≠ .catchDispose))
  | .coroutine _ .proceed => inferInstanceAs (Decidable True)
  | .coroutine _ (.initReturns _) => inferInstanceAs (Decidable True)
  | .coroutine _ (.processReads _) => inferInstanceAs (Decidable True)
  | .coroutine _ (.processReturns _) => inferInstanceAs (Decidable True)
  | .coroutine _ (.disposeReturns _) => inferInstanceAs (Decidable True)
  | .asyncInit | .run | .asyncTerminate => inferInstanceAs (Decidable True)
  | .controller | .call _ _ | .client _ => inferInstanceAs (Decidable True)

instance (state : State Name User Message Client)
    (action : Action Name User Message Client) [DecidableEq Name] :
    Decidable (terminatesInOrder state action) :=
  match action with
  | .controller =>
      inferInstanceAs (Decidable
        ((state.controller = .terminateStoreOtherwise →
            state.current.pc.disposed = true) ∧
          (state.controller = .terminateAsync → state.current.pc ≠ .yield)))
  | .asyncInit | .run | .asyncTerminate => inferInstanceAs (Decidable True)
  | .coroutine _ _ | .call _ _ | .client _ => inferInstanceAs (Decidable True)

instance (state : State Name User Message Client)
    (action : Action Name User Message Client) [DecidableEq Name] :
    Decidable (Orderly state action) :=
  decidable_of_iff
    (restartsEnded state action ∧ exceptionsContained state action ∧
      terminatesInOrder state action)
    ⟨fun ⟨restarts, contained, ordered⟩ => ⟨restarts, contained, ordered⟩,
      fun orderly => ⟨orderly.restarts, orderly.contained, orderly.ordered⟩⟩

/-- A running kernel is asked to terminate, and its coroutine disposes. -/
theorem terminate_future_pending_disposing :
    ∃ state : State ℕ ℕ ℕ Unit,
      (system ℕ ℕ Unit ⟨[0], [0], fun _ => 1⟩).ReachableUnder Orderly state ∧
        state.current.pc = .dispose ∧
        ∃ future, (state.generation, future) ∈ state.returned ∧
          state.isResolved future = false := by
  rcases TransitionSystem.exists_reachableUnder_of_run
      (system ℕ ℕ Unit ⟨[0], [0], fun _ => 1⟩) Orderly rfl
      [beginRun 1, [.asyncTerminate], List.replicate 3 .controller,
        List.replicate 3 (.coroutine 1 .proceed)].flatten
      (fun state =>
        decide (((state.generation, .shared (some 3)) :
          ℕ × TerminateFuture) ∈ state.returned) &&
          decide (state.current.pc = .dispose))
      (by decide +kernel) with ⟨state, reachable, facts⟩
  rw [Bool.and_eq_true, decide_eq_true_eq, decide_eq_true_eq] at facts
  refine ⟨state, reachable, facts.2, _, facts.1, ?_⟩
  have live : state.current.pc.live = true := by
    rw [facts.2]
    rfl
  exact (terminate_future_pending reachable live _ facts.1).1 rfl

/--
`AsyncTerminate` is called while `OnInit` runs, and its future is resolved at
once.
-/
theorem terminate_future_resolved_early :
    ¬ ∀ state : State ℕ ℕ ℕ Unit,
      (system ℕ ℕ Unit ⟨[0], [0], fun _ => 1⟩).Reachable state →
        state.current.pc.live = true →
          ∀ entry, entry ∈ state.returned → entry.1 = state.generation →
            state.isResolved entry.2 = false := by
  intro claim
  rcases TransitionSystem.exists_reachableUnder_of_run
      (system ℕ ℕ Unit ⟨[0], [0], fun _ => 1⟩) (fun _ _ => True) rfl
      [.asyncInit, .controller, .controller, .controller,
        .coroutine 1 .proceed, .asyncTerminate, .controller, .controller,
        .controller]
      (fun state =>
        decide (((state.generation, .resolved) : ℕ × TerminateFuture) ∈
          state.returned) && decide (state.current.pc = .onInit))
      (by decide +kernel) with ⟨state, reachable, facts⟩
  rw [Bool.and_eq_true, decide_eq_true_eq, decide_eq_true_eq] at facts
  have live : state.current.pc.live = true := by
    rw [facts.2]
    rfl
  exact Bool.noConfusion (claim state reachable live _ facts.1 rfl)

end AsyncRuntime.Kernel
