import AsyncRuntime.Kernel.System

/-!
# The cleanup of `AsyncLoop`

`OnInit`, `OnUpdate` and `OnDispose` are virtual, so a kernel may replace any of
them.  Here each is one step whose outcome is a choice: it returns, it throws a
`std::exception`, or it throws something else.  Around them stands `AsyncLoop`
with its three exits, one load or store of `state` at a time.

Any number of threads call `Run` and `AsyncTerminate`.  `Run` tests `state` and
the coroutine before it stores `kRUNNING`, and the three accesses are separate
steps.  The notifier is left out: nothing that a hook may wait for restricts the
outcomes considered here.
-/

namespace AsyncRuntime.Kernel.Cleanup

open AsyncRuntime.Foundation

universe u v

variable {Caller : Type v}

/-- How a call of a hook ends. -/
inductive HookOutcome (Value : Type u) where
  | returns (value : Value)
  | throwsException
  | throwsOther
  deriving DecidableEq

/-- How `AsyncLoop` ends. -/
inductive LoopResult where
  | returned (code : ℤ)
  | escaped
  deriving DecidableEq

/-- Where the coroutine is in `AsyncLoop`. -/
inductive LoopPc where
  | created
  | onInit
  | initFailedDispose (error : ℤ)
  | initFailedStore (error : ℤ)
  | storeInitialized
  | yield
  | suspendedAtYield
  | checkTerminated
  | storeRunning
  | loopTest
  | onUpdate
  | storeTerminated
  | dispose
  | catchStore
  | catchDispose
  | finished (result : LoopResult)
  deriving DecidableEq

/--
The kernel, its loop, the tasks that resume the loop, the calls of `OnDispose`
so far, and the threads inside `Run` or `AsyncTerminate`.
-/
structure State (Caller : Type v) where
  state : KernelState
  pc : LoopPc
  tasks : ℕ
  disposals : ℕ
  callers : Caller → ControllerPc

/-- A step of the loop; a hook comes with its outcome. -/
inductive LoopAction where
  | proceed
  | onInit (outcome : HookOutcome ℤ)
  | onUpdate (outcome : HookOutcome KernelProcessResult)
  | onDispose (outcome : HookOutcome ℤ)
  deriving DecidableEq

/-- The steps of the system; `completed` is what `is_completed` answers. -/
inductive Action (Caller : Type v) where
  | loop (action : LoopAction)
  | run (caller : Caller)
  | asyncTerminate (caller : Caller)
  | caller (caller : Caller) (completed : Bool)

/-! ## `AsyncLoop` -/

namespace State

@[simps]
def goto (kernel : State Caller) (pc : LoopPc) : State Caller :=
  { kernel with pc := pc }

/-- `state.store(..)` by the loop. -/
@[simps]
def store (kernel : State Caller) (state : KernelState) (pc : LoopPc) : State Caller :=
  { kernel with state := state, pc := pc }

/-- A call of `OnDispose` ends. -/
@[simps]
def disposed (kernel : State Caller) (pc : LoopPc) : State Caller :=
  { kernel with disposals := kernel.disposals + 1, pc := pc }

/-- A task resumes the coroutine, if one was posted. -/
def resume (kernel : State Caller) (pc : LoopPc) : Option (State Caller) :=
  if kernel.tasks = 0 then
    none
  else
    some { kernel with tasks := kernel.tasks - 1, pc := pc }

end State

/-- Where the `try` block is left to by an exception. -/
def thrown {Value : Type u} : HookOutcome Value → LoopPc
  | .throwsException => .catchStore
  | _ => .finished .escaped

/-- A step of `AsyncLoop`; `OnDispose` returns with the error code of the context. -/
def loopStep (kernel : State Caller) : LoopPc → LoopAction → Option (State Caller)
  | .created, .proceed => kernel.resume .onInit
  | .onInit, .onInit (.returns error) =>
      some (kernel.goto
        (if error = 0 then .storeInitialized else .initFailedDispose error))
  | .onInit, .onInit outcome => some (kernel.goto (thrown outcome))
  | .initFailedDispose error, .onDispose (.returns _) =>
      some (kernel.disposed (.initFailedStore error))
  | .initFailedDispose _, .onDispose outcome =>
      some (kernel.disposed (thrown outcome))
  | .initFailedStore error, .proceed =>
      some (kernel.store .terminated (.finished (.returned error)))
  | .storeInitialized, .proceed =>
      some (kernel.store .initialized .yield)
  | .yield, .proceed => some (kernel.goto .suspendedAtYield)
  | .suspendedAtYield, .proceed => kernel.resume .checkTerminated
  | .checkTerminated, .proceed =>
      some (kernel.goto
        (if kernel.state = .terminated then .storeTerminated else .storeRunning))
  | .storeRunning, .proceed => some (kernel.store .running .loopTest)
  | .loopTest, .proceed =>
      some (kernel.goto
        (if kernel.state = .terminated then .storeTerminated else .onUpdate))
  | .onUpdate, .onUpdate (.returns result) =>
      some (kernel.goto (if result = .next then .loopTest else .storeTerminated))
  | .onUpdate, .onUpdate outcome => some (kernel.goto (thrown outcome))
  | .storeTerminated, .proceed => some (kernel.store .terminated .dispose)
  | .dispose, .onDispose (.returns errorCode) =>
      some (kernel.disposed (.finished (.returned errorCode)))
  | .dispose, .onDispose outcome => some (kernel.disposed (thrown outcome))
  | .catchStore, .proceed => some (kernel.store .terminated .catchDispose)
  | .catchDispose, .onDispose (.returns _) =>
      some (kernel.disposed (.finished (.returned (-1))))
  | .catchDispose, .onDispose _ =>
      some (kernel.disposed (.finished .escaped))
  | _, _ => none

/-! ## `Run` and `AsyncTerminate` -/

/--
What `is_completed` may answer.  The continuation is stored while the coroutine is
suspended, and a hook may be suspended in an `Await` of its own.
-/
def LoopPc.mayAnswer : LoopPc → Bool → Bool
  | .created, completed => !completed
  | .suspendedAtYield, completed => !completed
  | .onInit, _ => true
  | .initFailedDispose _, _ => true
  | .onUpdate, _ => true
  | .dispose, _ => true
  | .catchDispose, _ => true
  | _, completed => completed

section

variable [DecidableEq Caller]

/-- A thread moves on in its call. -/
@[simps -fullyApplied]
def State.setCaller (kernel : State Caller) (caller : Caller) (pc : ControllerPc) :
    State Caller :=
  { kernel with callers := Function.update kernel.callers caller pc }

/-- `state.store(..)` by a thread inside its call. -/
@[simps! -fullyApplied]
def State.callerStore (kernel : State Caller) (caller : Caller) (state : KernelState)
    (pc : ControllerPc) : State Caller :=
  { kernel.setCaller caller pc with state := state }

/-- `Async(coroutine)` posts a task and the call returns. -/
@[simps! -fullyApplied]
def State.callerPost (kernel : State Caller) (caller : Caller) : State Caller :=
  { kernel.setCaller caller .idle with tasks := kernel.tasks + 1 }

/-- A step of a thread inside `Run` or `AsyncTerminate`. -/
def callerStep (kernel : State Caller) (caller : Caller) (completed : Bool) :
    Option (State Caller) :=
  match kernel.callers caller with
  | .runLoad =>
      some (kernel.setCaller caller
        (if kernel.state = .initialized then .runCheck else .idle))
  | .runCheck =>
      if kernel.pc.mayAnswer completed then
        some (kernel.setCaller caller (if completed then .idle else .runStore))
      else
        none
  | .runStore => some (kernel.callerStore caller .running .runPost)
  | .runPost => some (kernel.callerPost caller)
  | .terminateLoad =>
      some (kernel.setCaller caller
        (if kernel.state = .running then .terminateStore else .terminateLoadAgain))
  | .terminateStore => some (kernel.callerStore caller .terminated .idle)
  | .terminateLoadAgain =>
      some (kernel.setCaller caller
        (if kernel.state = .initialized then
          .terminateStoreInitialized
        else
          .terminateStoreOtherwise))
  | .terminateStoreInitialized =>
      some (kernel.callerStore caller .terminated .terminatePost)
  | .terminatePost => some (kernel.callerPost caller)
  | .terminateStoreOtherwise => some (kernel.callerStore caller .terminated .idle)
  | _ => none

/-- The step function of the system. -/
def next (kernel : State Caller) : Action Caller → Option (State Caller)
  | .loop action => loopStep kernel kernel.pc action
  | .run caller =>
      if kernel.callers caller = .idle then
        some (kernel.setCaller caller .runLoad)
      else
        none
  | .asyncTerminate caller =>
      if kernel.callers caller = .idle then
        some (kernel.setCaller caller .terminateLoad)
      else
        none
  | .caller caller completed => callerStep kernel caller completed

end

/-- `AsyncInit` has stored `kREADY` and posted its task. -/
def State.create : State Caller where
  state := .ready
  pc := .created
  tasks := 1
  disposals := 0
  callers := fun _ => .idle

/-- The loop of a kernel with its callers as a transition system. -/
def system (Caller : Type v) [DecidableEq Caller] :
    TransitionSystem (State Caller) (Action Caller) where
  initial := fun kernel => kernel = State.create
  next := next

/-! ## What a run must avoid -/

/-- The loop has made its last store of `kTERMINATED`. -/
def LoopPc.closed : LoopPc → Bool
  | .dispose => true
  | .catchDispose => true
  | .finished _ => true
  | _ => false

/--
The outcomes of `OnDispose` that each exit can bear.  The first two exits are inside
the `try` block, where a `std::exception` leads to a second call; the first one
stores `kTERMINATED` only after the call.
-/
def DisposeOrderly (kernel : State Caller) (outcome : HookOutcome ℤ) : LoopPc → Prop
  | .initFailedDispose _ =>
      outcome ≠ .throwsException ∧
        (outcome = .throwsOther → kernel.state = .terminated)
  | .dispose => outcome ≠ .throwsException
  | _ => True

/--
The steps after which the cleanup is still in order: no `OnInit` or `OnUpdate`
throws past the `catch` clause, `OnDispose` ends in a way that its exit can bear,
and no `Run` stores `kRUNNING` after the loop's last store of `kTERMINATED`.
-/
def Orderly (kernel : State Caller) : Action Caller → Prop
  | .loop (.onInit outcome) => outcome ≠ .throwsOther
  | .loop (.onUpdate outcome) => outcome ≠ .throwsOther
  | .loop (.onDispose outcome) => DisposeOrderly kernel outcome kernel.pc
  | .caller caller _ => kernel.callers caller = .runStore → kernel.pc.closed = false
  | _ => True

instance (kernel : State Caller) (outcome : HookOutcome ℤ) :
    DecidablePred (DisposeOrderly kernel outcome) := fun pc => by
  cases pc <;> unfold DisposeOrderly <;> infer_instance

instance (kernel : State Caller) : DecidablePred (Orderly kernel) := fun action =>
  match action with
  | .loop .proceed => inferInstanceAs (Decidable True)
  | .loop (.onInit outcome) => inferInstanceAs (Decidable (outcome ≠ .throwsOther))
  | .loop (.onUpdate outcome) => inferInstanceAs (Decidable (outcome ≠ .throwsOther))
  | .loop (.onDispose outcome) =>
      inferInstanceAs (Decidable (DisposeOrderly kernel outcome kernel.pc))
  | .run _ => inferInstanceAs (Decidable True)
  | .asyncTerminate _ => inferInstanceAs (Decidable True)
  | .caller caller _ =>
      inferInstanceAs
        (Decidable (kernel.callers caller = .runStore → kernel.pc.closed = false))

/-! ## The cleanup of an orderly run -/

/-- When the loop has finished, it has cleaned up exactly once. -/
def Cleaned (kernel : State Caller) : Prop :=
  ∀ result, kernel.pc = .finished result →
    kernel.disposals = 1 ∧ kernel.state = .terminated

/-- How many calls of `OnDispose` lie behind each place. -/
def LoopPc.disposals : LoopPc → ℕ
  | .initFailedStore _ => 1
  | .finished _ => 1
  | _ => 0

/-- What holds in every state of an orderly run. -/
structure Sound (kernel : State Caller) : Prop where
  disposals_eq : kernel.disposals = kernel.pc.disposals
  terminated_of_closed : kernel.pc.closed = true → kernel.state = .terminated

theorem Sound.cleaned {kernel : State Caller} (sound : Sound kernel) :
    Cleaned kernel := by
  intro result finished
  constructor
  · rw [sound.disposals_eq, finished]
    rfl
  · exact sound.terminated_of_closed (by rw [finished]; rfl)

/-- A step that neither disposes nor closes only has to keep the place's count. -/
theorem Sound.of_open {source target : State Caller} (sound : Sound source)
    (same : target.disposals = source.disposals)
    (count : target.pc.disposals = source.pc.disposals)
    (isOpen : target.pc.closed = false) : Sound target where
  disposals_eq := by rw [same, sound.disposals_eq, count]
  terminated_of_closed := by simp [isOpen]

/-- A step of a caller leaves the loop alone. -/
theorem Sound.of_same_loop {source target : State Caller} (sound : Sound source)
    (pc_eq : target.pc = source.pc) (disposals_eq : target.disposals = source.disposals)
    (state_cases :
      target.state = source.state ∨ target.state = .terminated ∨
        source.pc.closed = false) : Sound target where
  disposals_eq := by rw [disposals_eq, pc_eq, sound.disposals_eq]
  terminated_of_closed := by
    intro closed
    rw [pc_eq] at closed
    rcases state_cases with same | terminated | isOpen
    · rw [same]
      exact sound.terminated_of_closed closed
    · exact terminated
    · simp [isOpen] at closed

/-- What a step of a caller can do to the loop and to `state`. -/
theorem callerStep_cases [DecidableEq Caller] {source target : State Caller}
    {caller : Caller} {completed : Bool}
    (taken : callerStep source caller completed = some target) :
    target.pc = source.pc ∧ target.disposals = source.disposals ∧
      (target.state = source.state ∨ target.state = .terminated ∨
        source.callers caller = .runStore) := by
  unfold callerStep at taken
  cases place : source.callers caller with
  | runCheck =>
      simp only [place] at taken
      split at taken
      · cases taken
        exact ⟨rfl, rfl, .inl rfl⟩
      · simp at taken
  | runStore =>
      simp only [place] at taken
      cases taken
      exact ⟨rfl, rfl, .inr (.inr rfl)⟩
  | terminateStore | terminateStoreInitialized | terminateStoreOtherwise =>
      simp only [place] at taken
      cases taken
      exact ⟨rfl, rfl, .inr (.inl rfl)⟩
  | runLoad | runPost | terminateLoad | terminateLoadAgain | terminatePost =>
      simp only [place] at taken
      cases taken
      exact ⟨rfl, rfl, .inl rfl⟩
  | _ => simp [place] at taken

theorem resume_cases {source target : State Caller} {pc : LoopPc}
    (taken : source.resume pc = some target) :
    target.pc = pc ∧ target.disposals = source.disposals := by
  unfold State.resume at taken
  split at taken
  · cases taken
  · cases taken
    exact ⟨rfl, rfl⟩

/-- A load or store of `state`, a yield or a resumption. -/
theorem proceed_sound {source target : State Caller} (sound : Sound source)
    (taken : loopStep source source.pc .proceed = some target) : Sound target := by
  have count := sound.disposals_eq
  cases place : source.pc with
  | created | suspendedAtYield =>
      rw [place] at taken count
      obtain ⟨pc_eq, same⟩ := resume_cases taken
      exact sound.of_open same (by rw [pc_eq, place]; rfl) (by rw [pc_eq]; rfl)
  | storeInitialized | yield | storeRunning =>
      rw [place] at taken
      cases taken
      exact sound.of_open rfl (by rw [place]; rfl) rfl
  | checkTerminated | loopTest =>
      rw [place] at taken
      cases taken
      refine sound.of_open rfl ?_ ?_
      · by_cases stop : source.state = .terminated <;> simp [stop, place, LoopPc.disposals]
      · by_cases stop : source.state = .terminated <;> simp [stop, LoopPc.closed]
  | initFailedStore | storeTerminated | catchStore =>
      rw [place] at taken count
      cases taken
      exact ⟨count, fun _ => rfl⟩
  | _ =>
      rw [place] at taken
      cases taken

theorem onInit_sound {source target : State Caller} {outcome : HookOutcome ℤ}
    (sound : Sound source) (caught : outcome ≠ .throwsOther)
    (taken : loopStep source source.pc (.onInit outcome) = some target) :
    Sound target := by
  cases place : source.pc with
  | onInit =>
      rw [place] at taken
      cases outcome with
      | returns error =>
          cases taken
          refine sound.of_open rfl ?_ ?_
          · by_cases success : error = 0 <;> simp [success, place, LoopPc.disposals]
          · by_cases success : error = 0 <;> simp [success, LoopPc.closed]
      | throwsException =>
          cases taken
          exact sound.of_open rfl (by rw [place]; rfl) rfl
      | throwsOther => exact absurd rfl caught
  | _ =>
      rw [place] at taken
      cases taken

theorem onUpdate_sound {source target : State Caller}
    {outcome : HookOutcome KernelProcessResult} (sound : Sound source)
    (caught : outcome ≠ .throwsOther)
    (taken : loopStep source source.pc (.onUpdate outcome) = some target) :
    Sound target := by
  cases place : source.pc with
  | onUpdate =>
      rw [place] at taken
      cases outcome with
      | returns result =>
          cases taken
          refine sound.of_open rfl ?_ ?_
          · by_cases goOn : result = .next <;> simp [goOn, place, LoopPc.disposals]
          · by_cases goOn : result = .next <;> simp [goOn, LoopPc.closed]
      | throwsException =>
          cases taken
          exact sound.of_open rfl (by rw [place]; rfl) rfl
      | throwsOther => exact absurd rfl caught
  | _ =>
      rw [place] at taken
      cases taken

/-- The three calls of `OnDispose`. -/
theorem onDispose_sound {source target : State Caller} {outcome : HookOutcome ℤ}
    (sound : Sound source) (orderly : DisposeOrderly source outcome source.pc)
    (taken : loopStep source source.pc (.onDispose outcome) = some target) :
    Sound target := by
  have count := sound.disposals_eq
  cases place : source.pc with
  | initFailedDispose error =>
      rw [place] at taken count orderly
      cases outcome with
      | returns code =>
          cases taken
          exact ⟨congrArg (· + 1) count, by simp [LoopPc.closed]⟩
      | throwsException => exact absurd rfl orderly.1
      | throwsOther =>
          cases taken
          exact ⟨congrArg (· + 1) count, fun _ => orderly.2 rfl⟩
  | dispose =>
      rw [place] at taken count orderly
      have terminated := sound.terminated_of_closed (by rw [place]; rfl)
      cases outcome with
      | throwsException => exact absurd rfl orderly
      | _ =>
          cases taken
          exact ⟨congrArg (· + 1) count, fun _ => terminated⟩
  | catchDispose =>
      rw [place] at taken count
      have terminated := sound.terminated_of_closed (by rw [place]; rfl)
      cases outcome with
      | _ =>
          cases taken
          exact ⟨congrArg (· + 1) count, fun _ => terminated⟩
  | _ =>
      rw [place] at taken
      cases taken

theorem loopStep_sound {source target : State Caller} {action : LoopAction}
    (sound : Sound source) (orderly : Orderly source (.loop action))
    (taken : loopStep source source.pc action = some target) : Sound target := by
  cases action with
  | proceed => exact proceed_sound sound taken
  | onInit outcome => exact onInit_sound sound orderly taken
  | onUpdate outcome => exact onUpdate_sound sound orderly taken
  | onDispose outcome => exact onDispose_sound sound orderly taken

theorem next_sound [DecidableEq Caller] {source target : State Caller}
    {action : Action Caller} (sound : Sound source) (orderly : Orderly source action)
    (taken : next source action = some target) : Sound target := by
  cases action with
  | loop action => exact loopStep_sound sound orderly taken
  | run caller | asyncTerminate caller =>
      simp only [next] at taken
      split at taken
      · cases taken
        exact sound.of_same_loop rfl rfl (.inl rfl)
      · cases taken
  | caller caller completed =>
      obtain ⟨pc_eq, disposals_eq, same | terminated | atStore⟩ := callerStep_cases taken
      · exact sound.of_same_loop pc_eq disposals_eq (.inl same)
      · exact sound.of_same_loop pc_eq disposals_eq (.inr (.inl terminated))
      · exact sound.of_same_loop pc_eq disposals_eq (.inr (.inr (orderly atStore)))

theorem sound_of_orderly [DecidableEq Caller] {kernel : State Caller}
    (reachable : (system Caller).ReachableUnder Orderly kernel) : Sound kernel := by
  refine reachable.invariant ?_ ?_
  · rintro _ rfl
    exact ⟨rfl, by simp [State.create, LoopPc.closed]⟩
  · intro source action target _ orderly taken sound
    exact next_sound sound orderly taken

/-! ## What each other step leads to -/

/-- The run can be continued to a finished loop that has not cleaned up properly. -/
def LeadsToUnclean [DecidableEq Caller] (kernel : State Caller) : Prop :=
  ∃ actions later,
    (system Caller).run (fun _ _ => True) kernel actions = some later ∧ ¬ Cleaned later

section

variable [DecidableEq Caller] {kernel : State Caller}

theorem leadsToUnclean_of_count {result : LoopResult}
    (finished : kernel.pc = .finished result) (count : kernel.disposals ≠ 1) :
    LeadsToUnclean kernel :=
  ⟨[], kernel, rfl, fun cleaned => count (cleaned result finished).1⟩

theorem leadsToUnclean_of_state {result : LoopResult}
    (finished : kernel.pc = .finished result) (state : kernel.state ≠ .terminated) :
    LeadsToUnclean kernel :=
  ⟨[], kernel, rfl, fun cleaned => state (cleaned result finished).2⟩

/-- The `catch` clause calls `OnDispose` once more. -/
theorem leadsToUnclean_of_second (caught : kernel.pc = .catchStore)
    (count : kernel.disposals = 1) : LeadsToUnclean kernel := by
  have replayed :
      (system Caller).run (fun _ _ => True) kernel
          [.loop .proceed, .loop (.onDispose (.returns 0))] =
        some ((kernel.store .terminated .catchDispose).disposed
          (.finished (.returned (-1)))) := by
    simp [TransitionSystem.run, system, next, caught, loopStep]
  refine ⟨_, _, replayed, ?_⟩
  intro cleaned
  have once := (cleaned _ rfl).1
  simp [count] at once

/-- A last call of `OnDispose` does not store `kTERMINATED` again. -/
theorem leadsToUnclean_of_dispose {result : LoopResult}
    (taken :
      loopStep kernel kernel.pc (.onDispose (.returns 0)) =
        some (kernel.disposed (.finished result)))
    (running : kernel.state = .running) : LeadsToUnclean kernel := by
  have replayed :
      (system Caller).run (fun _ _ => True) kernel [.loop (.onDispose (.returns 0))] =
        some (kernel.disposed (.finished result)) := by
    simp [TransitionSystem.run, system, next, taken]
  refine ⟨_, _, replayed, ?_⟩
  intro cleaned
  have terminated := (cleaned _ rfl).2
  simp [running] at terminated

/-- `Run` has stored `kRUNNING` after the loop's last store. -/
theorem leadsToUnclean_of_running (closed : kernel.pc.closed = true)
    (running : kernel.state = .running) : LeadsToUnclean kernel := by
  cases place : kernel.pc with
  | dispose => exact leadsToUnclean_of_dispose (by rw [place]; rfl) running
  | catchDispose => exact leadsToUnclean_of_dispose (by rw [place]; rfl) running
  | finished result => exact leadsToUnclean_of_state place (by simp [running])
  | _ => simp [place, LoopPc.closed] at closed

theorem loopStep_leadsToUnclean {target : State Caller} {action : LoopAction}
    (sound : Sound kernel) (disorderly : ¬ Orderly kernel (.loop action))
    (taken : loopStep kernel kernel.pc action = some target) :
    LeadsToUnclean target := by
  have count := sound.disposals_eq
  cases action with
  | proceed => simp [Orderly] at disorderly
  | onInit outcome =>
      simp only [Orderly, not_not] at disorderly
      subst disorderly
      cases place : kernel.pc with
      | onInit =>
          rw [place] at taken count
          cases taken
          exact leadsToUnclean_of_count rfl (by simp [count, LoopPc.disposals])
      | _ => simp [place, loopStep] at taken
  | onUpdate outcome =>
      simp only [Orderly, not_not] at disorderly
      subst disorderly
      cases place : kernel.pc with
      | onUpdate =>
          rw [place] at taken count
          cases taken
          exact leadsToUnclean_of_count rfl (by simp [count, LoopPc.disposals])
      | _ => simp [place, loopStep] at taken
  | onDispose outcome =>
      simp only [Orderly] at disorderly
      cases place : kernel.pc with
      | initFailedDispose error =>
          rw [place] at taken count
          simp only [place, DisposeOrderly] at disorderly
          cases outcome with
          | returns code => simp at disorderly
          | throwsException =>
              cases taken
              exact leadsToUnclean_of_second rfl (congrArg (· + 1) count)
          | throwsOther =>
              cases taken
              refine leadsToUnclean_of_state rfl ?_
              simpa using disorderly
      | dispose =>
          rw [place] at taken count
          simp only [place, DisposeOrderly, not_not] at disorderly
          subst disorderly
          cases taken
          exact leadsToUnclean_of_second rfl (congrArg (· + 1) count)
      | _ => simp [place, DisposeOrderly] at disorderly

theorem next_leadsToUnclean {target : State Caller} {action : Action Caller}
    (sound : Sound kernel) (disorderly : ¬ Orderly kernel action)
    (taken : next kernel action = some target) : LeadsToUnclean target := by
  cases action with
  | loop action => exact loopStep_leadsToUnclean sound disorderly taken
  | run caller => simp [Orderly] at disorderly
  | asyncTerminate caller => simp [Orderly] at disorderly
  | caller caller completed =>
      simp only [Orderly, Classical.not_imp, Bool.not_eq_false] at disorderly
      obtain ⟨atStore, closed⟩ := disorderly
      simp only [next, callerStep, atStore] at taken
      cases taken
      exact leadsToUnclean_of_running closed rfl

/--
A kernel run cleans up exactly once as long as its steps are orderly, and every
other step can be continued to a loop that has finished without doing so.
-/
theorem cleaned_iff_orderly :
    (∀ kernel : State Caller,
      (system Caller).ReachableUnder Orderly kernel → Cleaned kernel) ∧
    ∀ (kernel target : State Caller) (action : Action Caller),
      (system Caller).ReachableUnder Orderly kernel →
      next kernel action = some target →
      ¬ Orderly kernel action →
      LeadsToUnclean target := by
  constructor
  · intro kernel reachable
    exact (sound_of_orderly reachable).cleaned
  · intro kernel target action reachable taken disorderly
    exact next_leadsToUnclean (sound_of_orderly reachable) disorderly taken

end

/-- `OnInit` returns, `Run` resumes the loop, one `OnUpdate` ends it. -/
def orderlyRun : List (Action Unit) :=
  [.loop .proceed, .loop (.onInit (.returns 0)), .loop .proceed, .loop .proceed,
    .run (), .caller () false, .caller () false, .caller () false, .caller () false,
    .loop .proceed, .loop .proceed, .loop .proceed, .loop .proceed,
    .loop (.onUpdate (.returns .finish)), .loop .proceed]

/-- A run that ends as it should, and the step that spoils it at its end. -/
theorem cleaned_of_orderly_run :
    (∃ kernel : State Unit,
      (system Unit).ReachableUnder Orderly kernel ∧
        kernel.pc = .finished (.returned 7) ∧ Cleaned kernel) ∧
    ∃ kernel target : State Unit,
      next kernel (.loop (.onDispose .throwsException)) = some target ∧
        LeadsToUnclean target := by
  constructor
  · obtain ⟨kernel, reachable, finished⟩ :=
      TransitionSystem.exists_reachableUnder_of_run (system Unit) Orderly rfl
        (orderlyRun ++ [.loop (.onDispose (.returns 7))])
        (fun kernel => decide (kernel.pc = .finished (.returned 7))) (by decide)
    exact ⟨kernel, reachable, of_decide_eq_true finished,
      cleaned_iff_orderly.1 kernel reachable⟩
  · obtain ⟨kernel, reachable, place⟩ :=
      TransitionSystem.exists_reachableUnder_of_run (system Unit) Orderly rfl
        orderlyRun (fun kernel => decide (kernel.pc = .dispose)) (by decide)
    have atDispose : kernel.pc = .dispose := of_decide_eq_true place
    refine ⟨kernel, kernel.disposed .catchStore, ?_, ?_⟩
    · simp [next, atDispose, loopStep, thrown]
    · refine cleaned_iff_orderly.2 kernel _ (.loop (.onDispose .throwsException))
        reachable ?_ ?_
      · simp [next, atDispose, loopStep, thrown]
      · simp [Orderly, atDispose, DisposeOrderly]

/-- A kernel whose `OnInit` throws an object that is no `std::exception`. -/
theorem not_cleaned_of_every_run :
    ¬ ∀ kernel : State Unit, (system Unit).Reachable kernel → Cleaned kernel := by
  intro cleaned
  obtain ⟨kernel, reachable, finished⟩ :=
    TransitionSystem.exists_reachableUnder_of_run (system Unit) (fun _ _ => True) rfl
      [.loop .proceed, .loop (.onInit .throwsOther)]
      (fun kernel =>
        decide (kernel.pc = .finished .escaped ∧ kernel.disposals = 0)) (by decide)
  obtain ⟨escaped, none⟩ := of_decide_eq_true finished
  have once := (cleaned kernel reachable _ escaped).1
  rw [none] at once
  exact absurd once (by decide)

end AsyncRuntime.Kernel.Cleanup
