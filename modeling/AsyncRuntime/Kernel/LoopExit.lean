import AsyncRuntime.Kernel.Attention

/-!
# How the update loop ends

`OnTerminate` runs when `OnUpdate` is woken with the termination event, and
makes it return `kEND`.  The loop also ends when its condition reads
`kTERMINATED`, which `AsyncTerminate` stores before it notifies: a coroutine that
is busy with another event at that time returns to the loop condition, leaves
the loop and disposes without `OnTerminate`.  As long as the condition is not
evaluated on `kTERMINATED` after the first update, `OnTerminate` comes first.
-/

namespace AsyncRuntime.Kernel

open AsyncRuntime.Foundation
open AsyncRuntime.Dataflow

universe u v w x

variable {Name : Type u} {User : Type v} {Message : Type w} {Client : Type x}

/-- The user's hooks throw nothing, and `OnProcess` returns `kNEXT`. -/
def hooksContinue : Action Name User Message Client → Prop
  | .coroutine _ choice =>
      match choice with
      | .throws _ => False
      | .processReturns result => result = .next
      | _ => True
  | _ => True

instance (action : Action Name User Message Client) :
    Decidable (hooksContinue action) :=
  match action with
  | .coroutine _ choice =>
      match choice with
      | .throws _ => inferInstanceAs (Decidable False)
      | .processReturns result => inferInstanceAs (Decidable (result = .next))
      | .proceed | .initReturns _ => inferInstanceAs (Decidable True)
      | .processReads _ | .disposeReturns _ => inferInstanceAs (Decidable True)
  | .asyncInit | .run | .asyncTerminate => inferInstanceAs (Decidable True)
  | .controller | .call _ _ | .client _ => inferInstanceAs (Decidable True)

/-- The hooks that a coroutine has executed. -/
def State.log (state : State Name User Message Client) (index : ℕ) : List Hook :=
  (state.coroutines index).log

/--
After its first update a coroutine does not evaluate the condition of the loop
on `kTERMINATED`.
-/
def loopStaysOpen (state : State Name User Message Client) :
    Action Name User Message Client → Prop
  | .coroutine index _ =>
      state.pc index = .loopTest → .onUpdate ∈ state.log index →
        state.shared.state ≠ .terminated
  | _ => True

instance [DecidableEq Name] (state : State Name User Message Client)
    (action : Action Name User Message Client) :
    Decidable (loopStaysOpen state action) :=
  match action with
  | .coroutine index _ =>
      inferInstanceAs (Decidable
        (state.pc index = .loopTest → .onUpdate ∈ state.log index →
          state.shared.state ≠ .terminated))
  | .asyncInit | .run | .asyncTerminate => inferInstanceAs (Decidable True)
  | .controller | .call _ _ | .client _ => inferInstanceAs (Decidable True)

/-- `OnDispose` is being called. -/
def LoopPc.disposing : LoopPc Name → Bool
  | .initFailedDispose _ => true
  | .dispose => true
  | .catchDispose => true
  | _ => false

/-- The coroutine has not reached the update loop. -/
def LoopPc.beforeLoop : LoopPc Name → Bool
  | .created => true
  | .onInit => true
  | .initFailedDispose _ => true
  | .initFailedStore _ => true
  | .storeInitialized => true
  | .yield => true
  | .yielded => true
  | .suspendedAtYield => true
  | .checkTerminated => true
  | .storeRunning => true
  | _ => false

/-- The coroutine is past the update loop. -/
def LoopPc.afterLoop : LoopPc Name → Bool
  | .storeTerminated => true
  | .dispose => true
  | .catchStore => true
  | .catchDispose => true
  | .resolve _ => true
  | .finished => true
  | .escape => true
  | .escaped => true
  | _ => false

/-- A coroutine that has updated leaves the loop through `OnTerminate`. -/
structure Parted (pc : LoopPc Name) (log : List Hook) : Prop where
  before : pc.beforeLoop = true → .onUpdate ∉ log
  after : pc.afterLoop = true → .onUpdate ∈ log → .onTerminate ∈ log

/-- Inside the loop nothing is claimed. -/
theorem parted_of_inside {pc : LoopPc Name} {log : List Hook}
    (inside : pc.updates = true ∨ pc.listens = true) : Parted pc log := by
  cases pc <;>
    first
    | (constructor <;> exact fun outside => Bool.noConfusion outside)
    | simp [LoopPc.updates, LoopPc.listens] at inside

theorem parted_flush (place : FlushPlace) (ports : List Name)
    {log : List Hook} : Parted (.flush place ports) log := by
  cases place with
  | beforeWait caller => exact parted_of_inside (.inr rfl)
  | afterSubscription caller => exact parted_of_inside (.inl rfl)
  | onTerminate => exact parted_of_inside (.inl rfl)

/-- A coroutine that has never updated owes no `OnTerminate`. -/
theorem parted_of_not_mem {pc : LoopPc Name} {log : List Hook}
    (absent : .onUpdate ∉ log) : Parted pc log where
  before := fun _ => absent
  after := fun _ entered => absurd entered absent

/-- Past the loop only the order of the two hooks counts. -/
theorem parted_of_imp {pc : LoopPc Name} {log : List Hook}
    (late : pc.beforeLoop = false)
    (ordered : .onUpdate ∈ log → .onTerminate ∈ log) : Parted pc log where
  before := fun early => absurd (late.symm.trans early) (by decide)
  after := fun _ => ordered

section

variable [DecidableEq Name] {config : Config Name}
variable {kernel moved : Shared Name User Message Client}
variable {pc after : LoopPc Name} {choice : Choice Name} {log : List Hook}

theorem Move.parted (move : Move config kernel pc choice moved after)
    (watching : Watching kernel.notifier pc)
    (throws : ∀ standard, choice ≠ .throws standard)
    (continues : ∀ result, choice = .processReturns result → result = .next)
    (open_ : pc = .loopTest → .onUpdate ∈ log → kernel.state ≠ .terminated)
    (parted : Parted pc log) : Parted after (pc.hook ++ log) := by
  cases move with
  | initThrows standard => exact absurd rfl (throws standard)
  | initFailedThrows error standard => exact absurd rfl (throws standard)
  | processThrows events drained standard => exact absurd rfl (throws standard)
  | disposeThrows standard => exact absurd rfl (throws standard)
  | catchThrows standard => exact absurd rfl (throws standard)
  | processEnds events drained ends => exact absurd (continues _ rfl) ends
  | awaitsBroken point broken => exact absurd broken (poll_ne_broken watching)
  | wakesBroken point broken =>
      exact absurd broken (Armed.poll_ne_broken watching)
  | starts => exact parted_of_not_mem (parted.before rfl)
  | initSucceeds => exact parted_of_not_mem (parted.before rfl)
  | initFails failed => exact parted_of_not_mem (parted.before rfl)
  | initFailedDisposes error code =>
      apply parted_of_not_mem
      simpa [LoopPc.hook] using parted.before rfl
  | initFailedStores error => exact parted_of_not_mem (parted.before rfl)
  | storesInitialized => exact parted_of_not_mem (parted.before rfl)
  | yields => exact parted_of_not_mem (parted.before rfl)
  | suspends => exact parted_of_not_mem (parted.before rfl)
  | resumes => exact parted_of_not_mem (parted.before rfl)
  | skipsLoop terminated => exact parted_of_not_mem (parted.before rfl)
  | entersLoop alive => exact parted_of_not_mem (parted.before rfl)
  | leavesLoop terminated =>
      apply parted_of_imp rfl
      intro entered
      exact absurd terminated (open_ rfl entered)
  | unsubscribesAll free =>
      apply parted_of_imp rfl
      intro _
      exact List.mem_cons_self
  | storesTerminated => exact parted_of_imp rfl (parted.after rfl)
  | disposes code =>
      apply parted_of_imp rfl
      simpa [LoopPc.hook] using parted.after rfl
  | catchStores => exact parted_of_imp rfl (parted.after rfl)
  | catchDisposes code =>
      apply parted_of_imp rfl
      simpa [LoopPc.hook] using parted.after rfl
  | resolves outcome => exact parted_of_imp rfl (parted.after rfl)
  | escapes => exact parted_of_imp rfl (parted.after rfl)
  | findsNobody caller free nobody => exact parted_of_inside (.inr rfl)
  | findsSubscribers caller free =>
      exact parted_of_inside (.inl (updates_afterWait caller))
  | flushed place =>
      cases place with
      | afterSubscription caller =>
          exact parted_of_inside (.inl (updates_afterWait caller))
      | beforeWait caller => exact parted_of_inside (.inr rfl)
      | onTerminate => exact parted_of_inside (.inl rfl)
  | flushNext place empty => exact parted_flush place _
  | flushPop place => exact parted_flush place _
  | watches caller => exact parted_of_inside (.inr rfl)
  | watchesAny => exact parted_of_inside (.inr rfl)
  | sleeps point pending => exact parted_of_inside (.inr rfl)
  | awaits point ready =>
      exact parted_of_inside (.inl (updates_dispatch config _ point))
  | wakes point ready =>
      exact parted_of_inside (.inl (updates_dispatch config _ point))
  | processed events drained =>
      exact parted_of_inside (.inl (updates_dispatchTerminate config events))
  | activates events =>
      exact parted_of_inside (.inl (updates_dispatchUnsubscription events))
  | _ => exact parted_of_inside (.inl rfl)

end

/-! ## Every run -/

/-- The runs in which the loop does not end behind the back of `OnUpdate`. -/
structure LoopEndsByEvent (state : State Name User Message Client)
    (action : Action Name User Message Client) : Prop where
  restarts : restartsEnded state action
  hooks : hooksContinue action
  stays : loopStaysOpen state action

instance [DecidableEq Name] (state : State Name User Message Client)
    (action : Action Name User Message Client) :
    Decidable (LoopEndsByEvent state action) :=
  decidable_of_iff
    (restartsEnded state action ∧ hooksContinue action ∧
      loopStaysOpen state action)
    ⟨fun all => ⟨all.1, all.2.1, all.2.2⟩,
      fun all => ⟨all.restarts, all.hooks, all.stays⟩⟩

/-- Every coroutine keeps the order of the hooks. -/
def State.parted (state : State Name User Message Client) : Prop :=
  ∀ index, Parted (state.pc index) (state.log index)

section

variable [DecidableEq Name] [DecidableEq User]
variable {config : Config Name} {state target : State Name User Message Client}
variable {action : Action Name User Message Client}

theorem Step.parted (step : Step config state action target)
    (attended : Attended state) (permitted : LoopEndsByEvent state action)
    (parted : state.parted) : target.parted := by
  intro index
  cases step with
  | asyncInit idle =>
      by_cases here : index = state.generation + 1
      · subst index
        apply parted_of_not_mem
        simp [State.log]
      · simpa [State.pc, State.log, here] using parted index
  | run idle => exact parted index
  | asyncTerminate idle => exact parted index
  | controller move =>
      have effect := move.effect
      rw [State.log, effect.pc_eq, effect.log_eq]
      exact parted index
  | @coroutine _ moving choice step =>
      by_cases here : index = moving
      · subst index
        have watching : Watching state.shared.notifier (state.pc moving) := by
          rw [attended.index_eq step]
          exact attended.watching
        rw [State.log, step.log_eq]
        apply step.move.parted watching _ _ permitted.stays (parted moving)
        · rintro standard rfl
          exact permitted.hooks
        · rintro result rfl
          exact permitted.hooks
      · rw [State.pc, State.log, step.others index here]
        exact parted index
  | client step =>
      rw [State.log, step.pc_eq, step.coroutines_eq]
      exact parted index

variable [DecidableEq Client]

/--
In every run in which the hooks behave and the loop condition is not evaluated
on `kTERMINATED` after an update, a coroutine that has entered the update loop
has executed `OnTerminate` when it calls `OnDispose`.
-/
theorem onTerminate_before_onDispose
    (reachable :
      (system User Message Client config).ReachableUnder LoopEndsByEvent state)
    {index : ℕ} (disposing : (state.pc index).disposing = true)
    (entered : .onUpdate ∈ state.log index) :
    .onTerminate ∈ state.log index := by
  have parted : state.parted := by
    refine reachable.invariant ?_ ?_
    · rintro state rfl index
      apply parted_of_not_mem
      simp [State.create, State.log]
    · intro source action target reachable permitted taken parted
      have attended :=
        attended_of_reachable (reachable.mono fun _ _ all => all.restarts)
      exact (step_of_next taken).parted attended permitted parted
  cases place : state.pc index <;>
    simp only [place, LoopPc.disposing, Bool.false_eq_true] at disposing
  case initFailedDispose error =>
    exact absurd entered ((parted index).before (by rw [place]; rfl))
  case dispose => exact (parted index).after (by rw [place]; rfl) entered
  case catchDispose => exact (parted index).after (by rw [place]; rfl) entered

end

/-- A sleeping kernel is terminated, and its coroutine comes to `OnDispose`. -/
theorem onTerminate_before_onDispose_woken :
    ∃ state : State ℕ ℕ ℕ Unit,
      (system ℕ ℕ Unit ⟨[0], [0], fun _ => 1⟩).ReachableUnder LoopEndsByEvent
          state ∧
        state.pc 1 = .dispose ∧ .onUpdate ∈ state.log 1 ∧
        .onTerminate ∈ state.log 1 := by
  rcases TransitionSystem.exists_reachableUnder_of_run
      (system ℕ ℕ Unit ⟨[0], [0], fun _ => 1⟩) LoopEndsByEvent rfl
      [beginRun 1, List.replicate 9 (.coroutine 1 .proceed), [.asyncTerminate],
        List.replicate 3 .controller,
        List.replicate 5 (.coroutine 1 .proceed)].flatten
      (fun state =>
        decide (state.pc 1 = .dispose) && decide (.onUpdate ∈ state.log 1))
      (by decide +kernel) with ⟨state, reachable, facts⟩
  rw [Bool.and_eq_true, decide_eq_true_eq, decide_eq_true_eq] at facts
  refine ⟨state, reachable, facts.1, facts.2, ?_⟩
  exact onTerminate_before_onDispose reachable (by rw [facts.1]; rfl) facts.2

/--
`AsyncTerminate` is called while the coroutine is inside `OnProcess`.  The loop
condition reads `kTERMINATED`, and `OnDispose` is called without `OnTerminate`.
-/
theorem onTerminate_skipped :
    ¬ ∀ state : State ℕ ℕ ℕ Unit,
      (system ℕ ℕ Unit ⟨[0], [0], fun _ => 1⟩).ReachableUnder
          (fun state action => restartsEnded state action ∧ hooksContinue action)
          state →
        ∀ index, (state.pc index).disposing = true →
          .onUpdate ∈ state.log index → .onTerminate ∈ state.log index := by
  intro claim
  rcases TransitionSystem.exists_reachableUnder_of_run
      (system ℕ ℕ Unit ⟨[0], [0], fun _ => 1⟩)
      (fun state action => restartsEnded state action ∧ hooksContinue action) rfl
      [[.call () (.subscribe 0 7), .client ()], beginRun 1,
        List.replicate 12 (.coroutine 1 .proceed),
        [.call () (.write 0 5), .client (), .client (), .coroutine 1 .proceed],
        [.asyncTerminate], List.replicate 3 .controller,
        [.coroutine 1 (.processReturns .next), .coroutine 1 .proceed,
          .coroutine 1 .proceed]].flatten
      (fun state =>
        decide ((state.pc 1).disposing = true) &&
          (decide (.onUpdate ∈ state.log 1) &&
            decide (.onTerminate ∉ state.log 1)))
      (by decide +kernel) with ⟨state, reachable, facts⟩
  rw [Bool.and_eq_true, Bool.and_eq_true, decide_eq_true_eq, decide_eq_true_eq,
    decide_eq_true_eq] at facts
  exact facts.2.2 (claim state reachable 1 facts.1 facts.2.1)

end AsyncRuntime.Kernel
