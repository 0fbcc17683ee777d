import AsyncRuntime.Kernel.Attention

/-!
# No message is left behind in a source port

A `Write` pushes its message and then raises `READ_SOURCE`.  The flag is
coalesced with others, taken out by `AsyncWatchAny` and wiped by `AsyncWatch`.
A port with messages is nevertheless always accounted for: the flag is up, the
writer is about to raise it, or the coroutine still owes the port a flush or a
read.  In front of a pending `AsyncWatchAny` only the second is possible.
-/

namespace AsyncRuntime.Kernel

open AsyncRuntime.Foundation
open AsyncRuntime.Dataflow

universe u v w x

variable {Name : Type u} {User : Type v} {Message : Type w} {Client : Type x}

/-- If this is a return from `OnProcess`, it has seen every port empty. -/
def Drains (config : Config Name) (pc : LoopPc Name) (choice : Choice Name) :
    Prop :=
  match pc with
  | .onProcess _ drained =>
      match choice with
      | .processReturns _ => ∀ name, name ∈ config.sourcePorts → name ∈ drained
      | .throws _ => False
      | _ => True
  | _ => True

instance [DecidableEq Name] (config : Config Name) (pc : LoopPc Name)
    (choice : Choice Name) : Decidable (Drains config pc choice) := by
  unfold Drains
  split
  · split <;> infer_instance
  · infer_instance

/-- `OnProcess` reads every source port until it is empty, and returns. -/
def drainsSources (config : Config Name) (state : State Name User Message Client) :
    Action Name User Message Client → Prop
  | .coroutine index choice => Drains config (state.pc index) choice
  | _ => True

instance [DecidableEq Name] (config : Config Name)
    (state : State Name User Message Client) (action : Action Name User Message Client) :
    Decidable (drainsSources config state action) :=
  match action with
  | .coroutine index choice =>
      inferInstanceAs (Decidable (Drains config (state.pc index) choice))
  | .asyncInit | .run | .asyncTerminate => inferInstanceAs (Decidable True)
  | .controller | .call _ _ | .client _ => inferInstanceAs (Decidable True)

/-- The coroutine will still flush or read the port. -/
def Owed (name : Name) : LoopPc Name → Prop
  | .await point future =>
      match point with
      | .subscription _ => True
      | .any =>
          match future with
          | .resolved value => hasState value KernelEvent.readSource.flag = true
          | .promise _ => False
  | .suspended point _ => point ≠ .any
  | .waitActivate _ => True
  | .flush place ports => place.waits = false ∧ name ∈ ports
  | .onProcess _ drained => name ∉ drained
  | _ => False

/-- The port is empty, or its flag is or will be raised. -/
def Accounted (kernel : Shared Name User Message Client)
    (clients : Client → ClientPc Name User Message) (name : Name) : Prop :=
  (kernel.source name).empty = true ∨
    hasState kernel.notifier.notifyState KernelEvent.readSource.flag = true ∨
    ∃ client, clients client = .writeNotify name

section

variable {config : Config Name} {kernel moved : Shared Name User Message Client}
variable {clients : Client → ClientPc Name User Message}
variable {pc after : LoopPc Name} {choice : Choice Name} {name : Name}

theorem not_owed_of_ended (ended : pc.ended = true) : ¬ Owed name pc := by
  cases pc <;> first | exact id | simp [LoopPc.ended] at ended

/-- Emptying a port and raising flags keep a port accounted for. -/
theorem Accounted.mono (accounted : Accounted kernel clients name)
    (empty :
      (kernel.source name).empty = true → (moved.source name).empty = true)
    (raised :
      hasState kernel.notifier.notifyState KernelEvent.readSource.flag = true →
        hasState moved.notifier.notifyState KernelEvent.readSource.flag =
          true) :
    Accounted moved clients name := by
  rcases accounted with is_empty | is_raised | writer
  · exact .inl (empty is_empty)
  · exact .inr (.inl (raised is_raised))
  · exact .inr (.inr writer)

theorem Accounted.notify (accounted : Accounted kernel clients name)
    (event : KernelEvent) : Accounted (kernel.notify event) clients name := by
  refine accounted.mono id ?_
  intro raised
  simp [raised]

/-- A wait for subscribers is followed by a flush, however it ends. -/
theorem owed_dispatchWait (known : name ∈ config.sourcePorts)
    {caller : WaitCaller} {value : Flags}
    (answers : Answers (.subscription caller) value) :
    Owed name (dispatchWait config caller value) := by
  unfold dispatchWait
  split
  · exact ⟨rfl, known⟩
  · rename_i unterminated
    split
    · trivial
    · rename_i unsubscribed
      rcases answers with ⟨event, waited, raised⟩
      simp only [waitedEvents, List.mem_cons, List.not_mem_nil, or_false] at waited
      rcases waited with rfl | rfl
      · exact absurd raised unsubscribed
      · exact absurd raised unterminated

/-- What the coroutine owes before `Await` continues, it owes afterwards. -/
theorem owed_dispatch (known : name ∈ config.sourcePorts) {point : WatchPoint}
    {future : WatchFuture} {value : Flags}
    (watching : Watching kernel.notifier (.await point future : LoopPc Name))
    (ready : kernel.notifier.poll future = .ready value)
    (owed : Owed name (.await point future)) :
    Owed name (dispatch config value point) := by
  have answers := answers_of_ready watching ready
  cases point with
  | subscription caller => exact owed_dispatchWait known answers
  | any =>
      cases future with
      | promise promise => exact owed.elim
      | resolved found =>
          simp only [Notifier.poll, Poll.ready.injEq] at ready
          subst value
          simp only [Owed] at owed
          simp only [dispatch, dispatchProcess]
          rw [if_pos owed]
          exact List.not_mem_nil

/-- A watch for anything hands the flag to the coroutine. -/
theorem owed_or_accounted_watchAny
    (accounted : Accounted kernel clients name) :
    Owed name (.await .any kernel.notifier.asyncWatchAny.2) ∨
      Accounted (kernel.setNotifier kernel.notifier.asyncWatchAny.1) clients
        name := by
  rcases accounted with empty | raised | writer
  · exact .inr (.inl empty)
  · left
    cases answer : kernel.notifier.asyncWatchAny.2 with
    | resolved value =>
        simp only [Owed]
        rw [Notifier.asyncWatchAny_resolved answer]
        exact raised
    | promise promise =>
        rw [(Notifier.asyncWatchAny_promise answer).2, hasState_zero] at raised
        exact Bool.noConfusion raised
  · exact .inr (.inr (.inr writer))

variable [DecidableEq Name]

theorem Accounted.pop (accounted : Accounted kernel clients name)
    (other : Name) :
    Accounted (kernel.setSource other (kernel.source other).pop) clients
      name := by
  refine accounted.mono ?_ id
  intro empty
  by_cases here : name = other
  · subst other
    simpa using SourcePort.pop_empty_of_empty _ empty
  · simpa [here] using empty

/-- Outside the two watches the coroutine takes no flag away. -/
theorem Accounted.move (accounted : Accounted kernel clients name)
    (move : Move config kernel pc choice moved after)
    (unwatched : pc ≠ .asyncWatchAny ∧ ∀ caller, pc ≠ .asyncWatch caller) :
    Accounted moved clients name := by
  cases move with
  | watches caller => exact absurd rfl (unwatched.2 caller)
  | watchesAny => exact absurd rfl unwatched.1
  | flushPop place => exact accounted.pop _
  | reads events drained other => exact accounted.pop other
  | waitActivates caller => exact accounted.mono id id
  | activates events => exact accounted.mono id id
  | _ => exact accounted

theorem Move.owed (move : Move config kernel pc choice moved after)
    (known : name ∈ config.sourcePorts) (drains : Drains config pc choice)
    (watching : Watching kernel.notifier pc) (owed : Owed name pc) :
    Owed name after ∨ (kernel.source name).empty = true := by
  cases move with
  | awaits point ready => exact .inl (owed_dispatch known watching ready owed)
  | @wakes point promise value ready =>
      left
      cases point with
      | any => exact absurd rfl owed
      | subscription caller =>
          exact owed_dispatch known watching ready
            (show Owed name (.await (.subscription caller) _) from trivial)
  | awaitsBroken point broken => exact absurd broken (poll_ne_broken watching)
  | wakesBroken point broken =>
      exact absurd broken (Armed.poll_ne_broken watching)
  | sleeps point pending =>
      left
      cases point with
      | any => exact owed.elim
      | subscription caller => simp [Owed]
  | waitActivates caller => exact .inl ⟨rfl, known⟩
  | flushed place => simp [Owed] at owed
  | @flushNext place other rest empty =>
      rcases List.mem_cons.mp owed.2 with rfl | later
      · exact .inr empty
      · exact .inl ⟨owed.1, later⟩
  | flushPop place => exact .inl owed
  | @drains events drained other empty =>
      by_cases here : name = other
      · rw [here]
        exact .inr empty
      · left
        simp only [Owed] at owed
        simp [Owed, here, owed]
  | reads events drained other => exact .inl owed
  | processed events drained => exact absurd (drains name known) owed
  | processEnds events drained ends => exact absurd (drains name known) owed
  | processThrows events drained standard => exact drains.elim
  | _ => exact owed.elim

/-- Every source port is owed a visit or accounted for. -/
def Covered (config : Config Name) (kernel : Shared Name User Message Client)
    (clients : Client → ClientPc Name User Message) (pc : LoopPc Name) : Prop :=
  ∀ name, name ∈ config.sourcePorts →
    Owed name pc ∨ Accounted kernel clients name

theorem Move.covered (move : Move config kernel pc choice moved after)
    (drains : Drains config pc choice) (watching : Watching kernel.notifier pc)
    (covered : Covered config kernel clients pc) :
    Covered config moved clients after := by
  intro name known
  by_cases unwatched : pc ≠ .asyncWatchAny ∧ ∀ caller, pc ≠ .asyncWatch caller
  · rcases covered name known with owed | accounted
    · rcases move.owed known drains watching owed with owed | empty
      · exact .inl owed
      · have accounted : Accounted kernel clients name := .inl empty
        exact .inr (accounted.move move unwatched)
    · exact .inr (accounted.move move unwatched)
  · -- the coroutine owes nothing in front of a watch
    rcases covered name known with owed | accounted
    · cases move <;> first | exact owed.elim | simp at unwatched
    · cases move with
      | watches caller => exact .inl trivial
      | watchesAny => exact owed_or_accounted_watchAny accounted
      | _ => simp at unwatched

variable [DecidableEq User] [DecidableEq Client]

theorem Accounted.clientMove {client : Client}
    {before afterwards : ClientPc Name User Message}
    (accounted : Accounted kernel clients name)
    (place : clients client = before)
    (move : ClientMove config kernel client before moved afterwards) :
    Accounted moved (Function.update clients client afterwards) name := by
  by_cases notifying : before = .writeNotify name
  · subst notifying
    cases move
    right
    left
    simp
  · rcases accounted with empty | raised | ⟨writer, writes⟩
    · cases move with
      | @pushes other message =>
          by_cases here : name = other
          · right
            right
            exact ⟨client, by rw [Function.update_self, here]⟩
          · left
            simpa [here] using empty
      | _ => exact .inl empty
    · right
      left
      rcases move.notifier with notifier_eq | ⟨event, -, notifier_eq⟩
      · rw [notifier_eq]
        exact raised
      · rw [notifier_eq]
        simp [raised]
    · -- a writer other than the client that moves stays where it is
      have elsewhere : writer ≠ client := by
        rintro rfl
        exact notifying (place.symm.trans writes)
      right
      right
      exact ⟨writer, by rw [Function.update_of_ne elsewhere, writes]⟩

end

/-! ## Every run -/

/-- The source ports are covered by the last coroutine and the writers. -/
def State.covered (config : Config Name) (state : State Name User Message Client) :
    Prop :=
  Covered config state.shared state.clients (state.pc state.generation)

section

variable [DecidableEq Name] [DecidableEq User] [DecidableEq Client]
variable {config : Config Name}
variable {state target : State Name User Message Client}
variable {action : Action Name User Message Client}

theorem Step.covered (step : Step config state action target)
    (attended : Attended state) (restarts : restartsEnded state action)
    (drains : drainsSources config state action)
    (covered : state.covered config) : target.covered config := by
  cases step with
  | asyncInit idle =>
      intro name known
      right
      rcases covered name known with owed | accounted
      · exact absurd owed (not_owed_of_ended restarts)
      · exact accounted
  | run idle => exact covered
  | asyncTerminate idle => exact covered
  | controller move =>
      have effect := move.effect
      rw [State.covered, effect.generation_eq, effect.pc_eq, effect.clients_eq]
      intro name known
      rcases covered name known with owed | accounted
      · exact .inl owed
      · right
        rcases effect.shared_eq with ⟨⟨stored, shared_eq⟩, -⟩ | ⟨shared_eq, -⟩
        · rw [shared_eq]
          exact accounted.mono id id
        · rw [shared_eq]
          exact accounted.notify .terminate
  | coroutine step =>
      have here := attended.index_eq step
      subst here
      rw [State.covered, step.generation_eq, step.clients_eq]
      exact step.move.covered drains attended.watching covered
  | client step =>
      rw [State.covered, step.generation_eq, step.pc_eq, step.clients_eq_update]
      intro name known
      rcases covered name known with owed | accounted
      · exact .inl owed
      · exact .inr (accounted.clientMove rfl step.move)

theorem covered_of_reachable
    (reachable :
      (system User Message Client config).ReachableUnder
        (fun state action =>
          restartsEnded state action ∧ drainsSources config state action)
        state) :
    state.covered config := by
  refine reachable.invariant ?_ ?_
  · rintro state rfl name -
    exact .inr (.inl rfl)
  · intro source action target reachable permitted taken covered
    have attended :=
      attended_of_reachable (reachable.mono fun _ _ both => both.1)
    exact
      (step_of_next taken).covered attended permitted.1 permitted.2 covered

/--
No message is left behind.  When the kernel is suspended in `OnUpdate` on a
pending `AsyncWatchAny`, every source port is empty to which no `Write` is
between its push and the end of its `Notify`.
-/
theorem source_ports_empty
    (reachable :
      (system User Message Client config).ReachableUnder
        (fun state action =>
          restartsEnded state action ∧ drainsSources config state action)
        state)
    {index promise : ℕ} (suspended : state.pc index = .suspended .any promise)
    (pending : state.shared.notifier.poll (.promise promise) = .pending)
    {name : Name} (known : name ∈ config.sourcePorts)
    (written : ∀ client, state.clients client ≠ .writeNotify name) :
    (state.shared.source name).queue = [] := by
  have attended := attended_of_reachable (reachable.mono fun _ _ both => both.1)
  have covered := covered_of_reachable reachable
  have here := attended.index_eq_of_suspended suspended
  subst here
  have quiet := (attended.armed suspended).quiet attended.sound pending
    (show WatchPoint.any.watches .readSource = true from rfl)
  rw [State.covered, suspended] at covered
  rcases covered name known with owed | empty | raised | ⟨client, writes⟩
  · exact absurd rfl owed
  · exact List.isEmpty_iff.mp empty
  · simp [quiet] at raised
  · exact absurd writes (written client)

end

/-- The client has pushed its message and not yet raised `READ_SOURCE`. -/
def ClientPc.owesNotify : ClientPc Name User Message → Bool
  | .writeNotify _ => true
  | _ => false

/--
A subscribed kernel receives a message, processes it, is woken once more by the
flag that `Notify` left behind, and sleeps again.
-/
theorem source_ports_empty_processed :
    ∃ state : State ℕ ℕ ℕ Unit,
      (system ℕ ℕ Unit ⟨[0], [0], fun _ => 1⟩).ReachableUnder
          (fun state action =>
            restartsEnded state action ∧
              drainsSources ⟨[0], [0], fun _ => 1⟩ state action)
          state ∧
        state.pc 1 = .suspended .any 4 ∧
        state.shared.notifier.poll (.promise 4) = .pending ∧
        (state.shared.source 0).queue = [] := by
  rcases TransitionSystem.exists_reachableUnder_of_run
      (system ℕ ℕ Unit ⟨[0], [0], fun _ => 1⟩)
      (fun state action =>
        restartsEnded state action ∧
          drainsSources ⟨[0], [0], fun _ => 1⟩ state action) rfl
      [[.call () (.subscribe 0 7), .client ()], beginRun 1,
        List.replicate 12 (.coroutine 1 .proceed),
        [.call () (.write 0 5), .client (), .client (), .coroutine 1 .proceed,
          .coroutine 1 (.processReads 0), .coroutine 1 (.processReads 0),
          .coroutine 1 (.processReturns .next)],
        List.replicate 4 (.coroutine 1 .proceed),
        [.coroutine 1 (.processReads 0), .coroutine 1 (.processReturns .next)],
        List.replicate 4 (.coroutine 1 .proceed)].flatten
      (fun state =>
        decide (state.pc 1 = .suspended .any 4) &&
          (decide (state.shared.notifier.poll (.promise 4) = .pending) &&
            !(state.clients ()).owesNotify))
      (by decide +kernel) with ⟨state, reachable, facts⟩
  rw [Bool.and_eq_true, Bool.and_eq_true, decide_eq_true_eq,
    decide_eq_true_eq] at facts
  rcases facts with ⟨suspended, pending, notified⟩
  refine ⟨state, reachable, suspended, pending, ?_⟩
  apply source_ports_empty reachable suspended pending (by decide)
  intro client writes
  simp [writes, ClientPc.owesNotify] at notified

end AsyncRuntime.Kernel
