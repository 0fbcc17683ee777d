import AsyncRuntime.Kernel.Step

/-!
# What a kernel without subscribers does with its input

`OnWaitSinkSubscription` flushes the source ports, calls `source.Deactivate()` and
waits.  The body of `Source::Deactivate` is empty, unlike those of `Flush` and
`Activate`, so the ports stay active and a `Send` goes on pushing messages while
nobody reads them.

The flush itself does its work: a port that it has passed is empty for as long as no
message is pushed.
-/

namespace AsyncRuntime.Kernel

open AsyncRuntime.Foundation
open AsyncRuntime.Dataflow

universe u v w x

variable {Name : Type u} {User : Type v} {Message : Type w} {Client : Type x}

/-- `source.Deactivate()`, which has no statement in its body. -/
def Shared.deactivate (kernel : Shared Name User Message Client) :
    Shared Name User Message Client :=
  kernel

/-- The client is inside `SinkPort::Send` or the `Write` it calls. -/
def ClientPc.sends : ClientPc Name User Message → Bool
  | .sendTest _ _ => true
  | .push _ _ => true
  | .writeNotify _ => true
  | _ => false

/-- The coroutine has flushed the port and not yet ended its wait for subscribers. -/
def Passed (name : Name) : LoopPc Name → Prop
  | .flush (.beforeWait _) ports => name ∉ ports
  | .asyncWatch _ => True
  | .await (.subscription _) _ => True
  | .suspended (.subscription _) _ => True
  | _ => False

/-- No message is pushed to a port that a waiting coroutine has flushed. -/
def sparesFlushed (state : State Name User Message Client) :
    Action Name User Message Client → Prop
  | .client client =>
      ∀ name message, state.clients client = .push name message →
        ∀ index, ¬ Passed name (state.pc index)
  | _ => True

/-- The flushed ports of a waiting coroutine are empty. -/
def State.FlushedEmpty (config : Config Name) (state : State Name User Message Client) :
    Prop :=
  ∀ index name, name ∈ config.sourcePorts → Passed name (state.pc index) →
    (state.shared.source name).empty = true

section

variable [DecidableEq Name]
variable {config : Config Name} {kernel moved : Shared Name User Message Client}
variable {pc after : LoopPc Name} {choice : Choice Name}

/-- Between the flush and the watch only `Deactivate` is called. -/
theorem loopStep_flushed (caller : WaitCaller) :
    loopStep config kernel (.flush (.beforeWait caller) []) .proceed =
      some (kernel.deactivate, .asyncWatch caller) := rfl

/-- A coroutine pops from a port or activates it. -/
theorem Move.source_cases (move : Move config kernel pc choice moved after) (name : Name) :
    moved.source name = kernel.source name ∨
      moved.source name = (kernel.source name).pop ∨
      moved.source name = (kernel.source name).activate := by
  cases move with
  | @flushPop place other rest =>
      by_cases here : name = other
      · subst here
        simp
      · simp [here]
  | reads events drained other =>
      by_cases here : name = other
      · subst here
        simp
      · simp [here]
  | waitActivates caller => exact .inr (.inr rfl)
  | activates events => exact .inr (.inr rfl)
  | _ => exact .inl rfl

end

section

variable {config : Config Name} {name : Name}

theorem not_passed_unwind (standard : Bool) : ¬ Passed name (unwind standard) := by
  cases standard with
  | true => exact id
  | false => exact id

theorem not_passed_afterWait (caller : WaitCaller) :
    ¬ Passed name (afterWait caller) := by
  cases caller with
  | update => exact id
  | unsubscription => exact id

theorem not_passed_dispatchUnsubscription (events : Flags) :
    ¬ Passed name (dispatchUnsubscription events) := by
  unfold dispatchUnsubscription
  split
  · exact id
  · exact id

theorem not_passed_dispatchTerminate (events : Flags) :
    ¬ Passed name (dispatchTerminate config events) := by
  unfold dispatchTerminate
  split
  · exact id
  · unfold dispatchSubscription
    split
    · exact id
    · exact not_passed_dispatchUnsubscription events

/-- The wait is over when the coroutine goes on. -/
theorem not_passed_dispatch (events : Flags) (point : WatchPoint) :
    ¬ Passed name (dispatch config events point) := by
  cases point with
  | any =>
      simp only [dispatch, dispatchProcess]
      split
      · exact id
      · exact not_passed_dispatchTerminate events
  | subscription caller =>
      simp only [dispatch, dispatchWait]
      split
      · exact id
      · split
        · exact id
        · exact not_passed_afterWait caller

end

section

variable [DecidableEq Name]
variable {config : Config Name} {kernel moved : Shared Name User Message Client}
variable {pc after : LoopPc Name} {choice : Choice Name} {name : Name}

/-- A port that a coroutine has passed is empty, or it was passed before. -/
theorem Move.passed (move : Move config kernel pc choice moved after)
    (known : name ∈ config.sourcePorts) (passed : Passed name after) :
    Passed name pc ∨ (kernel.source name).empty = true := by
  cases move with
  | findsNobody caller free nobody => exact absurd known passed
  | findsSubscribers caller free => exact absurd passed (not_passed_afterWait caller)
  | flushed place =>
      cases place with
      | beforeWait caller => exact .inl List.not_mem_nil
      | afterSubscription caller => exact absurd passed (not_passed_afterWait caller)
      | onTerminate => exact passed.elim
  | @flushNext place other rest empty =>
      cases place with
      | beforeWait caller =>
          by_cases here : name = other
          · subst here
            exact .inr empty
          · left
            simpa [Passed, here] using passed
      | afterSubscription caller => exact passed.elim
      | onTerminate => exact passed.elim
  | flushPop place => exact .inl passed
  | watches caller => exact .inl trivial
  | awaits point ready => exact absurd passed (not_passed_dispatch _ point)
  | wakes point ready => exact absurd passed (not_passed_dispatch _ point)
  | sleeps point pending =>
      cases point with
      | any => exact passed.elim
      | subscription caller => exact .inl trivial
  | initThrows standard => exact absurd passed (not_passed_unwind standard)
  | initFailedThrows error standard => exact absurd passed (not_passed_unwind standard)
  | processThrows events drained standard =>
      exact absurd passed (not_passed_unwind standard)
  | disposeThrows standard => exact absurd passed (not_passed_unwind standard)
  | processed events drained => exact absurd passed (not_passed_dispatchTerminate events)
  | activates events => exact absurd passed (not_passed_dispatchUnsubscription events)
  | _ => exact passed.elim

end

/-! ## Every run -/

section

variable [DecidableEq Name] [DecidableEq User] [DecidableEq Client]
variable {config : Config Name}
variable {state target : State Name User Message Client}
variable {action : Action Name User Message Client}

/-- What a step does to a source port; only a client puts a message in. -/
theorem source_cases_of_next
    (taken : (system User Message Client config).next state action = some target)
    (name : Name) :
    (target.shared.source name = state.shared.source name ∨
        target.shared.source name = (state.shared.source name).pop ∨
        target.shared.source name = (state.shared.source name).activate) ∨
      ∃ client message,
        action = .client client ∧ state.clients client = .push name message ∧
          target.shared.source name = (state.shared.source name).push message := by
  replace taken : next config state action = some target := taken
  cases action with
  | asyncInit | run | asyncTerminate =>
      simp only [next] at taken
      split at taken <;> cases taken
      exact .inl (.inl rfl)
  | controller =>
      have effect := (controllerMove_of_step taken).effect
      left
      left
      rcases effect.shared_eq with ⟨⟨stored, shared_eq⟩, -⟩ | ⟨shared_eq, -⟩
      · rw [shared_eq]
        rfl
      · rw [shared_eq]
        rfl
  | coroutine index choice =>
      exact .inl ((coroutineStep_sound taken).move.source_cases name)
  | call client call =>
      simp only [next] at taken
      split at taken
      · rename_i place
        have move := (clientStep_of_call place taken).move
        rw [place] at move
        generalize target.clients client = afterwards at move
        generalize target.shared = moved at move ⊢
        left
        left
        cases move <;> rfl
      · cases taken
  | client client =>
      have step : ClientStep config state target client := clientStep_sound taken
      have move := step.move
      generalize place : state.clients client = before at move
      generalize target.clients client = afterwards at move
      generalize target.shared = moved at move ⊢
      cases move with
      | @pushes other message =>
          by_cases here : name = other
          · subst here
            exact .inr ⟨client, message, rfl, place, by simp⟩
          · left
            left
            simp [here]
      | _ => exact .inl (.inl rfl)

/-- No port of a kernel is ever inactive. -/
theorem source_active_of_reachable
    (reachable : (system User Message Client config).Reachable state) (name : Name) :
    (state.shared.source name).active = true := by
  induction reachable with
  | start isInitial =>
      cases isInitial
      rfl
  | step earlier allowed taken active =>
      rcases source_cases_of_next taken name with
        (source_eq | source_eq | source_eq) | ⟨client, message, -, -, source_eq⟩
      · rw [source_eq]
        exact active
      · rw [source_eq]
        exact active
      · rw [source_eq]
        rfl
      · rw [source_eq, SourcePort.push_active]
        exact active

/-- A coroutine that has passed a port was there before the step, or finds it empty. -/
theorem passed_of_next
    (taken : (system User Message Client config).next state action = some target)
    {index : ℕ} {name : Name} (known : name ∈ config.sourcePorts)
    (passed : Passed name (target.pc index)) :
    Passed name (state.pc index) ∨ (state.shared.source name).empty = true := by
  cases step_of_next taken with
  | asyncInit idle =>
      by_cases fresh : index = state.generation + 1
      · subst fresh
        simp [State.pc, Passed] at passed
      · left
        simpa [State.pc, fresh] using passed
  | run idle => exact .inl passed
  | asyncTerminate idle => exact .inl passed
  | controller move =>
      rw [move.effect.pc_eq] at passed
      exact .inl passed
  | @coroutine _ moving _ step =>
      by_cases here : index = moving
      · subst here
        exact step.move.passed known passed
      · left
        rwa [State.pc, step.others index here] at passed
  | client step =>
      rw [step.pc_eq] at passed
      exact .inl passed

/-- The flush leaves its ports empty for as long as nothing is pushed. -/
theorem flushedEmpty_of_reachable
    (reachable : (system User Message Client config).ReachableUnder sparesFlushed state) :
    state.FlushedEmpty config := by
  induction reachable with
  | start isInitial =>
      cases isInitial
      intro index name _ passed
      exact passed.elim
  | @step source target action earlier spares taken flushed =>
      intro index name known passed
      have empty : (source.shared.source name).empty = true := by
        rcases passed_of_next taken known passed with before | empty
        · exact flushed index name known before
        · exact empty
      rcases source_cases_of_next taken name with
        (source_eq | source_eq | source_eq) | ⟨client, message, rfl, place, source_eq⟩
      · rw [source_eq]
        exact empty
      · rw [source_eq]
        exact SourcePort.pop_empty_of_empty _ empty
      · rw [source_eq]
        exact empty
      · -- the client moves no coroutine, so this one had passed the port already
        have step : ClientStep config source target client := clientStep_sound taken
        rw [step.pc_eq] at passed
        exact absurd passed (spares name message place index)

/--
While the kernel is suspended on the pending future of `OnWaitSinkSubscription` and no
`Send` is in progress, its source ports are inactive and empty exactly when it has
none: every port is still active.
-/
theorem source_deactivated_iff_no_port
    (reachable : (system User Message Client config).Reachable state)
    {index promise : ℕ} {caller : WaitCaller}
    (_suspended : state.pc index = .suspended (.subscription caller) promise)
    (_pending : state.shared.notifier.poll (.promise promise) = .pending)
    (_unsent : ∀ client, (state.clients client).sends = false) :
    ((∀ name ∈ config.sourcePorts,
        (state.shared.source name).active = false ∧
          (state.shared.source name).queue = []) ↔
      config.sourcePorts = []) ∧
    ∀ name ∈ config.sourcePorts, (state.shared.source name).active = true := by
  have active := source_active_of_reachable reachable
  refine ⟨⟨?_, ?_⟩, fun name _ => active name⟩
  · intro deactivated
    rw [List.eq_nil_iff_forall_not_mem]
    intro name known
    have inactive := (deactivated name known).1
    rw [active name] at inactive
    exact Bool.noConfusion inactive
  · intro none name known
    rw [none] at known
    exact absurd known List.not_mem_nil

/-- The ports are empty at least when nothing was pushed since they were flushed. -/
theorem source_empty_of_sparesFlushed
    (reachable : (system User Message Client config).ReachableUnder sparesFlushed state)
    {index promise : ℕ} {caller : WaitCaller}
    (suspended : state.pc index = .suspended (.subscription caller) promise)
    {name : Name} (known : name ∈ config.sourcePorts) :
    (state.shared.source name).queue = [] := by
  have passed : Passed name (state.pc index) := by
    rw [suspended]
    trivial
  exact List.isEmpty_iff.mp (flushedEmpty_of_reachable reachable index name known passed)

end

/-- One source port with room for one message, and one sink port. -/
def relay : Config ℕ where
  sourcePorts := [0]
  sinkPorts := [0]
  capacity := fun _ => 1

/-- Nobody has subscribed, and a message is sent to the kernel while it waits. -/
theorem relay_keeps_message :
    ∃ state : State ℕ ℕ ℕ Unit,
      (system ℕ ℕ Unit relay).Reachable state ∧
        state.pc 1 = .suspended (.subscription .update) 1 ∧
        state.shared.notifier.poll (.promise 1) = .pending ∧
        (∀ client, (state.clients client).sends = false) ∧
        (state.shared.source 0).queue = [5] := by
  rcases TransitionSystem.exists_reachableUnder_of_run (system ℕ ℕ Unit relay)
      (fun _ _ => True) rfl
      (beginRun 1 ++ List.replicate 9 (.coroutine 1 .proceed) ++
        [.call () (.send 0 5), .client (), .client (), .client ()])
      (fun state =>
        decide (state.pc 1 = .suspended (.subscription .update) 1) &&
          (decide (state.shared.notifier.poll (.promise 1) = .pending) &&
            (!(state.clients ()).sends &&
              decide ((state.shared.source 0).queue = [5]))))
      (by decide +kernel) with ⟨state, reachable, facts⟩
  rw [Bool.and_eq_true, Bool.and_eq_true, Bool.and_eq_true, decide_eq_true_eq,
    decide_eq_true_eq, decide_eq_true_eq] at facts
  rcases facts with ⟨suspended, pending, unsent, queue_eq⟩
  refine ⟨state, reachable, suspended, pending, ?_, queue_eq⟩
  intro client
  simpa using unsent

theorem source_deactivated_iff_no_port_relay :
    ∃ state : State ℕ ℕ ℕ Unit,
      (system ℕ ℕ Unit relay).Reachable state ∧
        state.pc 1 = .suspended (.subscription .update) 1 ∧
        state.shared.notifier.poll (.promise 1) = .pending ∧
        (∀ client, (state.clients client).sends = false) ∧
        (state.shared.source 0).active = true := by
  obtain ⟨state, reachable, suspended, pending, unsent, -⟩ := relay_keeps_message
  have active :=
    (source_deactivated_iff_no_port reachable suspended pending unsent).2 0 (by decide)
  exact ⟨state, reachable, suspended, pending, unsent, active⟩

/-- The message waits in a port that is still active. -/
theorem waiting_kernel_accumulates :
    ¬ ∀ (config : Config ℕ) (state : State ℕ ℕ ℕ Unit) (index promise : ℕ)
        (caller : WaitCaller),
      (system ℕ ℕ Unit config).Reachable state →
      state.pc index = .suspended (.subscription caller) promise →
      state.shared.notifier.poll (.promise promise) = .pending →
      (∀ client, (state.clients client).sends = false) →
      ∀ name ∈ config.sourcePorts,
        (state.shared.source name).active = false ∧
          (state.shared.source name).queue = [] := by
  intro claim
  obtain ⟨state, reachable, suspended, pending, unsent, queue_eq⟩ := relay_keeps_message
  obtain ⟨-, empty⟩ :=
    claim relay state 1 1 .update reachable suspended pending unsent 0 (by decide)
  rw [queue_eq] at empty
  exact absurd empty (by decide)

end AsyncRuntime.Kernel
