import AsyncRuntime.Foundation.Refinement
import AsyncRuntime.Kernel.LoopExit

/-!
# The life of a kernel's coroutine

An observer of one coroutine sees the results of its hooks, the answers that its
promises get and nothing of the notifier, the ports, the other coroutines or the
callers.  Whatever these do, what the observer sees is a word of a small automaton: the
hooks come in order, the coroutine disposes itself once it has stopped, and it is
resolved with what the last hook told it.
-/

namespace AsyncRuntime.Kernel

open AsyncRuntime.Foundation
open AsyncRuntime.Dataflow

universe u v w x

namespace Lifecycle

/-- What an observer of one coroutine sees. -/
inductive Event where
  | made
  | initReturned (error : ℤ)
  | answered
  | updated
  | processed (result : KernelProcessResult)
  | terminated
  | disposed (code : ℤ)
  | threw (standard : Bool)
  | resolved (outcome : Outcome)
  deriving DecidableEq

/-- How far the coroutine has come. -/
inductive Phase where
  | unmade
  | initialising
  | initFailed (error : ℤ)
  | initialised
  | waiting
  | updating
  | stopping
  | caught
  | settled (outcome : Outcome)
  | finished
  deriving DecidableEq

/-- Where an exception leads. -/
def thrown (standard : Bool) : Phase :=
  if standard then .caught else .settled .exception

/-- The events that may come next. -/
def Phase.next : Phase → Event → Option Phase
  | .unmade, .made => some .initialising
  | .initialising, .initReturned error =>
      some (if error = 0 then .initialised else .initFailed error)
  | .initialising, .threw standard => some (thrown standard)
  | .initFailed error, .disposed _ => some (.settled (.value error))
  | .initFailed _, .threw standard => some (thrown standard)
  | .initialised, .answered => some .waiting
  | .waiting, .updated => some .updating
  | .waiting, .disposed code => some (.settled (.value code))
  | .waiting, .threw standard => some (thrown standard)
  | .updating, .updated => some .updating
  | .updating, .processed result => some (if result = .next then .updating else .stopping)
  | .updating, .terminated => some .stopping
  | .updating, .disposed code => some (.settled (.value code))
  | .updating, .threw standard => some (thrown standard)
  | .stopping, .disposed code => some (.settled (.value code))
  | .stopping, .threw standard => some (thrown standard)
  | .caught, .disposed _ => some (.settled (.value (-1)))
  | .caught, .threw _ => some (.settled .exception)
  | .settled outcome, .resolved other => if other = outcome then some .finished else none
  | _, _ => none

/-- The automaton, which shows every event. -/
def system : ObservedSystem Phase Event Event where
  initial := fun phase => phase = .unmade
  next := Phase.next
  shows := fun _ event _ => [event]

end Lifecycle

variable {Name : Type u} {User : Type v} {Message : Type w} {Client : Type x}

/-- What a step of a coroutine shows. -/
def LoopPc.shows : LoopPc Name → Choice Name → LoopPc Name → List Lifecycle.Event
  | .onInit, .initReturns error, _ => [.initReturned error]
  | .yield, _, _ => [.answered]
  | .subscribersEmpty .update, _, _ => [.updated]
  | .onProcess _ _, .processReturns result, _ => [.processed result]
  | .terminateUnsubscribeAll, _, _ => [.terminated]
  | .initFailedDispose _, .disposeReturns code, _ => [.disposed code]
  | .dispose, .disposeReturns code, _ => [.disposed code]
  | .catchDispose, .disposeReturns code, _ => [.disposed code]
  | .resolve outcome, _, _ => [.resolved outcome]
  | .escape, _, _ => [.resolved .exception]
  -- a broken promise is a standard exception
  | .await _ _, _, .catchStore => [.threw true]
  | .suspended _ _, _, .catchStore => [.threw true]
  | _, .throws standard, _ => [.threw standard]
  | _, _, _ => []

/-- What a step of the kernel shows of one of its coroutines. -/
def shows (index : ℕ) (source : State Name User Message Client) :
    Action Name User Message Client → State Name User Message Client → List Lifecycle.Event
  | .asyncInit, _ => if index = source.generation + 1 then [.made] else []
  | .coroutine moving choice, target =>
      if index = moving then (source.pc index).shows choice (target.pc index) else []
  | _, _ => []

/-- The kernel, as an observer of one of its coroutines sees it. -/
def observed (User : Type v) (Message : Type w) (Client : Type x) [DecidableEq Name]
    [DecidableEq User] [DecidableEq Client] (config : Config Name) (index : ℕ) :
    ObservedSystem (State Name User Message Client) (Action Name User Message Client)
      Lifecycle.Event where
  toTransitionSystem := system User Message Client config
  shows := shows index

/-! ## The simulation -/

/-- The phases that the place of a coroutine stands for. -/
def Agrees : LoopPc Name → Lifecycle.Phase → Prop
  | .created, phase => phase = .initialising
  | .onInit, phase => phase = .initialising
  | .initFailedDispose error, phase => phase = .initFailed error
  | .initFailedStore error, phase => phase = .settled (.value error)
  | .storeInitialized, phase => phase = .initialised
  | .yield, phase => phase = .initialised
  | .yielded, phase => phase = .waiting
  | .suspendedAtYield, phase => phase = .waiting
  | .checkTerminated, phase => phase = .waiting
  | .storeRunning, phase => phase = .waiting
  | .loopTest, phase => phase = .waiting ∨ phase = .updating
  | .subscribersEmpty .update, phase => phase = .waiting ∨ phase = .updating
  | .storeTerminated, phase => phase = .waiting ∨ phase = .updating ∨ phase = .stopping
  | .dispose, phase => phase = .waiting ∨ phase = .updating ∨ phase = .stopping
  | .catchStore, phase => phase = .caught
  | .catchDispose, phase => phase = .caught
  | .resolve outcome, phase => phase = .settled outcome
  | .escape, phase => phase = .settled .exception
  | .finished, phase => phase = .finished ∨ phase = .unmade
  | .escaped, phase => phase = .finished
  | _, phase => phase = .updating

theorem agrees_of_inside {pc : LoopPc Name} (inside : pc.updates = true ∨ pc.listens = true) :
    Agrees pc .updating := by
  cases pc with
  | subscribersEmpty caller => cases caller <;> simp [Agrees]
  | _ => first | exact rfl | exact .inr rfl | simp [LoopPc.updates, LoopPc.listens] at inside

theorem agrees_unwind (standard : Bool) :
    Agrees (unwind standard : LoopPc Name) (Lifecycle.thrown standard) := by
  cases standard <;> rfl

section Moves

variable [DecidableEq Name] {config : Config Name}
variable {kernel moved : Shared Name User Message Client}
variable {pc after : LoopPc Name} {choice : Choice Name} {phase : Lifecycle.Phase}

/-- An event that the automaton allows. -/
theorem steps_of_next {event : Lifecycle.Event} {target : Lifecycle.Phase}
    (allowed : phase.next event = some target) :
    Lifecycle.system.Steps phase [event] target :=
  @ObservedSystem.Steps.one _ _ _ Lifecycle.system phase target event allowed

omit [DecidableEq Name] in
/-- Waking up shows nothing. -/
theorem shows_of_updates (inside : after.updates = true) (point : WatchPoint) :
    (∀ future, (LoopPc.await point future).shows .proceed after = []) ∧
      ∀ promise, (LoopPc.suspended point promise).shows .proceed after = [] := by
  cases after with
  | catchStore => cases inside
  | _ => exact ⟨fun _ => rfl, fun _ => rfl⟩

/-- The automaton follows every move of a coroutine. -/
theorem Move.follows (move : Move config kernel pc choice moved after) (agrees : Agrees pc phase) :
    ∃ next, Lifecycle.system.Steps phase (pc.shows choice after) next ∧ Agrees after next := by
  cases move with
  | starts => exact ⟨phase, .done, agrees⟩
  | initSucceeds =>
      cases agrees
      exact ⟨_, steps_of_next rfl, rfl⟩
  | initFails failed =>
      cases agrees
      exact ⟨_, steps_of_next rfl, if_neg failed⟩
  | initThrows standard =>
      cases agrees
      exact ⟨_, steps_of_next rfl, agrees_unwind standard⟩
  | initFailedDisposes error code =>
      cases agrees
      exact ⟨_, steps_of_next rfl, rfl⟩
  | initFailedThrows error standard =>
      cases agrees
      exact ⟨_, steps_of_next rfl, agrees_unwind standard⟩
  | initFailedStores error => exact ⟨phase, .done, agrees⟩
  | storesInitialized => exact ⟨phase, .done, agrees⟩
  | yields =>
      cases agrees
      exact ⟨_, steps_of_next rfl, rfl⟩
  | suspends => exact ⟨phase, .done, agrees⟩
  | resumes => exact ⟨phase, .done, agrees⟩
  | skipsLoop terminated => exact ⟨phase, .done, .inl agrees⟩
  | entersLoop alive => exact ⟨phase, .done, agrees⟩
  | storesRunning => exact ⟨phase, .done, .inl agrees⟩
  | leavesLoop terminated => exact ⟨phase, .done, agrees.imp_right .inl⟩
  | updates alive => exact ⟨phase, .done, agrees⟩
  | findsNobody caller free nobody =>
      cases caller with
      | update =>
          rcases agrees with rfl | rfl
          · exact ⟨_, steps_of_next rfl, rfl⟩
          · exact ⟨_, steps_of_next rfl, rfl⟩
      | unsubscription => exact ⟨phase, .done, agrees⟩
  | findsSubscribers caller free =>
      cases caller with
      | update =>
          rcases agrees with rfl | rfl
          · exact ⟨_, steps_of_next rfl, rfl⟩
          · exact ⟨_, steps_of_next rfl, rfl⟩
      | unsubscription => exact ⟨phase, .done, .inr agrees⟩
  | flushed place =>
      cases agrees
      refine ⟨_, .done, agrees_of_inside ?_⟩
      cases place with
      | beforeWait caller => exact .inr rfl
      | afterSubscription caller => exact .inl (updates_afterWait caller)
      | onTerminate => exact .inl rfl
  | flushNext place empty => exact ⟨phase, .done, agrees⟩
  | flushPop place => exact ⟨phase, .done, agrees⟩
  | watches caller => exact ⟨phase, .done, agrees⟩
  | waitActivates caller => exact ⟨phase, .done, agrees⟩
  | watchesAny => exact ⟨phase, .done, agrees⟩
  | @awaits point _ value ready =>
      cases agrees
      have inside := updates_dispatch config value point
      rw [(shows_of_updates inside point).1]
      exact ⟨_, .done, agrees_of_inside (.inl inside)⟩
  | awaitsBroken point broken =>
      cases agrees
      exact ⟨_, steps_of_next rfl, rfl⟩
  | sleeps point pending => exact ⟨phase, .done, agrees⟩
  | @wakes point _ value ready =>
      cases agrees
      have inside := updates_dispatch config value point
      rw [(shows_of_updates inside point).2]
      exact ⟨_, .done, agrees_of_inside (.inl inside)⟩
  | wakesBroken point broken =>
      cases agrees
      exact ⟨_, steps_of_next rfl, rfl⟩
  | drains events drained empty => exact ⟨phase, .done, agrees⟩
  | reads events drained name => exact ⟨phase, .done, agrees⟩
  | processed events drained =>
      cases agrees
      exact ⟨_, steps_of_next rfl, agrees_of_inside (.inl (updates_dispatchTerminate config events))⟩
  | processEnds events drained ends =>
      cases agrees
      exact ⟨_, steps_of_next rfl, .inr (.inr (if_neg ends))⟩
  | processThrows events drained standard =>
      cases agrees
      exact ⟨_, steps_of_next rfl, agrees_unwind standard⟩
  | activates events =>
      cases agrees
      exact ⟨_, .done, agrees_of_inside (.inl (updates_dispatchUnsubscription events))⟩
  | unsubscribesAll free =>
      cases agrees
      exact ⟨_, steps_of_next rfl, .inr (.inr rfl)⟩
  | storesTerminated => exact ⟨phase, .done, agrees⟩
  | disposes code =>
      rcases agrees with rfl | rfl | rfl
      · exact ⟨_, steps_of_next rfl, rfl⟩
      · exact ⟨_, steps_of_next rfl, rfl⟩
      · exact ⟨_, steps_of_next rfl, rfl⟩
  | disposeThrows standard =>
      rcases agrees with rfl | rfl | rfl
      · exact ⟨_, steps_of_next rfl, agrees_unwind standard⟩
      · exact ⟨_, steps_of_next rfl, agrees_unwind standard⟩
      · exact ⟨_, steps_of_next rfl, agrees_unwind standard⟩
  | catchStores => exact ⟨phase, .done, agrees⟩
  | catchDisposes code =>
      cases agrees
      exact ⟨_, steps_of_next rfl, rfl⟩
  | catchThrows standard =>
      cases agrees
      exact ⟨_, steps_of_next rfl, rfl⟩
  | resolves outcome =>
      cases agrees
      exact ⟨.finished, steps_of_next (if_pos rfl), .inl rfl⟩
  | escapes =>
      cases agrees
      exact ⟨.finished, steps_of_next rfl, rfl⟩

/-- A coroutine that has not been made does not move. -/
theorem Move.not_unmade (move : Move config kernel pc choice moved after) :
    ¬ Agrees pc .unmade := by
  have place : Agrees pc .unmade → pc = .finished := by
    intro agrees
    cases pc with
    | finished => rfl
    | subscribersEmpty caller => cases caller <;> simp [Agrees] at agrees
    | _ => simp [Agrees] at agrees
  intro agrees
  cases place agrees
  cases move

end Moves

/-- The place of the coroutine and its phase; a coroutine to be made has none yet. -/
structure Follows (index : ℕ) (state : State Name User Message Client) (phase : Lifecycle.Phase) :
    Prop where
  agrees : Agrees (state.pc index) phase
  unmade : state.generation < index → phase = .unmade

section Steps

variable [DecidableEq Name] [DecidableEq User] {config : Config Name} {index : ℕ}
variable {state target : State Name User Message Client}
variable {action : Action Name User Message Client} {phase : Lifecycle.Phase}

omit [DecidableEq Name] [DecidableEq User] in
/-- What keeps the place of the coroutine and the number of coroutines shows nothing. -/
theorem Follows.kept (follows : Follows index state phase)
    (pc_eq : target.pc index = state.pc index)
    (generation_eq : target.generation = state.generation) : Follows index target phase where
  agrees := by
    rw [pc_eq]
    exact follows.agrees
  unmade := by
    rw [generation_eq]
    exact follows.unmade

/-- Only `AsyncInit` and the coroutines themselves move coroutines. -/
theorem Step.kept (step : Step config state action target) (index : ℕ)
    (makes : action ≠ .asyncInit) (moves : ∀ moving choice, action ≠ .coroutine moving choice) :
    target.pc index = state.pc index ∧ target.generation = state.generation := by
  cases step with
  | asyncInit idle => exact absurd rfl makes
  | run idle => exact ⟨rfl, rfl⟩
  | asyncTerminate idle => exact ⟨rfl, rfl⟩
  | controller move => exact ⟨move.effect.pc_eq index, move.effect.generation_eq⟩
  | @coroutine _ moving choice step => exact absurd rfl (moves moving choice)
  | client step => exact ⟨step.pc_eq index, step.generation_eq⟩

omit [DecidableEq User] in
theorem Follows.coroutineStep {moving : ℕ} {choice : Choice Name}
    (follows : Follows index state phase)
    (step : CoroutineStep config state target moving choice) :
    ∃ next,
      Lifecycle.system.Steps phase (shows index state (.coroutine moving choice) target) next ∧
        Follows index target next := by
  by_cases here : index = moving
  · subst here
    obtain ⟨next, steps, agrees⟩ := step.move.follows follows.agrees
    refine ⟨next, ?_, agrees, ?_⟩
    · rwa [shows, if_pos rfl]
    · intro outside
      rw [step.generation_eq] at outside
      have agrees := follows.agrees
      rw [follows.unmade outside] at agrees
      exact absurd agrees step.move.not_unmade
  · refine ⟨phase, ?_, follows.kept ?_ step.generation_eq⟩
    · rw [shows, if_neg here]
      exact .done
    · rw [State.pc, State.pc, step.others index here]

omit [DecidableEq Name] [DecidableEq User] in
/-- A call of `AsyncInit` makes the next coroutine. -/
theorem Follows.asyncInit (follows : Follows index state phase) :
    ∃ next, Lifecycle.system.Steps phase (shows index state .asyncInit target) next ∧
      Follows index (state.makeCoroutine.setController .initStore) next := by
  by_cases here : index = state.generation + 1
  · have fresh := follows.unmade (by omega)
    subst fresh
    refine ⟨.initialising, ?_, ?_, ?_⟩
    · rw [shows, if_pos here]
      exact steps_of_next rfl
    · simp [State.pc, here, Agrees]
    · intro outside
      simp only [State.setController_generation, State.makeCoroutine_generation] at outside
      omega
  · refine ⟨phase, ?_, ?_, ?_⟩
    · rw [shows, if_neg here]
      exact .done
    · simpa [State.pc, here] using follows.agrees
    · intro outside
      simp only [State.setController_generation, State.makeCoroutine_generation] at outside
      exact follows.unmade (by omega)

theorem Follows.step [DecidableEq Client] (follows : Follows index state phase)
    (taken : (system User Message Client config).next state action = some target) :
    ∃ next, Lifecycle.system.Steps phase (shows index state action target) next ∧
      Follows index target next := by
  cases action with
  | asyncInit =>
      simp only [system, Kernel.next] at taken
      split at taken <;> cases taken
      exact follows.asyncInit
  | coroutine moving choice => exact follows.coroutineStep (coroutineStep_sound taken)
  | _ =>
      have kept := (step_of_next taken).kept index (by simp) (by simp)
      exact ⟨phase, .done, follows.kept kept.1 kept.2⟩

end Steps

/-- The automaton simulates the kernel. -/
def lifecycleSimulation (User : Type v) (Message : Type w) (Client : Type x) [DecidableEq Name]
    [DecidableEq User] [DecidableEq Client] (config : Config Name) (index : ℕ) :
    ObservedSystem.Simulation (observed User Message Client config index) (fun _ _ => True)
      Lifecycle.system where
  relation := Follows index
  start := by
    rintro state rfl
    refine ⟨.unmade, rfl, ?_, fun _ => rfl⟩
    exact .inr rfl
  step := fun _ _ _ _ _ _ taken follows => follows.step taken

/--
Whatever the callers, the clients and the other coroutines of a kernel do, what can be seen
of a coroutine of it is a word of the automaton.
-/
theorem refines_lifecycle (User : Type v) (Message : Type w) (Client : Type x)
    [DecidableEq Name] [DecidableEq User] [DecidableEq Client] (config : Config Name)
    (index : ℕ) :
    (observed User Message Client config index).Refines (fun _ _ => True) Lifecycle.system :=
  (lifecycleSimulation User Message Client config index).refines

/-! ## The words of the automaton -/

namespace Lifecycle

/-- What comes before the loop. -/
def opening : List Event :=
  [.made, .initReturned 0, .answered]

/-- What the loop shows while it goes on. -/
def Event.goesOn : Event → Bool
  | .updated => true
  | .processed result => result = .next
  | _ => false

/-- What ends the loop from inside. -/
def Event.stops : Event → Bool
  | .processed result => result ≠ .next
  | .terminated => true
  | _ => false

/-- The hooks of a coroutine that has been initialised, up to the end of its loop. -/
inductive Run : List Event → Prop where
  | waiting : Run opening
  | updating {updates : List Event} (goOn : updates.all Event.goesOn = true) :
      Run (opening ++ .updated :: updates)
  | stopping {updates : List Event} {last : Event} (goOn : updates.all Event.goesOn = true)
      (stops : last.stops = true) :
      Run (opening ++ .updated :: (updates ++ [last]))

/-- The hooks after which an exception may be thrown. -/
inductive Hooks : List Event → Prop where
  | initialising : Hooks [.made]
  | initFailed {error : ℤ} (failed : error ≠ 0) : Hooks [.made, .initReturned error]
  | run {word : List Event} (run : Run word) : Hooks word

/-- The hooks of a coroutine that has come to its end, and what its promise is told. -/
inductive Complete : List Event → Outcome → Prop where
  | initFailed {error : ℤ} (failed : error ≠ 0) (code : ℤ) :
      Complete [.made, .initReturned error, .disposed code] (.value error)
  | disposed {word : List Event} (run : Run word) (code : ℤ) :
      Complete (word ++ [.disposed code]) (.value code)
  | caught {word : List Event} (hooks : Hooks word) (code : ℤ) :
      Complete (word ++ [.threw true, .disposed code]) (.value (-1))
  | escaped {word : List Event} (hooks : Hooks word) :
      Complete (word ++ [.threw false]) .exception
  | escapedAgain {word : List Event} (hooks : Hooks word) (standard : Bool) :
      Complete (word ++ [.threw true, .threw standard]) .exception

/-- The words that lead to a phase. -/
def Shape : Phase → List Event → Prop
  | .unmade, word => word = []
  | .initialising, word => word = [.made]
  | .initFailed error, word => error ≠ 0 ∧ word = [.made, .initReturned error]
  | .initialised, word => word = [.made, .initReturned 0]
  | .waiting, word => word = opening
  | .updating, word =>
      ∃ updates : List Event,
        updates.all Event.goesOn = true ∧ word = opening ++ .updated :: updates
  | .stopping, word => Run word
  | .caught, word => ∃ before, Hooks before ∧ word = before ++ [.threw true]
  | .settled outcome, word => Complete word outcome
  | .finished, word =>
      ∃ before outcome, Complete before outcome ∧ word = before ++ [.resolved outcome]

section Words

variable {phase target : Phase} {event : Event} {word : List Event}

theorem Shape.threw (hooks : Hooks word) (standard : Bool) :
    Shape (thrown standard) (word ++ [.threw standard]) := by
  cases standard with
  | true => exact ⟨word, hooks, rfl⟩
  | false => exact .escaped hooks

/-- The loop shows one event more. -/
theorem Shape.goesOn (shape : Shape .updating word) (goesOn : event.goesOn = true) :
    Shape .updating (word ++ [event]) := by
  obtain ⟨updates, all, rfl⟩ := shape
  refine ⟨updates ++ [event], ?_, ?_⟩
  · simp [all, goesOn]
  · rw [List.append_assoc, List.cons_append]

/-- The loop ends. -/
theorem Shape.stops (shape : Shape .updating word) (stops : event.stops = true) :
    Run (word ++ [event]) := by
  obtain ⟨updates, all, rfl⟩ := shape
  rw [List.append_assoc, List.cons_append]
  exact .stopping all stops

theorem Shape.run_of_updating (shape : Shape .updating word) : Run word := by
  obtain ⟨updates, all, rfl⟩ := shape
  exact .updating all

theorem Shape.step (shape : Shape phase word) (taken : phase.next event = some target) :
    Shape target (word ++ [event]) := by
  cases phase with
  | unmade =>
      cases event <;> cases taken
      cases shape
      rfl
  | initialising =>
      cases shape
      cases event with
      | initReturned error =>
          cases taken
          by_cases failed : error = 0
          · subst failed
            rfl
          · rw [if_neg failed]
            exact ⟨failed, rfl⟩
      | threw standard =>
          cases taken
          exact .threw .initialising standard
      | _ => cases taken
  | initFailed error =>
      obtain ⟨failed, rfl⟩ := shape
      cases event with
      | disposed code =>
          cases taken
          exact .initFailed failed code
      | threw standard =>
          cases taken
          exact .threw (.initFailed failed) standard
      | _ => cases taken
  | initialised =>
      cases shape
      cases event <;> cases taken
      rfl
  | waiting =>
      cases shape
      cases event with
      | updated =>
          cases taken
          exact ⟨[], rfl, rfl⟩
      | disposed code =>
          cases taken
          exact .disposed .waiting code
      | threw standard =>
          cases taken
          exact .threw (.run .waiting) standard
      | _ => cases taken
  | updating =>
      cases event with
      | updated =>
          cases taken
          exact shape.goesOn rfl
      | processed result =>
          cases taken
          by_cases goesOn : result = .next
          · rw [if_pos goesOn]
            exact shape.goesOn (by simpa [Event.goesOn] using goesOn)
          · rw [if_neg goesOn]
            exact shape.stops (by simpa [Event.stops] using goesOn)
      | terminated =>
          cases taken
          exact shape.stops rfl
      | disposed code =>
          cases taken
          exact .disposed shape.run_of_updating code
      | threw standard =>
          cases taken
          exact .threw (.run shape.run_of_updating) standard
      | _ => cases taken
  | stopping =>
      cases event with
      | disposed code =>
          cases taken
          exact .disposed shape code
      | threw standard =>
          cases taken
          exact .threw (.run shape) standard
      | _ => cases taken
  | caught =>
      obtain ⟨before, hooks, rfl⟩ := shape
      rw [List.append_assoc]
      cases event with
      | disposed code =>
          cases taken
          exact .caught hooks code
      | threw standard =>
          cases taken
          exact .escapedAgain hooks standard
      | _ => cases taken
  | settled outcome =>
      cases event with
      | resolved other =>
          simp only [Phase.next] at taken
          split at taken <;> cases taken
          rename_i same
          subst same
          exact ⟨word, other, shape, rfl⟩
      | _ => cases taken
  | finished => cases event <;> cases taken

theorem shape_of_history (history : system.History phase word) : Shape phase word := by
  induction history with
  | start isInitial =>
      cases isInitial
      rfl
  | step earlier allowed taken inductionHypothesis => exact Shape.step inductionHypothesis taken

/-! The promise is resolved last. -/

variable {outcome : Outcome}

theorem resolved_notMem_updates {updates : List Event}
    (goOn : updates.all Event.goesOn = true) : .resolved outcome ∉ updates := by
  intro listed
  have goesOn := List.all_eq_true.mp goOn _ listed
  cases goesOn

theorem Run.resolved_notMem (run : Run word) : .resolved outcome ∉ word := by
  cases run with
  | waiting => simp [opening]
  | updating goOn => simp [opening, resolved_notMem_updates goOn]
  | @stopping updates last goOn stops =>
      have last_ne : Event.resolved outcome ≠ last := by
        rintro rfl
        cases stops
      simp [opening, resolved_notMem_updates goOn, last_ne]

theorem Hooks.resolved_notMem (hooks : Hooks word) : .resolved outcome ∉ word := by
  cases hooks with
  | initialising => simp
  | initFailed failed => simp
  | run run => exact run.resolved_notMem

theorem Complete.resolved_notMem {told : Outcome} (complete : Complete word told) :
    .resolved outcome ∉ word := by
  cases complete with
  | initFailed failed code => simp
  | disposed run code => simp [run.resolved_notMem]
  | caught hooks code => simp [hooks.resolved_notMem]
  | escaped hooks => simp [hooks.resolved_notMem]
  | escapedAgain hooks standard => simp [hooks.resolved_notMem]

theorem Shape.split_resolved (shape : Shape phase word)
    (resolved : .resolved outcome ∈ word) :
    ∃ before, word = before ++ [.resolved outcome] ∧ Complete before outcome := by
  cases phase with
  | finished =>
      obtain ⟨before, told, complete, rfl⟩ := shape
      rcases List.mem_append.mp resolved with early | last
      · exact absurd early complete.resolved_notMem
      · cases List.mem_singleton.mp last
        exact ⟨before, rfl, complete⟩
  | initFailed error =>
      obtain ⟨failed, rfl⟩ := shape
      exact absurd resolved (Hooks.initFailed failed).resolved_notMem
  | updating => exact absurd resolved (run_of_updating shape).resolved_notMem
  | stopping => exact absurd resolved (Run.resolved_notMem shape)
  | caught =>
      obtain ⟨before, hooks, rfl⟩ := shape
      simp [hooks.resolved_notMem] at resolved
  | settled told => exact absurd resolved (Complete.resolved_notMem shape)
  | _ =>
      cases shape
      simp [opening] at resolved

end Words

end Lifecycle

section

variable [DecidableEq Name] [DecidableEq User] [DecidableEq Client] {config : Config Name}
variable {index : ℕ} {state : State Name User Message Client} {events : List Lifecycle.Event}

/--
In every run of a kernel, once the promise of a coroutine has been told the end, its
hooks were a complete word of the automaton, which also says what the promise was told.
-/
theorem complete_of_resolved
    (history : (observed User Message Client config index).History state events)
    {outcome : Outcome} (resolved : .resolved outcome ∈ events) :
    ∃ word, events = word ++ [.resolved outcome] ∧ Lifecycle.Complete word outcome := by
  obtain ⟨phase, simulated, -⟩ :=
    (lifecycleSimulation User Message Client config index).history history
  exact (Lifecycle.shape_of_history simulated).split_resolved resolved

end

/-- A kernel that is woken by `AsyncTerminate` tells the code that `OnDispose` leaves. -/
theorem complete_of_resolved_woken :
    ∃ (state : State ℕ ℕ ℕ Unit) (events : List Lifecycle.Event),
      (observed ℕ ℕ Unit ⟨[0], [0], fun _ => 1⟩ 1).History state events ∧
        ∃ word, events = word ++ [.resolved (.value 4)] ∧ Lifecycle.Complete word (.value 4) := by
  obtain ⟨state, events, history, resolved⟩ :=
    (observed ℕ ℕ Unit ⟨[0], [0], fun _ => 1⟩ 1).exists_history_of_replay (fun _ _ => True) rfl
      [beginRun 1, List.replicate 9 (.coroutine 1 .proceed), [.asyncTerminate],
        List.replicate 3 .controller, List.replicate 5 (.coroutine 1 .proceed),
        [.coroutine 1 (.disposeReturns 4), .coroutine 1 .proceed]].flatten
      (fun seen => decide (.resolved (.value 4) ∈ seen.2)) (by decide +kernel)
  exact ⟨state, events, history, complete_of_resolved history (of_decide_eq_true resolved)⟩

end AsyncRuntime.Kernel
