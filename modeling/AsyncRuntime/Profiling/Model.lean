import AsyncRuntime.WorkStealQueue.Queue

/-!
# The profiler

Threads add events to a work-stealing queue, one at a time, and `Update` steals what
is there, reverses it and applies it to the state.  The clock is a function of how
often `Now` has been called.  Threads are named by the hashes of their ids.
-/

namespace AsyncRuntime.Profiling

open AsyncRuntime.WorkStealQueue

/-- `EventType`. -/
inductive EventType where
  | workTimeStep
  | newCoroutine
  | deleteCoroutine
  | newThread
  | deleteThread
  | regAsyncFunction
  deriving DecidableEq

/-- `Event`. -/
structure Event where
  id : ℕ
  type : EventType
  thread : ℕ
  beginTs : ℤ
  endTs : ℤ

/-- `WorkStep`, with its `begin` and its `end`. -/
structure WorkStep where
  thread : ℕ
  beginTs : ℤ
  endTs : ℤ
  deriving DecidableEq

/-- The step of an event. -/
def Event.step (event : Event) : WorkStep :=
  ⟨event.thread, event.beginTs, event.endTs⟩

/-- `NO_TS`. -/
def noTs : ℤ := -1

/-- `Work`. -/
structure Work where
  id : ℕ
  name : String
  workTime : List WorkStep
  beginAt : ℤ
  updatedAt : ℤ := -1

/-- `State`, as far as the events change it. -/
structure State where
  profilingInterval : ℤ
  coroutinesCount : ℤ
  workGround : ℕ → Option Work
  threads : List ℕ

/-- `Profiler`, and how often `Now` has been called. -/
structure Profiler where
  state : State
  events : Queue Event
  readings : ℕ

/--
The arguments of `AddEvent` with the thread that calls it.  One overload is called
without the times.
-/
structure Entry where
  id : ℕ
  type : EventType
  thread : ℕ
  times : Option (ℤ × ℤ)

/-! ## The steps of a function -/

/--
The loop behind a step: while the profiling interval is exceeded, it pops the front and
goes on with the next one.
-/
def trim (profilingInterval updatedAt : ℤ) : List WorkStep → ℤ → List WorkStep × ℤ
  | [], beginAt => ([], beginAt)
  | front :: workTime, beginAt =>
      if profilingInterval < updatedAt - beginAt then
        trim profilingInterval updatedAt workTime
          (workTime.head?.elim beginAt WorkStep.beginTs)
      else
        (front :: workTime, beginAt)

/-- The `begin_at` of a function that gets this step. -/
def Work.begins (work : Work) (step : WorkStep) : ℤ :=
  if work.beginAt ≤ -1 then step.beginTs else work.beginAt

/-- What `Update` does with a step of a function. -/
def Work.addStep (work : Work) (profilingInterval now : ℤ) (step : WorkStep) : Work :=
  let workTime := work.workTime ++ [step]
  let beginAt := work.begins step
  let kept :=
    if 0 < now ∧ 0 < beginAt then trim profilingInterval now workTime beginAt
    else (workTime, beginAt)
  { work with
    workTime := kept.1
    beginAt := kept.2
    updatedAt := now }

namespace Profiler

section Operations

variable (clock : ℕ → ℤ) (memory : ℕ → ℤ → Event)

/-- The constructor, with what the memory of the arrays of the queue held. -/
def create : Profiler where
  state :=
    { profilingInterval := 5 * 60 * 1000000
      coroutinesCount := 0
      workGround := fun _ => none
      threads := [] }
  events := .create 2048 (memory 0)
  readings := 0

/-- `SetProfilingInterval`, in microseconds. -/
def setProfilingInterval (profiler : Profiler) (interval : ℤ) : Profiler :=
  { profiler with state := { profiler.state with profilingInterval := interval } }

/-- `RegAsyncFunction`; `insert` leaves an element that is there. -/
def regAsyncFunction (profiler : Profiler) (id : ℕ) (name : String) : Profiler :=
  { profiler with
    state :=
      { profiler.state with
        workGround := Function.update profiler.state.workGround id
          ((profiler.state.workGround id).or
            (some { id, name, workTime := [], beginAt := clock profiler.readings })) }
    readings := profiler.readings + 1 }

/-- The event that `AddEvent` allocates. -/
def newEvent (profiler : Profiler) (entry : Entry) : Event :=
  match entry.times with
  | some (beginTs, endTs) => ⟨entry.id, entry.type, entry.thread, beginTs, endTs⟩
  | none => ⟨entry.id, entry.type, entry.thread, clock profiler.readings, noTs⟩

/-- The two overloads of `AddEvent`. -/
def addEvent (profiler : Profiler) (entry : Entry) : Profiler :=
  { profiler with
    events := profiler.events.push (memory (profiler.events.garbage.length + 1))
      (profiler.newEvent clock entry)
    readings := if entry.times.isSome then profiler.readings else profiler.readings + 1 }

/-- The loop of `Update` over the events that it steals. -/
def stealEvents : ℕ → Queue Event → Queue Event × List Event
  | 0, events => (events, [])
  | count + 1, events =>
      let stolen := events.steal
      let later := stealEvents count stolen.1
      (later.1, stolen.2.toList ++ later.2)

/-- The loop of `Update` over the stolen events; `Now` is called for a registered function. -/
def applyEvent (profiler : Profiler) (event : Event) : Profiler :=
  let state := profiler.state
  match event.type with
  | .workTimeStep =>
      match state.workGround event.id with
      | some work =>
          let now := clock profiler.readings
          { profiler with
            state :=
              { state with
                workGround := Function.update state.workGround event.id
                  (some (work.addStep state.profilingInterval now event.step)) }
            readings := profiler.readings + 1 }
      | none => profiler
  | .newCoroutine =>
      { profiler with state := { state with coroutinesCount := state.coroutinesCount + 1 } }
  | .deleteCoroutine =>
      let count := state.coroutinesCount - 1
      { profiler with state := { state with coroutinesCount := if count < 0 then 0 else count } }
  | .newThread =>
      { profiler with state := { state with threads := state.threads ++ [event.thread] } }
  | .deleteThread =>
      { profiler with state := { state with threads := state.threads.filter (· ≠ event.thread) } }
  | .regAsyncFunction => profiler

/-- The vector of `Update`, after it has been reversed. -/
def newEvents (profiler : Profiler) : List Event :=
  (stealEvents profiler.events.size profiler.events).2.reverse

/-- `Update`. -/
def update (profiler : Profiler) : Profiler :=
  profiler.newEvents.foldl (applyEvent clock)
    { profiler with events := (stealEvents profiler.events.size profiler.events).1 }

end Operations

/-! ## What is in the queue -/

variable {clock : ℕ → ℤ} {memory : ℕ → ℤ → Event} {profiler : Profiler}

/-- As many steals as there are events take all of them, in their order. -/
theorem stealEvents_eq {events : Queue Event} {pending : List Event}
    (represents : Represents events pending) :
    (stealEvents pending.length events).2 = pending ∧
      Represents (stealEvents pending.length events).1 [] := by
  induction pending generalizing events with
  | nil => exact ⟨rfl, represents⟩
  | cons event pending inductionHypothesis =>
      obtain ⟨stolen, left⟩ := represents.steal
      obtain ⟨later, empty⟩ := inductionHypothesis left
      refine ⟨?_, empty⟩
      rw [List.length_cons, stealEvents]
      simp only [stolen, later, Option.toList_some, List.singleton_append]

theorem represents_addEvent {pending : List Event}
    (represents : Represents profiler.events pending) (entry : Entry) :
    Represents (profiler.addEvent clock memory entry).events
      (pending ++ [profiler.newEvent clock entry]) :=
  represents.push _ _

theorem newEvents_eq {pending : List Event} (represents : Represents profiler.events pending) :
    profiler.newEvents = pending.reverse := by
  rw [newEvents, represents.size_eq, (stealEvents_eq represents).1]

theorem events_applyEvent (profiler : Profiler) (event : Event) :
    (profiler.applyEvent clock event).events = profiler.events := by
  rw [applyEvent]
  split
  · split <;> rfl
  all_goals rfl

/-- What no event changes is not changed by a batch of them. -/
theorem foldl_applyEvent {Field : Type} (field : Profiler → Field)
    (same : ∀ profiler event, field (applyEvent clock profiler event) = field profiler)
    (profiler : Profiler) (events : List Event) :
    field (events.foldl (applyEvent clock) profiler) = field profiler := by
  induction events generalizing profiler with
  | nil => rfl
  | cons event events inductionHypothesis =>
      rw [List.foldl_cons, inductionHypothesis, same]

/-- `Update` leaves nothing in the queue. -/
theorem represents_update {pending : List Event}
    (represents : Represents profiler.events pending) :
    Represents (profiler.update clock).events [] := by
  rw [update, foldl_applyEvent (·.events) events_applyEvent, represents.size_eq]
  exact (stealEvents_eq represents).2

end Profiler

end AsyncRuntime.Profiling
