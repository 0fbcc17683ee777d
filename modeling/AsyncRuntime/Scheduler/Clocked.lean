import AsyncRuntime.Foundation.BinaryHeap
import AsyncRuntime.Foundation.TransitionSystem
import AsyncRuntime.WorkGroup.Model

/-!
# The scheduler, its heap and the clock

The heap of a scheduler is touched under its mutex only, so a call of `Post`
appears as one step here; an iteration of `SchedulerLoop` is cut where it reads
the clock for another purpose.  Every reading of the clock is the next value of a
sequence.  `less_than_by_delay_ptr` asks both tasks for their delay and so reads
the clock twice, in an order that the language leaves open.

The callback of the scheduler is `ExecutorWorkGroup::Post` of the group that owns
the scheduler; other threads may have changed the group before.
-/

namespace AsyncRuntime.Scheduler.Clocked

open AsyncRuntime.Foundation
open AsyncRuntime.WorkGroup (Group Task)

/-- The values of `TIMESTAMP_NOW_MICRO()`, and which task a comparison asks first. -/
structure Readings where
  clock : ℕ → ℤ
  leftFirst : ℕ → Bool

namespace Readings

variable (readings : Readings)

/-- The reading for the left task of a comparison. -/
def left (tick : ℕ) : ℤ :=
  if readings.leftFirst tick then readings.clock tick else readings.clock (tick + 1)

/-- The reading for the right task of a comparison. -/
def right (tick : ℕ) : ℤ :=
  if readings.leftFirst tick then readings.clock (tick + 1) else readings.clock tick

/-- `less_than_by_delay_ptr`. -/
def lessThanByDelay (tick : ℕ) (lhs rhs : Task) : Bool :=
  lhs.getDelay (readings.left tick) > rhs.getDelay (readings.right tick)

/-- The comparator of `delayed_task`; a comparison takes two readings. -/
def comparator : MovingComparator ℕ Task where
  after := readings.lessThanByDelay
  tick := (· + 2)

end Readings

/-- Where the scheduler thread is; it holds the mutex unless it is ready. -/
inductive Loop where
  | ready
  | calling (task : Task)
  | popping
  | blocked
  deriving DecidableEq

/-- A use of `delayed_task.top()`: for the callback, or for the time to wait. -/
structure Use where
  task : Task
  heap : List Task
  passed : Bool
  deriving DecidableEq

/-- The scheduler; `posted`, `released` and `uses` record what has happened. -/
structure State where
  heap : List Task
  ticks : ℕ
  loop : Loop
  posted : List Task
  released : List Task
  uses : List Use
  deriving DecidableEq

/-- A call of `Post` by another thread, or a step of `SchedulerLoop`. -/
inductive Action where
  | post (task : Task)
  | examine
  | call (group : Group)
  | pop

/-- `Scheduler::Post`. -/
def State.post (readings : Readings) (state : State) (task : Task) : State :=
  let pushed := readings.comparator.push state.heap task state.ticks
  { state with
    heap := pushed.items
    ticks := pushed.moment
    posted := task :: state.posted }

/-- The look at the top of the heap; without a task the thread waits. -/
def State.examine (readings : Readings) (state : State) : State :=
  match state.heap[0]? with
  | none => state
  | some task =>
      let due := task.getDelay (readings.clock state.ticks) ≤ 0
      { state with
        ticks := state.ticks + 1
        loop := if due then .calling task else .ready
        uses := ⟨task, state.heap, due⟩ :: state.uses }

/-- `task_callback`; `Post` of the same scheduler waits for the mutex forever. -/
def State.call (readings : Readings) (state : State) (group : Group) (task : Task) :
    Option State :=
  match group.post task (readings.clock state.ticks) with
  | none => none
  | some (_, posted) =>
      match posted.destination with
      | .scheduler =>
          some { state with ticks := state.ticks + 1, loop := .blocked }
      | .slot _ _ =>
          some { state with ticks := state.ticks + 1, loop := .popping }

/-- `delayed_task.pop()`. -/
def State.pop (readings : Readings) (state : State) : State :=
  let popped := readings.comparator.pop state.heap state.ticks
  { state with
    heap := popped.items
    ticks := popped.moment
    loop := .ready
    released := state.heap.take 1 ++ state.released }

/-- One step; `none` if it is not possible. -/
def next (readings : Readings) (state : State) : Action → Option State
  | .post task =>
      match state.loop with
      | .ready => some (state.post readings task)
      | _ => none
  | .examine =>
      match state.loop with
      | .ready => some (state.examine readings)
      | _ => none
  | .call group =>
      match state.loop with
      | .calling task => state.call readings group task
      | _ => none
  | .pop =>
      match state.loop with
      | .popping => some (state.pop readings)
      | _ => none

/-- A scheduler at the beginning of an iteration, with a heap. -/
def State.start (heap : List Task) : State where
  heap := heap
  ticks := 0
  loop := .ready
  posted := heap
  released := []
  uses := []

/-- The runs that begin with a heap. -/
def system (readings : Readings) (heap : List Task) : TransitionSystem State Action where
  initial := (· = State.start heap)
  next := next readings

/-! ## What one step can do -/

/-- The steps of the scheduler. -/
inductive Step (readings : Readings) (state : State) : Action → State → Prop where
  | posts {task : Task} (free : state.loop = .ready) :
      Step readings state (.post task) (state.post readings task)
  | waits (free : state.loop = .ready) (empty : state.heap[0]? = none) :
      Step readings state .examine state
  | finds {task : Task} (free : state.loop = .ready) (top : state.heap[0]? = some task)
      (due : task.getDelay (readings.clock state.ticks) ≤ 0) :
      Step readings state .examine
        { state with
          ticks := state.ticks + 1
          loop := .calling task
          uses := ⟨task, state.heap, true⟩ :: state.uses }
  | delays {task : Task} (free : state.loop = .ready) (top : state.heap[0]? = some task)
      (early : ¬ task.getDelay (readings.clock state.ticks) ≤ 0) :
      Step readings state .examine
        { state with
          ticks := state.ticks + 1
          loop := .ready
          uses := ⟨task, state.heap, false⟩ :: state.uses }
  | calls {group : Group} {task : Task} {target : State}
      (place : state.loop = .calling task)
      (called : state.call readings group task = some target) :
      Step readings state (.call group) target
  | pops (place : state.loop = .popping) :
      Step readings state .pop (state.pop readings)

theorem step_of_next {readings : Readings} {state target : State} {action : Action}
    (taken : next readings state action = some target) :
    Step readings state action target := by
  cases action with
  | post task =>
      simp only [next] at taken
      split at taken <;> cases taken
      rename_i free
      exact .posts free
  | examine =>
      simp only [next] at taken
      split at taken <;> cases taken
      rename_i free
      unfold State.examine
      split
      · rename_i empty
        exact .waits free empty
      · rename_i task top
        by_cases due : task.getDelay (readings.clock state.ticks) ≤ 0
        · simpa [due] using Step.finds free top due
        · simpa [due] using Step.delays free top due
  | call group =>
      simp only [next] at taken
      split at taken
      · rename_i task place
        exact .calls place taken
      · cases taken
  | pop =>
      simp only [next] at taken
      split at taken <;> cases taken
      rename_i place
      exact .pops place

end AsyncRuntime.Scheduler.Clocked
