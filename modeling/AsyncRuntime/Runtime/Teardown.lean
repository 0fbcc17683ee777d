import AsyncRuntime.Foundation.TransitionSystem
import Mathlib.Data.Nat.Notation
import Mathlib.Data.List.Basic
import Mathlib.Logic.Function.Basic

/-!
# Tearing the runtime down

`Runtime::Terminate` deletes the executors one after another, an executor deletes
its groups, and a group deletes its slots and then its scheduler, which is its
last member.  The destructor of a slot joins the workers of the slot, and that of
a scheduler joins its thread.  Meanwhile the workers of the other slots go on
executing tasks, which post to any group of their executor, and the thread of a
scheduler hands the delayed tasks that fall due to a slot of its group.

A post is two steps: it enters `ExecutorWorkGroup::Post`, which picks a slot, and
then `ExecutorSlot::post` or `Scheduler::Post`.  Which slot a group picks depends
on the processor and the tag of the task; here it is part of the action.
-/

namespace AsyncRuntime.Runtime.Teardown

open AsyncRuntime.Foundation

universe u

/-- A group of an executor. -/
structure Group where
  executor : ℕ
  index : ℕ
  deriving DecidableEq

/-- A slot of a group. -/
structure Slot where
  group : Group
  index : ℕ
  deriving DecidableEq

/-- For each executor, the number of slots of each of its groups. -/
structure Layout where
  executors : List (List ℕ)

/-- What is deleted; the last one is the end of the destructor of a group. -/
inductive Instruction where
  | destroySlot (slot : Slot)
  | destroyScheduler (group : Group)
  | completeGroup (group : Group)
  deriving DecidableEq

/-- The group that an instruction is part of. -/
def Instruction.group : Instruction → Group
  | .destroySlot slot => slot.group
  | .destroyScheduler group => group
  | .completeGroup group => group

namespace Layout

variable (layout : Layout)

/-- The number of groups of an executor. -/
def groups (executor : ℕ) : ℕ :=
  (layout.executors.getD executor []).length

/-- The number of slots of a group. -/
def slots (group : Group) : ℕ :=
  (layout.executors.getD group.executor []).getD group.index 0

/-- The slot exists. -/
def contains (slot : Slot) : Bool :=
  decide (slot.index < layout.slots slot.group)

/-- `~ExecutorWorkGroup`: the slots in order, then the scheduler. -/
def destroyGroup (group : Group) : List Instruction :=
  (List.range (layout.slots group)).map (fun index => .destroySlot ⟨group, index⟩) ++
    [.destroyScheduler group, .completeGroup group]

/-- `~Executor` -/
def destroyExecutor (executor : ℕ) : List Instruction :=
  (List.range (layout.groups executor)).flatMap fun index =>
    layout.destroyGroup ⟨executor, index⟩

/-- `Runtime::Terminate` -/
def terminate : List Instruction :=
  (List.range layout.executors.length).flatMap layout.destroyExecutor

end Layout

/-- What a task is posted to: a slot, or a scheduler when it has a delay. -/
inductive Target where
  | slot (slot : Slot)
  | scheduler (group : Group)
  deriving DecidableEq

/-- The group through which a task is posted. -/
def Target.group : Target → Group
  | .slot place => place.group
  | .scheduler group => group

/-- The instruction after which nothing may be posted to the target. -/
def Target.last : Target → Instruction
  | .slot place => .destroySlot place
  | .scheduler group => .completeGroup group

/-- The target exists. -/
def Layout.offers (layout : Layout) : Target → Bool
  | .slot slot => layout.contains slot
  | .scheduler group => decide (group.index < layout.groups group.executor)

/-- The slot of each worker, and the workers that a slot has threads for. -/
structure Crew (Worker : Type u) where
  home : Worker → Slot
  threads : Slot → List Worker
  mem_threads : ∀ worker, worker ∈ threads (home worker)

/--
Where a worker is: its task may be about to enter `ExecutorWorkGroup::Post`, or be
inside it.
-/
inductive WorkerPc where
  | idle
  | running
  | calling (target : Target)
  | inside (target : Target)
  | exited
  deriving DecidableEq

/-- Where the thread of a scheduler is: `handing` is in the callback. -/
inductive SchedulerPc where
  | waiting
  | handing (slot : Slot)
  | exited
  deriving DecidableEq

/--
The destructors that have completed are counted along the instructions of
`Terminate`; `entered` says that the next one has begun.  `misplaced` says that a
post was entered on a destroyed group or slot.
-/
structure State (Worker : Type u) where
  begun : Bool
  entered : Bool
  completed : ℕ
  workers : Worker → WorkerPc
  schedulers : Group → SchedulerPc
  delayed : Group → ℕ
  misplaced : Bool

/--
Steps of `Terminate`, of a worker, and of the thread of a scheduler.
-/
inductive Action (Worker : Type u) where
  | terminate
  | enter
  | complete
  | start (worker : Worker)
  | post (worker : Worker) (target : Target)
  | work (worker : Worker)
  | finish (worker : Worker)
  | leave (worker : Worker)
  | due (slot : Slot)
  | hand (group : Group)
  | stop (group : Group)
  deriving DecidableEq

section Steps

variable {Worker : Type u} (layout : Layout) (crew : Crew Worker)

namespace State

/-- Nothing has been torn down, and some delayed tasks are waiting. -/
def create (delayed : Group → ℕ) : State Worker where
  begun := false
  entered := false
  completed := 0
  workers := fun _ => .idle
  schedulers := fun _ => .waiting
  delayed := delayed
  misplaced := false

/-- The place of an instruction in `Terminate`. -/
def position (instruction : Instruction) : ℕ :=
  layout.terminate.idxOf instruction

/-- The destructor has completed. -/
def destroyed (state : State Worker) (instruction : Instruction) : Bool :=
  decide (position layout instruction < state.completed)

/-- The destructor has begun. -/
def reached (state : State Worker) (instruction : Instruction) : Bool :=
  state.destroyed layout instruction ||
    (state.entered && decide (layout.terminate[state.completed]? = some instruction))

/-- The join of a destructor is over. -/
def joined (state : State Worker) : Instruction → Bool
  | .destroySlot slot =>
      (crew.threads slot).all fun worker => state.workers worker == .exited
  | .destroyScheduler group => state.schedulers group == .exited
  | .completeGroup _ => true

/-- A post enters `ExecutorWorkGroup::Post`. -/
def enterGroup (state : State Worker) (group : Group) : State Worker :=
  { state with
    misplaced :=
      state.misplaced || state.destroyed layout (.completeGroup group) }

/-- A post enters `ExecutorSlot::post`. -/
def enterSlot (state : State Worker) (slot : Slot) : State Worker :=
  { state with
    misplaced := state.misplaced || state.destroyed layout (.destroySlot slot) }

/-- Move the thread of a scheduler. -/
def setScheduler (state : State Worker) (group : Group) (pc : SchedulerPc) :
    State Worker :=
  { state with schedulers := Function.update state.schedulers group pc }

/-- `Terminate` is called. -/
def terminateStep (state : State Worker) : Option (State Worker) :=
  if state.begun then none else some { state with begun := true }

/-- The next destructor begins. -/
def enterStep (state : State Worker) : Option (State Worker) :=
  if state.begun ∧ state.entered = false ∧
      state.completed < layout.terminate.length then
    some { state with entered := true }
  else
    none

/-- The destructor under way ends, when its join is over. -/
def completeStep (state : State Worker) : Option (State Worker) :=
  match layout.terminate[state.completed]? with
  | some instruction =>
      if state.entered && state.joined crew instruction then
        some { state with entered := false, completed := state.completed + 1 }
      else
        none
  | none => none

/-- A delayed task falls due, and the scheduler enters the callback. -/
def due (state : State Worker) (slot : Slot) : Option (State Worker) :=
  if state.schedulers slot.group = .waiting ∧ 0 < state.delayed slot.group ∧
      layout.contains slot then
    some
      ((state.enterGroup layout slot.group).setScheduler slot.group (.handing slot))
  else
    none

/-- The scheduler hands the task to the slot and comes back. -/
def hand (state : State Worker) (group : Group) : Option (State Worker) :=
  match state.schedulers group with
  | .handing slot =>
      some
        { (state.enterSlot layout slot).setScheduler group .waiting with
          delayed :=
            Function.update state.delayed group (state.delayed group - 1) }
  | _ => none

/-- The thread of a scheduler ends once its destructor has begun. -/
def stop (state : State Worker) (group : Group) : Option (State Worker) :=
  if state.schedulers group = .waiting ∧
      state.reached layout (.destroyScheduler group) then
    some (state.setScheduler group .exited)
  else
    none

variable [DecidableEq Worker]

/-- Move a worker. -/
def setWorker (state : State Worker) (worker : Worker) (pc : WorkerPc) :
    State Worker :=
  { state with workers := Function.update state.workers worker pc }

/-- A worker takes a task. -/
def start (state : State Worker) (worker : Worker) : Option (State Worker) :=
  if state.workers worker = .idle then
    some (state.setWorker worker .running)
  else
    none

/-- A task posts another one within its executor. -/
def post (state : State Worker) (worker : Worker) (target : Target) :
    Option (State Worker) :=
  if state.workers worker = .running ∧ layout.offers target ∧
      target.group.executor = (crew.home worker).group.executor then
    some (state.setWorker worker (.calling target))
  else
    none

/-- A task goes on with its post. -/
def work (state : State Worker) (worker : Worker) : Option (State Worker) :=
  match state.workers worker with
  | .calling target =>
      some
        ((state.enterGroup layout target.group).setWorker worker (.inside target))
  | .inside (.slot slot) =>
      some ((state.enterSlot layout slot).setWorker worker .running)
  | .inside (.scheduler group) =>
      some
        { state.setWorker worker .running with
          delayed :=
            Function.update state.delayed group (state.delayed group + 1) }
  | _ => none

/-- A task ends. -/
def finish (state : State Worker) (worker : Worker) : Option (State Worker) :=
  if state.workers worker = .running then
    some (state.setWorker worker .idle)
  else
    none

/-- A worker leaves its loop once the destructor of its slot has begun. -/
def leave (state : State Worker) (worker : Worker) : Option (State Worker) :=
  if state.workers worker = .idle ∧
      state.reached layout (.destroySlot (crew.home worker)) then
    some (state.setWorker worker .exited)
  else
    none

/-- One step. -/
def next (state : State Worker) : Action Worker → Option (State Worker)
  | .terminate => state.terminateStep
  | .enter => state.enterStep layout
  | .complete => state.completeStep layout crew
  | .start worker => state.start worker
  | .post worker target => state.post layout crew worker target
  | .work worker => state.work layout worker
  | .finish worker => state.finish worker
  | .leave worker => state.leave layout crew worker
  | .due slot => state.due layout slot
  | .hand group => state.hand layout group
  | .stop group => state.stop layout group

end State

/-- The runs of a runtime whose workers belong to slots. -/
def system [DecidableEq Worker] :
    TransitionSystem (State Worker) (Action Worker) where
  initial := fun state => ∃ delayed, state = .create delayed
  next := State.next layout crew

end Steps

end AsyncRuntime.Runtime.Teardown
