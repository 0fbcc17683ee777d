import Mathlib.Data.List.AList
import AsyncRuntime.Foundation.LeastLoaded
import AsyncRuntime.ExecutorSlot.Model

/-!
# `Executor` and `ExecutorWorkGroup`

An executor hands its CPUs out to the slots of its work groups, always the first
of the least used ones, and a group routes every posted task to one of its slots:
by the processor the task has run on, by the entity the task belongs to, or to
the first slot.  A task with a delay goes to the scheduler of the group.

`size_t` and `int64_t` are 64 bits wide and compared as such.  The keys of
`cpus_peer_slot` are of type `int`, so an id is cut to its low half there.  A
pointer that is dereferenced past the end, and a division by zero, is `none`.
The share of CPUs that an option asks for is a floating-point expression; it is
kept as the integer it yields for a number of CPUs.
-/

namespace AsyncRuntime.WorkGroup

open AsyncRuntime.Foundation
open AsyncRuntime.ExecutorSlot (QueueId postQueue)

/-- `CPU::id`. -/
abbrev CpuId := BitVec 64

/-- `INVALID_OBJECT_ID`, which is `UINT_MAX`. -/
def invalidObjectId : BitVec 64 :=
  0xFFFFFFFF#64

/-- The key of an id in `cpus_peer_slot`. -/
def peerKey (cpu : CpuId) : BitVec 32 :=
  cpu.setWidth 32

/-! ## Tasks -/

/-- `task::execution_state`; an executor is its address. -/
structure ExecutionState where
  tag : BitVec 64 := invalidObjectId
  workGroup : BitVec 64 := invalidObjectId
  processor : BitVec 64 := invalidObjectId
  executor : Option ℕ := none
  deriving DecidableEq

/-- The fields of `task` that posting reads. -/
structure Task where
  state : ExecutionState
  createdAt : ℤ
  deriving DecidableEq

/-- `get_delay`, with the reading of the clock. -/
def Task.getDelay (task : Task) (now : ℤ) : ℤ :=
  task.createdAt - now

/-- `set_execution_state_wg`. -/
def Task.setExecutionStateWg (task : Task) (workGroup : ℕ) : Task :=
  { task with state := { task.state with workGroup := BitVec.ofNat 64 workGroup } }

/-- `Numbers::Pack`. -/
def pack (x y : BitVec 16) : BitVec 32 :=
  (x.setWidth 32 <<< 16) ||| y.setWidth 32

/-- `Numbers::Unpack`. -/
def unpack (value : BitVec 32) : BitVec 16 × BitVec 16 :=
  ((value >>> 16).setWidth 16, value.setWidth 16)

/-- The entity of a tag, as `Post` unpacks it. -/
def ExecutionState.entity (state : ExecutionState) : BitVec 16 :=
  (unpack (state.tag.setWidth 32)).2

/-! ## Slots -/

/-- A slot: its workers' CPUs and how many entities it has. -/
structure Slot where
  id : ℕ
  cpus : List CpuId
  entitiesCount : ℤ := 0
  deriving DecidableEq

/-- `ExecutorSlot::add_entity`. -/
@[simps]
def Slot.addEntity (slot : Slot) : Slot :=
  { slot with entitiesCount := slot.entitiesCount + 1 }

/-- `ExecutorSlot::delete_entity`. -/
@[simps]
def Slot.deleteEntity (slot : Slot) : Slot :=
  { slot with
    entitiesCount :=
      if slot.entitiesCount ≤ 0 then 0 else slot.entitiesCount - 1 }

/-- The execution state that `ExecutorSlot::invoke` passes to the task. -/
def invoke (cpu : CpuId) (state : ExecutionState) : ExecutionState :=
  { state with processor := cpu }

/-- The queue that `ExecutorSlot::post` pushes to. -/
def Slot.post (slot : Slot) (state : ExecutionState) : QueueId :=
  postQueue (slot.cpus.map BitVec.toNat)
    (if state.processor = invalidObjectId then none
      else some state.processor.toNat)

/-! ## Work groups -/

/-- `WorkGroupOption`; `maxCpus` is `(int)(n * (1.0 / (cap / util)))`. -/
structure WorkGroupOption where
  name : String
  maxCpus : ℕ → ℤ
  slotConcurrency : ℤ

/-- `ExecutorWorkGroup`. -/
structure Group where
  id : ℕ
  name : String
  slots : List Slot
  cpusPeerSlot : BitVec 32 → Option ℕ
  entitiesPeerSlot : AList (fun _ : BitVec 16 => ℕ)

/-- Where a posted task goes. -/
inductive Destination where
  | slot (index : ℕ) (queue : QueueId)
  | scheduler
  deriving DecidableEq

/-- A task on its way to a queue or to the scheduler. -/
structure Posted where
  task : Task
  destination : Destination
  deriving DecidableEq

namespace Group

/-- `slots[index]->post(task)`. -/
def postSlot (group : Group) (task : Task) (index : ℕ) :
    Option (Group × Posted) :=
  group.slots[index]?.map fun slot =>
    (group, ⟨task, .slot index (slot.post task.state)⟩)

/-- The `get_util` of the slot at an index. -/
def getUtil (group : Group) (index : ℕ) : ℤ :=
  (group.slots[index]?.map Slot.entitiesCount).getD 0

/-- An entity is added to the slot at an index, under the id of the slot. -/
@[simps]
def addEntity (group : Group) (index id : ℕ) (entity : BitVec 16) : Group :=
  { group with
    slots := group.slots.modify index Slot.addEntity
    entitiesPeerSlot := group.entitiesPeerSlot.insert entity id }

/-- An entity without a slot gets the least loaded one. -/
def placeEntity (group : Group) (task : Task) (entity : BitVec 16) :
    Option (Group × Posted) :=
  match leastLoaded group.getUtil group.slots.length with
  | none => none
  | some index =>
      group.slots[index]?.map fun slot =>
        (group.addEntity index slot.id entity,
          ⟨task, .slot index (slot.post task.state)⟩)

/-- The part of `Post` for a task with a tag. -/
def postEntity (group : Group) (task : Task) (entity : BitVec 16) :
    Option (Group × Posted) :=
  match group.entitiesPeerSlot.lookup entity with
  | some index => group.postSlot task index
  | none => group.placeEntity task entity

/-- The slot of the task's processor, if the group knows it. -/
def processorSlot (group : Group) (state : ExecutionState) : Option ℕ :=
  if state.processor = invalidObjectId then none
  else group.cpusPeerSlot (peerKey state.processor)

/-- `ExecutorWorkGroup::Post`, with the reading of the clock. -/
def post (group : Group) (posted : Task) (now : ℤ) : Option (Group × Posted) :=
  let task := posted.setExecutionStateWg group.id
  if task.getDelay now ≤ 0 then
    match group.processorSlot task.state with
    | some index => group.postSlot task index
    | none =>
        if task.state.tag = invalidObjectId then group.postSlot task 0
        else group.postEntity task task.state.entity
  else some (group, ⟨task, .scheduler⟩)

/-- An entity is removed from the slot at an index. -/
@[simps]
def removeEntity (group : Group) (index : ℕ) (entity : BitVec 16) : Group :=
  { group with
    slots := group.slots.modify index Slot.deleteEntity
    entitiesPeerSlot := group.entitiesPeerSlot.erase entity }

/-- `ExecutorWorkGroup::DeleteEntity`. -/
def deleteEntity (group : Group) (entity : BitVec 16) : Option Group :=
  match group.entitiesPeerSlot.lookup entity with
  | none => some group
  | some index =>
      group.slots[index]?.map fun _ => group.removeEntity index entity

/-- A call of one of the two operations of a group. -/
inductive Call where
  | post (task : Task) (now : ℤ)
  | deleteEntity (entity : BitVec 16)

/-- One call, with what it posts. -/
def call (group : Group) : Call → Option (Group × Option Posted)
  | .post task now =>
      (group.post task now).map fun result => (result.1, some result.2)
  | .deleteEntity entity =>
      (group.deleteEntity entity).map fun result => (result, none)

/-- A sequence of calls, with what each of them posts. -/
def run (group : Group) : List Call → Option (Group × List (Option Posted))
  | [] => some (group, [])
  | first :: rest =>
      match group.call first with
      | none => none
      | some (called, posted) =>
          (called.run rest).map fun result => (result.1, posted :: result.2)

end Group

/-! ## Construction -/

/-- The maps that the constructor of a group writes: `cpus_wg` and its own. -/
structure Assignment where
  cpusWg : ℕ → ℕ
  cpusPeerSlot : BitVec 32 → Option ℕ

/-- A slot takes the CPU at an index. -/
@[simps]
def Assignment.take (assignment : Assignment) (slot index : ℕ) (cpu : CpuId) :
    Assignment where
  cpusWg := charge assignment.cpusWg index
  cpusPeerSlot :=
    Function.update assignment.cpusPeerSlot (peerKey cpu) (some slot)

/-- One round of the inner loop: the next CPU of a slot. -/
def assignCpu (cpus : List CpuId) (slot : ℕ) (assignment : Assignment) :
    Option (Assignment × CpuId) :=
  match leastLoaded assignment.cpusWg cpus.length with
  | none => none
  | some index =>
      cpus[index]?.map fun cpu => (assignment.take slot index cpu, cpu)

/-- The inner loop, with the CPUs it has collected. -/
def assignCpus (cpus : List CpuId) (slot : ℕ) :
    ℕ → Assignment → List CpuId → Option (Assignment × List CpuId)
  | 0, assignment, chosen => some (assignment, chosen)
  | count + 1, assignment, chosen =>
      match assignCpu cpus slot assignment with
      | none => none
      | some (next, cpu) => assignCpus cpus slot count next (chosen ++ [cpu])

/-- The outer loop, with the slots it has made. -/
def assignSlots (cpus : List CpuId) (concurrency : ℕ) :
    ℕ → Assignment → List Slot → Option (Assignment × List Slot)
  | 0, assignment, slots => some (assignment, slots)
  | count + 1, assignment, slots =>
      match assignCpus cpus slots.length concurrency assignment [] with
      | none => none
      | some (next, chosen) =>
          assignSlots cpus concurrency count next
            (slots ++ [{ id := slots.length, cpus := chosen }])

/-- `slot_concurrency`, with the hardware concurrency of the machine. -/
def WorkGroupOption.concurrency (option : WorkGroupOption) (hardware : ℕ) : ℕ :=
  if 0 < option.slotConcurrency then option.slotConcurrency.toNat else hardware

/-- `max_cpus`, at least one and at most all CPUs. -/
def WorkGroupOption.cpuLimit (option : WorkGroupOption) (count : ℕ) : ℕ :=
  (min (max 1 (option.maxCpus count)) count).toNat

/-- `slots_count`. -/
def WorkGroupOption.slotsCount (option : WorkGroupOption) (hardware count : ℕ) : ℕ :=
  max 1 (option.cpuLimit count / option.concurrency hardware)

/-- The constructor of a group, which updates the usage of the CPUs. -/
def Group.create (hardware : ℕ) (cpus : List CpuId) (id : ℕ)
    (option : WorkGroupOption) (cpusWg : ℕ → ℕ) : Option (Group × (ℕ → ℕ)) :=
  if option.concurrency hardware = 0 then none
  else
    (assignSlots cpus (option.concurrency hardware)
        (option.slotsCount hardware cpus.length) ⟨cpusWg, fun _ => none⟩ []).map
      fun result =>
        ({ id := id
           name := option.name
           slots := result.2
           cpusPeerSlot := result.1.cpusPeerSlot
           entitiesPeerSlot := ∅ },
          result.1.cpusWg)

/-- The loop of the executor's constructor over its options. -/
def createGroups (hardware : ℕ) (cpus : List CpuId) :
    List WorkGroupOption → (ℕ → ℕ) → List Group → Option (List Group × (ℕ → ℕ))
  | [], cpusWg, groups => some (groups, cpusWg)
  | option :: rest, cpusWg, groups =>
      match Group.create hardware cpus groups.length option cpusWg with
      | none => none
      | some (group, used) =>
          createGroups hardware cpus rest used (groups ++ [group])

/-! ## The executor -/

/-- `Executor`; `main_group` is the first group. -/
structure Executor where
  entitiesInc : BitVec 16
  entitiesCount : ℤ
  groups : List Group

namespace Executor

/-- The constructor; it reads `groups[0]`. -/
def create (hardware : ℕ) (cpus : List CpuId) (options : List WorkGroupOption) :
    Option Executor :=
  match createGroups hardware cpus options (fun _ => 0) [] with
  | none => none
  | some ([], _) => none
  | some (first :: rest, _) =>
      some { entitiesInc := 0, entitiesCount := 0, groups := first :: rest }

/-- `Executor::AddEntity`: the counter is reset when it has passed 65500. -/
def addEntity (executor : Executor) : Executor × BitVec 16 :=
  let counted := executor.entitiesCount + 1
  if 65500 ≤ executor.entitiesInc.toNat then
    ({ executor with entitiesCount := counted, entitiesInc := 0 }, 0)
  else
    ({ executor with
        entitiesCount := counted
        entitiesInc := executor.entitiesInc + 1 },
      executor.entitiesInc)

/-- `DeleteEntity` of all groups. -/
def deleteFromGroups (entity : BitVec 16) : List Group → Option (List Group)
  | [] => some []
  | group :: rest =>
      match group.deleteEntity entity with
      | none => none
      | some deleted => (deleteFromGroups entity rest).map (deleted :: ·)

/-- `Executor::DeleteEntity`. -/
def deleteEntity (executor : Executor) (entity : BitVec 16) : Option Executor :=
  (deleteFromGroups entity executor.groups).map fun groups =>
    { executor with
      entitiesCount :=
        if executor.entitiesCount ≤ 0 then 0 else executor.entitiesCount - 1
      groups := groups }

/-- The group that `Executor::Post` chooses. -/
def groupIndex (state : ExecutionState) : ℕ :=
  if state.workGroup = invalidObjectId then 0 else state.workGroup.toNat

/-- `Executor::Post`, with the address of the executor. -/
def post (executor : Executor) (address : ℕ) (task : Task) (now : ℤ) :
    Option (Executor × Posted) :=
  let owned := { task with state := { task.state with executor := some address } }
  match executor.groups[groupIndex owned.state]? with
  | none => none
  | some group =>
      (group.post owned now).map fun result =>
        ({ executor with
            groups := executor.groups.set (groupIndex owned.state) result.1 },
          result.2)

end Executor

end AsyncRuntime.WorkGroup
