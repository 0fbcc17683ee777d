import AsyncRuntime.TaskQueue.Model
import AsyncRuntime.WorkNotifier.Model

/-!
# `ExecutorSlot`: workers, posters and the destructor

The slot couples one task queue per worker, one shared queue, the event count
and the `execute` and `done` flags.  Each worker runs the loop of `spawn`, any
number of threads run `post`, and one thread may run the destructor.  Every
atomic operation, every mutex operation and every step inside the queues and the
event count is one step; local computation may be a step of its own.

A worker is its index, which is also the index of its waiter.  A task that posts
while it runs is one of the posters.  Affinity, metrics and the map of thread
identifiers take no part in the hand-over of tasks and are left out.

Two history variables record, for every worker, the bottoms it has loaded in
`explore_task` since its last `prepare_wait`.
-/

namespace AsyncRuntime.ExecutorSlot

open AsyncRuntime.Foundation
open AsyncRuntime.TaskQueue (Level OwnerPc ThiefPc ownerStep thiefStep isEmpty)

universe u v

variable {Task : Type u} {Poster : Type v}

/-- `MAX_STEALS`. -/
def maxSteals : ℕ := 24

/-- The slot's own queue `wsq` and the `wsq` of each worker. -/
inductive QueueId where
  | shared
  | own (worker : ℕ)
  deriving DecidableEq

/-- The threads that call `notify`. -/
inductive Caller (Poster : Type v) where
  | worker (index : ℕ)
  | poster (poster : Poster)
  | destructor
  deriving DecidableEq

/-- Where a worker is inside one iteration of `explore_task`. -/
inductive ExplorePc where
  | ownBottom
  | ownTop (bottom : ℤ)
  | sharedBottom
  | sharedTop (bottom : ℤ)
  | scan (other : ℕ)
  | otherBottom (other : ℕ)
  | otherTop (other : ℕ) (bottom : ℤ)
  deriving DecidableEq

/-- Where a worker is in the loop of `spawn`. -/
inductive WorkerPc (Task : Type u) where
  | loopTest
  | exploitLock
  | exploitPop (pc : OwnerPc Task)
  | exploitSteal (pc : ThiefPc Task)
  | exploitScan (other : ℕ)
  | exploitStealOther (other : ℕ) (pc : ThiefPc Task)
  | prepareWait
  | explore (iteration : ℕ) (pc : ExplorePc)
  | cancelWait
  | notify
  | executeStore (task : Task)
  | invoke (task : Task)
  | delete (task : Task)
  | idleStore
  | commitWait
  | exited
  deriving DecidableEq

/-- Where a thread is in `post`. -/
inductive PosterPc (Task : Type u) where
  | idle
  | lock (queue : QueueId) (task : Task)
  | push (queue : QueueId) (pc : OwnerPc Task)
  | notifyWaiter (worker : ℕ) (round : ℕ)
  | notifyOne (queue : QueueId)
  | unlock (queue : QueueId)
  deriving DecidableEq

/-- Where the destructor is. -/
inductive DestructorPc where
  | idle
  | storeDone
  | notify
  | join (thread : ℕ)
  | finished
  deriving DecidableEq

/-- The slot and all its threads. -/
structure State (Task : Type u) (Poster : Type v) where
  levels : QueueId → Level Task
  locked : QueueId → Bool
  notifier : WorkNotifier.State (Caller Poster)
  execute : ℕ → Bool
  done : Bool
  workers : ℕ → WorkerPc Task
  posters : Poster → PosterPc Task
  destructor : DestructorPc
  seenOwn : ℕ → Option ℤ
  seenShared : ℕ → Option ℤ

@[simps -fullyApplied]
def State.setLevel (state : State Task Poster) (queue : QueueId)
    (level : Level Task) : State Task Poster :=
  { state with levels := Function.update state.levels queue level }

@[simps -fullyApplied]
def State.setLocked (state : State Task Poster) (queue : QueueId)
    (value : Bool) : State Task Poster :=
  { state with locked := Function.update state.locked queue value }

@[simps -fullyApplied]
def State.setNotifier (state : State Task Poster)
    (notifier : WorkNotifier.State (Caller Poster)) : State Task Poster :=
  { state with notifier := notifier }

@[simps -fullyApplied]
def State.setExecute (state : State Task Poster) (worker : ℕ) (value : Bool) :
    State Task Poster :=
  { state with execute := Function.update state.execute worker value }

@[simps -fullyApplied]
def State.setDone (state : State Task Poster) : State Task Poster :=
  { state with done := true }

@[simps -fullyApplied]
def State.setWorker (state : State Task Poster) (worker : ℕ)
    (pc : WorkerPc Task) : State Task Poster :=
  { state with workers := Function.update state.workers worker pc }

@[simps -fullyApplied]
def State.setPoster [DecidableEq Poster] (state : State Task Poster)
    (poster : Poster) (pc : PosterPc Task) : State Task Poster :=
  { state with posters := Function.update state.posters poster pc }

@[simps -fullyApplied]
def State.setDestructor (state : State Task Poster) (pc : DestructorPc) :
    State Task Poster :=
  { state with destructor := pc }

@[simps -fullyApplied]
def State.seeOwn (state : State Task Poster) (worker : ℕ)
    (bottom : Option ℤ) : State Task Poster :=
  { state with seenOwn := Function.update state.seenOwn worker bottom }

@[simps -fullyApplied]
def State.seeShared (state : State Task Poster) (worker : ℕ)
    (bottom : Option ℤ) : State Task Poster :=
  { state with seenShared := Function.update state.seenShared worker bottom }

section Step

variable [DecidableEq Poster]

/-- A step of the event count taken by a thread of the slot. -/
def State.callNotifier (state : State Task Poster) (size : ℕ)
    (action : WorkNotifier.Action (Caller Poster)) :
    Option (State Task Poster) :=
  (WorkNotifier.next size state.notifier action).map state.setNotifier

/-! ## The worker loop -/

/-- `exploit_task` after `w.wsq.pop()`. -/
def afterPop : Option Task → WorkerPc Task
  | some task => .executeStore task
  | none => .exploitSteal .loadTop

/-- `exploit_task` after `wsq.steal()`. -/
def afterSteal : Option Task → WorkerPc Task
  | some task => .executeStore task
  | none => .exploitScan 0

/-- `exploit_task` after `other_w.wsq.steal()`. -/
def afterStealOther (other : ℕ) : Option Task → WorkerPc Task
  | some task => .executeStore task
  | none => .exploitScan (other + 1)

/-- The end of an iteration of `explore_task`. -/
def afterIteration (iteration : ℕ) : WorkerPc Task :=
  if iteration + 1 < maxSteals then .explore (iteration + 1) .ownBottom
  else .idleStore

/-- `explore_task` returns true: the worker calls `cancel_wait`. -/
def State.found (state : State Task Poster) (size worker : ℕ) :
    Option (State Task Poster) :=
  (state.callNotifier size (.cancelWait worker)).map
    fun called => called.setWorker worker .cancelWait

/-- One step of `explore_task`. -/
def exploreStep (state : State Task Poster) (size worker iteration : ℕ) :
    ExplorePc → Option (State Task Poster)
  | .ownBottom =>
      let bottom := (state.levels (.own worker)).bottom
      some
        ((state.seeOwn worker (some bottom)).setWorker worker
          (.explore iteration (.ownTop bottom)))
  | .ownTop bottom =>
      if isEmpty bottom (state.levels (.own worker)).top then
        some (state.setWorker worker (.explore iteration .sharedBottom))
      else
        state.found size worker
  | .sharedBottom =>
      let bottom := (state.levels .shared).bottom
      some
        ((state.seeShared worker (some bottom)).setWorker worker
          (.explore iteration (.sharedTop bottom)))
  | .sharedTop bottom =>
      if isEmpty bottom (state.levels .shared).top then
        some (state.setWorker worker (.explore iteration (.scan 0)))
      else
        state.found size worker
  | .scan other =>
      if other < size then
        if other ≠ worker ∧ state.execute other then
          some (state.setWorker worker (.explore iteration (.otherBottom other)))
        else
          some (state.setWorker worker (.explore iteration (.scan (other + 1))))
      else
        some (state.setWorker worker (afterIteration iteration))
  | .otherBottom other =>
      some
        (state.setWorker worker
          (.explore iteration
            (.otherTop other (state.levels (.own other)).bottom)))
  | .otherTop other bottom =>
      if isEmpty bottom (state.levels (.own other)).top then
        some (state.setWorker worker (.explore iteration (.scan (other + 1))))
      else
        state.found size worker

/-- One step of the loop of `spawn`. -/
def workerStep (state : State Task Poster) (size worker : ℕ)
    (spurious : Bool) : Option (State Task Poster) :=
  match state.workers worker with
  | .loopTest =>
      some
        (state.setWorker worker (if state.done then .exited else .exploitLock))
  | .exploitLock =>
      if state.locked (.own worker) then none
      else
        some
          ((state.setLocked (.own worker) true).setWorker worker
            (.exploitPop .popLoadBottom))
  | .exploitPop (.idle result) =>
      some
        ((state.setLocked (.own worker) false).setWorker worker
          (afterPop result))
  | .exploitPop pc =>
      let moved := ownerStep (state.levels (.own worker)) pc
      some
        ((state.setLevel (.own worker) moved.1).setWorker worker
          (.exploitPop moved.2))
  | .exploitSteal (.idle result) =>
      some (state.setWorker worker (afterSteal result))
  | .exploitSteal pc =>
      let moved := thiefStep (state.levels .shared) pc
      some
        ((state.setLevel .shared moved.1).setWorker worker
          (.exploitSteal moved.2))
  | .exploitScan other =>
      if other < size then
        if other ≠ worker ∧ state.execute other then
          some (state.setWorker worker (.exploitStealOther other .loadTop))
        else
          some (state.setWorker worker (.exploitScan (other + 1)))
      else
        some (state.setWorker worker .prepareWait)
  | .exploitStealOther other (.idle result) =>
      some (state.setWorker worker (afterStealOther other result))
  | .exploitStealOther other pc =>
      let moved := thiefStep (state.levels (.own other)) pc
      some
        ((state.setLevel (.own other) moved.1).setWorker worker
          (.exploitStealOther other moved.2))
  | .prepareWait =>
      (state.callNotifier size (.prepareWait worker)).map fun called =>
        ((called.seeOwn worker none).seeShared worker none).setWorker worker
          (.explore 0 .ownBottom)
  | .explore iteration pc => exploreStep state size worker iteration pc
  | .cancelWait =>
      match state.notifier.waiting worker with
      | .idle =>
          (state.callNotifier size (.notify (.worker worker) false)).map
            fun called => called.setWorker worker .notify
      | _ => state.callNotifier size (.waiter worker spurious)
  | .notify =>
      match state.notifier.notifying (.worker worker) with
      | .returned _ => some (state.setWorker worker .loopTest)
      | _ => state.callNotifier size (.notifier (.worker worker) spurious)
  | .executeStore task =>
      some ((state.setExecute worker true).setWorker worker (.invoke task))
  | .invoke task => some (state.setWorker worker (.delete task))
  | .delete _ => some (state.setWorker worker .loopTest)
  | .idleStore =>
      ((state.setExecute worker false).callNotifier size
          (.commitWait worker)).map
        fun called => called.setWorker worker .commitWait
  | .commitWait =>
      match state.notifier.waiting worker with
      | .idle => some (state.setWorker worker .loopTest)
      | _ => state.callNotifier size (.waiter worker spurious)
  | .exited => none

/-! ## Posting -/

/-- The queue `post` chooses: the first worker on the task's processor. -/
def postQueue (cpus : List ℕ) : Option ℕ → QueueId
  | none => .shared
  | some processor =>
      match cpus.findIdx? (fun cpu => cpu == processor) with
      | some worker => .own worker
      | none => .shared

/-- The loop head of `notify_waiter`. -/
def State.notifyWaiterLoop (state : State Task Poster) (size : ℕ)
    (poster : Poster) (worker round : ℕ) : Option (State Task Poster) :=
  if round < size then
    (state.callNotifier size (.notify (.poster poster) true)).map
      fun called => called.setPoster poster (.notifyWaiter worker round)
  else
    (state.callNotifier size (.notify (.poster poster) false)).map
      fun called => called.setPoster poster (.notifyOne (.own worker))

/-- One step of `post`. -/
def posterStep (state : State Task Poster) (size : ℕ) (poster : Poster)
    (spurious : Bool) : Option (State Task Poster) :=
  match state.posters poster with
  | .idle => none
  | .lock queue task =>
      if state.locked queue then none
      else
        some
          ((state.setLocked queue true).setPoster poster
            (.push queue (.pushLoadBottom task)))
  | .push (.own worker) (.idle _) =>
      state.notifyWaiterLoop size poster worker 0
  | .push .shared (.idle _) =>
      (state.callNotifier size (.notify (.poster poster) false)).map
        fun called => called.setPoster poster (.notifyOne .shared)
  | .push queue pc =>
      let moved := ownerStep (state.levels queue) pc
      some
        ((state.setLevel queue moved.1).setPoster poster
          (.push queue moved.2))
  | .notifyWaiter worker round =>
      match state.notifier.notifying (.poster poster) with
      | .returned result =>
          if result = some worker then
            some (state.setPoster poster (.unlock (.own worker)))
          else
            state.notifyWaiterLoop size poster worker (round + 1)
      | _ => state.callNotifier size (.notifier (.poster poster) spurious)
  | .notifyOne queue =>
      match state.notifier.notifying (.poster poster) with
      | .returned _ => some (state.setPoster poster (.unlock queue))
      | _ => state.callNotifier size (.notifier (.poster poster) spurious)
  | .unlock queue =>
      some ((state.setLocked queue false).setPoster poster .idle)

/-! ## The destructor -/

/-- One step of `~ExecutorSlot`. -/
def destructorStep (state : State Task Poster) (size : ℕ) (spurious : Bool) :
    Option (State Task Poster) :=
  match state.destructor with
  | .idle => none
  | .storeDone =>
      (state.setDone.callNotifier size (.notify .destructor true)).map
        fun called => called.setDestructor .notify
  | .notify =>
      match state.notifier.notifying .destructor with
      | .returned _ => some (state.setDestructor (.join 0))
      | _ => state.callNotifier size (.notifier .destructor spurious)
  | .join thread =>
      if thread < size then
        match state.workers thread with
        | .exited => some (state.setDestructor (.join (thread + 1)))
        | _ => none
      else
        some (state.setDestructor .finished)
  | .finished => none

/-! ## The system -/

/-- Calls of `post` and of the destructor, and the steps of the threads. -/
inductive Action (Task : Type u) (Poster : Type v) where
  | worker (worker : ℕ) (spurious : Bool)
  | post (poster : Poster) (task : Task) (processor : Option ℕ)
  | poster (poster : Poster) (spurious : Bool)
  | destroy
  | destructor (spurious : Bool)

/-- The step function of a slot with one worker on each of `cpus`. -/
def next (cpus : List ℕ) (state : State Task Poster) :
    Action Task Poster → Option (State Task Poster)
  | .worker worker spurious =>
      if worker < cpus.length then
        workerStep state cpus.length worker spurious
      else none
  | .post poster task processor =>
      match state.posters poster with
      | .idle =>
          some (state.setPoster poster (.lock (postQueue cpus processor) task))
      | _ => none
  | .poster poster spurious => posterStep state cpus.length poster spurious
  | .destroy =>
      match state.destructor with
      | .idle => some (state.setDestructor .storeDone)
      | _ => none
  | .destructor spurious => destructorStep state cpus.length spurious

end Step

/-- The slot after its constructor: every worker is at the top of its loop. -/
def State.initial (size : ℕ) (memory : QueueId → ℕ → ℤ → Option Task)
    (waiters : ℕ → WorkNotifier.Waiter) : State Task Poster where
  levels := fun queue => .create 512 (memory queue)
  locked := fun _ => false
  notifier := .initial size waiters
  execute := fun _ => false
  done := false
  workers := fun _ => .loopTest
  posters := fun _ => .idle
  destructor := .idle
  seenOwn := fun _ => none
  seenShared := fun _ => none

/-- The slot with one worker on each of `cpus`. -/
def system (Task : Type u) (Poster : Type v) [DecidableEq Poster]
    (cpus : List ℕ) :
    TransitionSystem (State Task Poster) (Action Task Poster) where
  initial := fun state =>
    ∃ memory waiters, state = State.initial cpus.length memory waiters
  next := next cpus

/-- The epoch bounds of the event count, on the steps that use it. -/
def epochsBounded (state : State Task Poster) : Action Task Poster → Prop
  | .worker worker spurious =>
      WorkNotifier.epochsBounded state.notifier (.waiter worker spurious) ∧
        WorkNotifier.epochsBounded state.notifier
          (.notifier (.worker worker) spurious)
  | .poster poster spurious =>
      WorkNotifier.epochsBounded state.notifier
        (.notifier (.poster poster) spurious)
  | .destructor spurious =>
      WorkNotifier.epochsBounded state.notifier (.notifier .destructor spurious)
  | _ => True

instance (state : State Task Poster) :
    (action : Action Task Poster) → Decidable (epochsBounded state action)
  | .worker _ _ => inferInstanceAs (Decidable (_ ∧ _))
  | .post _ _ _ => inferInstanceAs (Decidable True)
  | .poster _ spurious =>
      inferInstanceAs
        (Decidable (WorkNotifier.epochsBounded _ (.notifier _ spurious)))
  | .destroy => inferInstanceAs (Decidable True)
  | .destructor spurious =>
      inferInstanceAs
        (Decidable (WorkNotifier.epochsBounded _ (.notifier _ spurious)))

end AsyncRuntime.ExecutorSlot
