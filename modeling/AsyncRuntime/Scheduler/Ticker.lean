import AsyncRuntime.Scheduler.Clocked

/-!
# `Ticker`, and the way of its tasks through the runtime

A tick either is due and resolves at once, or posts a `ticker_task` that is to be
executed after the rest of the period.  `ExecutorWorkGroup::Post` asks for the
delay of a task once more and queues it in a slot or hands it to the scheduler of
the group; the scheduler gives a due task to the callback, which is `Post` again.

One ticker is modelled, together with all other tasks that are posted meanwhile.
Every group has a scheduler with a heap of its own; which group a task goes to,
and in which state that group is, are choices of the action, and so is the order
in which the workers take tasks out of the slots.  Every reading of the clock is
the next value of one sequence.  `AsyncTick` is called again after the future of
the call before it has been resolved, or after that call has thrown an exception.
-/

namespace AsyncRuntime.Scheduler.Ticking

open AsyncRuntime.Foundation
open AsyncRuntime.Scheduler.Clocked (Readings)
open AsyncRuntime.WorkGroup (ExecutionState Group Task)

/-- Whose task it is: one of the ticker, or any other one. -/
inductive Owner where
  | ticker
  | other
  deriving DecidableEq

/-- A task and its owner. -/
structure Job where
  owner : Owner
  task : Task
  deriving DecidableEq

/-- `less_than_by_delay_ptr`; a comparison takes two readings. -/
def comparator (readings : Readings) : MovingComparator ℕ Job where
  after tick lhs rhs := readings.lessThanByDelay tick lhs.task rhs.task
  tick := (· + 2)

/-- Where the scheduler thread is; it holds the mutex unless it is ready. -/
inductive Loop where
  | ready
  | calling (job : Job)
  | popping
  | blocked
  deriving DecidableEq

/-- The scheduler of a group; `pushing` are the tasks that `Post` waits to push. -/
structure Site where
  pushing : List Job
  heap : List Job
  loop : Loop
  deriving DecidableEq

/-- Where `AsyncTick` is, or that its future has not been resolved. -/
inductive Phase where
  | idle
  | stopped
  | entered (executionState : ExecutionState)
  | due
  | early (currTickDelay : ℤ) (executionState : ExecutionState)
  | made (task : Task) (currTickDelay : ℤ) (executionState : ExecutionState)
  | delayed (task : Task)
  | waiting
  deriving DecidableEq

/-- `Ticker`, less its period. -/
structure Ticker where
  lastTickTs : ℤ
  isContinue : Bool
  phase : Phase
  deriving DecidableEq

/-- The execution of a task, with the reading of the clock. -/
structure Execution where
  job : Job
  now : ℤ
  deriving DecidableEq

/--
The ticker, the schedulers and the tasks in the slots.  `trueTicks` are the
timestamps stored by the ticks that resolved to true, the last one first.
-/
structure State where
  ticks : ℕ
  ticker : Ticker
  sites : List Site
  queued : List Job
  executed : List Execution
  trueTicks : List ℤ
  deriving DecidableEq

/-- Calls of the ticker, and the steps of callers, schedulers and workers. -/
inductive Action where
  | stop
  | asyncTick (executionState : ExecutionState)
  | advance
  | postTick (site : ℕ) (group : Group)
  | postThrows
  | post (site : ℕ) (group : Group) (task : Task)
  | push (site poster : ℕ)
  | examine (site : ℕ)
  | call (site : ℕ) (group : Group)
  | pop (site : ℕ)
  | execute (index : ℕ)

namespace State

variable (readings : Readings) (state : State)

/-- The value of the next reading. -/
def now : ℤ :=
  readings.clock state.ticks

def setPhase (phase : Phase) : State :=
  { state with ticker := { state.ticker with phase := phase } }

def setSite (index : ℕ) (site : Site) : State :=
  { state with sites := state.sites.set index site }

/-- A tick stores its timestamp and resolves to true. -/
def resolveTrue : State :=
  { state with
    ticks := state.ticks + 1
    ticker := ⟨state.now readings, state.ticker.isContinue, .idle⟩
    trueTicks := state.now readings :: state.trueTicks }

/-- The next statement of `AsyncTick` that reads the clock. -/
def advance (period : ℤ) : Option State :=
  match state.ticker.phase with
  | .stopped =>
      some { state with
        ticks := state.ticks + 1
        ticker := ⟨state.now readings, state.ticker.isContinue, .idle⟩ }
  | .entered executionState =>
      let currTickDelay := state.now readings - state.ticker.lastTickTs
      let phase :=
        if currTickDelay < period then .early (period - currTickDelay) executionState
        else .due
      some { state.setPhase phase with ticks := state.ticks + 1 }
  | .due => some (state.resolveTrue readings)
  | .early currTickDelay executionState =>
      let task : Task := { state := {}, createdAt := state.now readings }
      some { state.setPhase (.made task currTickDelay executionState) with
        ticks := state.ticks + 1 }
  | .made task currTickDelay executionState =>
      let task : Task :=
        { task with
          state := executionState
          createdAt := state.now readings + currTickDelay }
      some { state.setPhase (.delayed task) with ticks := state.ticks + 1 }
  | .idle => none
  | .delayed _ => none
  | .waiting => none

/-- `ExecutorWorkGroup::Post`, up to the push to a queue or to the heap. -/
def post (index : ℕ) (group : Group) (job : Job) : Option State :=
  match group.post job.task (state.now readings), state.sites[index]? with
  | some (_, posted), some site =>
      let moved : Job := { job with task := posted.task }
      match posted.destination with
      | .slot _ _ =>
          some { state with
            ticks := state.ticks + 1
            queued := moved :: state.queued }
      | .scheduler =>
          some { state.setSite index { site with pushing := moved :: site.pushing } with
            ticks := state.ticks + 1 }
  | _, _ => none

/-- `Scheduler::Post`, of one of the tasks to be pushed. -/
def push (index poster : ℕ) (site : Site) (job : Job) : State :=
  let pushed := (comparator readings).push site.heap job state.ticks
  let site : Site :=
    { site with pushing := site.pushing.eraseIdx poster, heap := pushed.items }
  { state.setSite index site with ticks := pushed.moment }

/-- The look at the top of the heap; without a task the thread waits. -/
def examine (index : ℕ) (site : Site) : State :=
  match site.heap[0]? with
  | none => state
  | some job =>
      let loop :=
        if job.task.getDelay (state.now readings) ≤ 0 then .calling job else .ready
      { state.setSite index { site with loop := loop } with ticks := state.ticks + 1 }

/-- `task_callback`; `Post` of the same scheduler waits for the mutex forever. -/
def call (index : ℕ) (group : Group) (site : Site) (job : Job) : Option State :=
  match group.post job.task (state.now readings) with
  | none => none
  | some (_, posted) =>
      match posted.destination with
      | .slot _ _ =>
          some { state.setSite index { site with loop := .popping } with
            ticks := state.ticks + 1
            queued := { job with task := posted.task } :: state.queued }
      | .scheduler =>
          some { state.setSite index { site with loop := .blocked } with
            ticks := state.ticks + 1 }

/-- `delayed_task.pop()`. -/
def pop (index : ℕ) (site : Site) : State :=
  let popped := (comparator readings).pop site.heap state.ticks
  { state.setSite index { site with heap := popped.items, loop := .ready } with
    ticks := popped.moment }

/-- A worker executes a task; a `ticker_task` resolves the tick. -/
def execute (index : ℕ) (job : Job) : State :=
  let taken : State :=
    { state with
      queued := state.queued.eraseIdx index
      executed := ⟨job, state.now readings⟩ :: state.executed }
  match job.owner with
  | .ticker => taken.resolveTrue readings
  | .other => { taken with ticks := state.ticks + 1 }

end State

/-- One step; `none` if it is not possible. -/
def next (readings : Readings) (period : ℤ) (state : State) : Action → Option State
  | .stop => some { state with ticker := { state.ticker with isContinue := false } }
  | .asyncTick executionState =>
      if state.ticker.phase = .idle then
        some <| state.setPhase <|
          if state.ticker.isContinue then .entered executionState else .stopped
      else none
  | .advance => state.advance readings period
  | .postTick index group =>
      match state.ticker.phase with
      | .delayed task =>
          (state.post readings index group ⟨.ticker, task⟩).map (State.setPhase · .waiting)
      | _ => none
  | .postThrows =>
      match state.ticker.phase with
      | .delayed _ => some (state.setPhase .idle)
      | _ => none
  | .post index group task => state.post readings index group ⟨.other, task⟩
  | .push index poster =>
      state.sites[index]?.bind fun site =>
        if site.loop = .ready then
          site.pushing[poster]?.map (state.push readings index poster site)
        else none
  | .examine index =>
      state.sites[index]?.bind fun site =>
        if site.loop = .ready then some (state.examine readings index site) else none
  | .call index group =>
      state.sites[index]?.bind fun site =>
        match site.loop with
        | .calling job => state.call readings index group site job
        | _ => none
  | .pop index =>
      state.sites[index]?.bind fun site =>
        if site.loop = .popping then some (state.pop readings index site) else none
  | .execute index => state.queued[index]?.map (state.execute readings index)

/-- The ticker has been constructed, and no task has been posted. -/
def State.start (readings : Readings) (groups : ℕ) : State where
  ticks := 1
  ticker := ⟨readings.clock 0, true, .idle⟩
  sites := List.replicate groups ⟨[], [], .ready⟩
  queued := []
  executed := []
  trueTicks := []

/-- The runs of a ticker with a period, in a runtime with a number of groups. -/
def system (readings : Readings) (period : ℤ) (groups : ℕ) :
    TransitionSystem State Action where
  initial := (· = State.start readings groups)
  next := next readings period

end AsyncRuntime.Scheduler.Ticking
