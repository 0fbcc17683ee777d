import AsyncRuntime.Foundation.TransitionSystem
import Mathlib.Data.Nat.Notation
import Mathlib.Logic.Function.Basic

/-!
# A coroutine that awaits futures

A worker runs a coroutine through `coroutine::resume`: it locks the mutex of the
coroutine, checks `is_completed`, switches to the coroutine, stores the context it
gets back in `continuation` and unlocks.

`Runtime::Await` asks the future whether it is ready.  If it is not, the coroutine
switches back with a callback that the worker runs on its own stack before
`continuation` is written: it attaches to the future a continuation that posts a
task to resume the coroutine and hands the result over to `done_future`.  The
continuation runs at once when the future has become ready, and otherwise in the
thread that fulfils it.  The overloads for shared futures are written alike.

The body of the coroutine is any sequence of awaits and yields.  Every await has
a future of its own, which may be fulfilled at any time, also before the call.  A
yield resolves the coroutine's own future, and whoever waits for that may resume
the coroutine once.
-/

namespace AsyncRuntime.Coroutine

open Foundation

universe u v w

/-- What a future holds once it is ready. -/
inductive Outcome (Failure : Type u) (Value : Type v) where
  | value (value : Value)
  | exception (failure : Failure)
  deriving DecidableEq

/-- The outcome is a value. -/
def Outcome.isValue {Failure : Type u} {Value : Type v} :
    Outcome Failure Value → Bool
  | .value _ => true
  | .exception _ => false

/--
Where the continuation attached by `Await` is; `inline` says that it runs in the
call of `then`.
-/
inductive ContinuationPc where
  | detached
  | attached
  | posting (inline : Bool)
  | getting (inline : Bool)
  | finished
  deriving DecidableEq

/--
The future of an await, its `done_future` and the number of tasks that were
posted for it; `suspends` says that the await switched the coroutine out.
-/
structure Future (Failure : Type u) (Value : Type v) where
  outcome : Option (Outcome Failure Value)
  continuation : ContinuationPc
  done : Option (Outcome Failure Value)
  assigned : Bool
  suspends : Bool
  posts : ℕ

namespace Future

variable {Failure : Type u} {Value : Type v}

/-- A future that nobody has looked at. -/
def fresh : Future Failure Value where
  outcome := none
  continuation := .detached
  done := none
  assigned := false
  suspends := false
  posts := 0

/-- `has_value` -/
def hasValue (future : Future Failure Value) : Bool :=
  future.outcome.any fun outcome => outcome.isValue

/-- `has_exception` -/
def hasException (future : Future Failure Value) : Bool :=
  future.outcome.any fun outcome => !outcome.isValue

/-- The await switches the coroutine out. -/
def suspend (future : Future Failure Value) : Future Failure Value :=
  { future with suspends := true }

/-- `then` enters the continuation of a ready future, and else attaches it. -/
def attach (future : Future Failure Value) : Future Failure Value :=
  { future with
    continuation :=
      if future.outcome.isSome then .posting true else .attached }

/-- `done_future` is assigned. -/
def assign (future : Future Failure Value) : Future Failure Value :=
  { future with assigned := true }

/-- The promise is set, which enters a continuation that is attached. -/
def fulfil (future : Future Failure Value) (outcome : Outcome Failure Value) :
    Future Failure Value :=
  { future with
    outcome := some outcome
    continuation :=
      if future.continuation = .attached then
        .posting false
      else
        future.continuation }

/-- The continuation has posted its task. -/
def post (future : Future Failure Value) (inline : Bool) :
    Future Failure Value :=
  { future with continuation := .getting inline, posts := future.posts + 1 }

/-- `return f.get()` in the continuation, which resolves `done_future`. -/
def handOver (future : Future Failure Value) : Future Failure Value :=
  { future with continuation := .finished, done := future.outcome }

end Future

/-- Where the body of the coroutine is. -/
inductive Body where
  | fresh
  | running
  | checkingValue
  | checkingException
  | suspending
  | suspended
  | resumed
  | getting
  | yielding
  | yielded
  | recalled
  | finished
  deriving DecidableEq

/-- Where the body is after a switch to it. -/
def Body.entered : Body → Option Body
  | .fresh => some .running
  | .suspended => some .resumed
  | .yielding => some .running
  | .yielded => some .running
  | .recalled => some .running
  | _ => none

/-- Where a worker is in `coroutine::resume`. -/
inductive WorkerPc where
  | idle
  | locking
  | checking
  | switched
  | attaching
  | continuing
  | assigning
  | resolving
  | writing (context : Bool)
  | unlocking
  deriving DecidableEq

/-- What an await came back with. -/
inductive Result (Failure : Type u) (Value : Type v) where
  | future (outcome : Outcome Failure Value)
  | uninitialized
  deriving DecidableEq

/--
The mutex `m`, the context in `continuation`, the posted tasks, and the futures of
the awaits by the number of their call.  `refused` says that `resume` found the
coroutine completed.
-/
structure State (Worker : Type w) (Failure : Type u) (Value : Type v) where
  mutex : Option Worker
  continuation : Bool
  pending : ℕ
  workers : Worker → WorkerPc
  body : Body
  current : ℕ
  futures : ℕ → Future Failure Value
  returned : List (ℕ × Result Failure Value)
  refused : Bool

/-- What the body does next while it runs. -/
inductive Choice where
  | await
  | yield
  | finish
  deriving DecidableEq

/--
A worker takes a task or goes on, the body makes a choice or goes on, a future is
fulfilled, its continuation goes on in the fulfilling thread, or somebody resumes
the coroutine after a yield.
-/
inductive Action (Worker : Type w) (Failure : Type u) (Value : Type v) where
  | take (worker : Worker)
  | work (worker : Worker)
  | choose (worker : Worker) (choice : Choice)
  | fulfil (number : ℕ) (outcome : Outcome Failure Value)
  | proceed (number : ℕ)
  | resume

namespace State

variable {Worker : Type w} {Failure : Type u} {Value : Type v}

/-- The coroutine has been made, and `Async` has posted the first task. -/
def create : State Worker Failure Value where
  mutex := none
  continuation := true
  pending := 1
  workers := fun _ => .idle
  body := .fresh
  current := 0
  futures := fun _ => .fresh
  returned := []
  refused := false

/-- The future of the await under way. -/
def future (state : State Worker Failure Value) : Future Failure Value :=
  state.futures state.current

/-- Write the future of an await. -/
def setFuture (state : State Worker Failure Value) (number : ℕ)
    (future : Future Failure Value) : State Worker Failure Value :=
  { state with futures := Function.update state.futures number future }

/-- `is_completed` -/
def isCompleted (state : State Worker Failure Value) : Bool :=
  decide (state.body = .finished) || !state.continuation

/-- `Runtime::Post` of a task that resumes the coroutine, for an await. -/
def post (state : State Worker Failure Value) (number : ℕ) (inline : Bool) :
    State Worker Failure Value :=
  { state.setFuture number ((state.futures number).post inline) with
    pending := state.pending + 1 }

/-- The continuation of an await ends. -/
def handOver (state : State Worker Failure Value) (number : ℕ) :
    State Worker Failure Value :=
  state.setFuture number (state.futures number).handOver

/-- An await returns to the body. -/
def conclude (state : State Worker Failure Value)
    (result : Result Failure Value) : State Worker Failure Value :=
  { state with
    body := .running
    returned := state.returned ++ [(state.current, result)] }

section Steps

variable [DecidableEq Worker]

/-- Move a worker. -/
def setWorker (state : State Worker Failure Value) (worker : Worker)
    (pc : WorkerPc) : State Worker Failure Value :=
  { state with workers := Function.update state.workers worker pc }

/-- A worker that is free takes a posted task. -/
def take (state : State Worker Failure Value) (worker : Worker) :
    Option (State Worker Failure Value) :=
  if state.workers worker = .idle ∧ 0 < state.pending then
    some { state.setWorker worker .locking with pending := state.pending - 1 }
  else
    none

/-- The body goes on by itself, on a worker. -/
def bodyStep (state : State Worker Failure Value) (worker : Worker) :
    Option (State Worker Failure Value) :=
  match state.body with
  | .checkingValue =>
      some
        { state with
          body := if state.future.hasValue then .getting else .checkingException }
  | .checkingException =>
      some
        { state with
          body := if state.future.hasException then .getting else .suspending }
  | .suspending =>
      some
        ({ state with body := .suspended }.setFuture state.current
            state.future.suspend
          |>.setWorker worker .attaching)
  | .resumed =>
      if state.future.assigned then
        state.future.done.map fun outcome => state.conclude (.future outcome)
      else
        some (state.conclude .uninitialized)
  | .getting =>
      state.future.outcome.map fun outcome => state.conclude (.future outcome)
  | _ => none

/-- A worker goes on. -/
def work (state : State Worker Failure Value) (worker : Worker) :
    Option (State Worker Failure Value) :=
  match state.workers worker with
  | .idle => none
  | .locking =>
      if state.mutex.isNone then
        some { state.setWorker worker .checking with mutex := some worker }
      else
        none
  | .checking =>
      if state.isCompleted then
        some { state.setWorker worker .unlocking with refused := true }
      else
        state.body.entered.map fun body =>
          { state.setWorker worker .switched with
            continuation := false
            body := body }
  | .switched => state.bodyStep worker
  | .attaching =>
      some
        (state.setFuture state.current state.future.attach
          |>.setWorker worker
            (if state.future.outcome.isSome then .continuing else .assigning))
  | .continuing =>
      match state.future.continuation with
      | .posting _ => some (state.post state.current true)
      | .getting _ =>
          some ((state.handOver state.current).setWorker worker .assigning)
      | _ => none
  | .assigning =>
      some
        (state.setFuture state.current state.future.assign
          |>.setWorker worker (.writing true))
  | .resolving =>
      some
        ({ state with body := .yielded }.setWorker worker (.writing true))
  | .writing context =>
      some { state.setWorker worker .unlocking with continuation := context }
  | .unlocking => some { state.setWorker worker .idle with mutex := none }

/-- The body, which runs on a worker, awaits, yields or ends. -/
def choose (state : State Worker Failure Value) (worker : Worker)
    (choice : Choice) : Option (State Worker Failure Value) :=
  if state.workers worker = .switched ∧ state.body = .running then
    match choice with
    | .await =>
        some
          { state with
            body := .checkingValue
            current := state.current + 1 }
    | .yield =>
        some
          ({ state with body := .yielding }.setWorker worker .resolving)
    | .finish =>
        some
          ({ state with body := .finished }.setWorker worker (.writing false))
  else
    none

end Steps

/-- A thread fulfils a future. -/
def fulfil (state : State Worker Failure Value) (number : ℕ)
    (outcome : Outcome Failure Value) : Option (State Worker Failure Value) :=
  if (state.futures number).outcome.isSome then
    none
  else
    some (state.setFuture number ((state.futures number).fulfil outcome))

/-- The continuation goes on in the fulfilling thread. -/
def proceed (state : State Worker Failure Value) (number : ℕ) :
    Option (State Worker Failure Value) :=
  match (state.futures number).continuation with
  | .posting false => some (state.post number false)
  | .getting false => some (state.handOver number)
  | _ => none

/-- Somebody resumes the coroutine after a yield. -/
def resume (state : State Worker Failure Value) :
    Option (State Worker Failure Value) :=
  match state.body with
  | .yielded =>
      some { state with body := .recalled, pending := state.pending + 1 }
  | _ => none

/-- One step. -/
def next [DecidableEq Worker] (state : State Worker Failure Value) :
    Action Worker Failure Value → Option (State Worker Failure Value)
  | .take worker => state.take worker
  | .work worker => state.work worker
  | .choose worker choice => state.choose worker choice
  | .fulfil number outcome => state.fulfil number outcome
  | .proceed number => state.proceed number
  | .resume => state.resume

end State

/-- The runs of one coroutine, its workers and the threads that fulfil futures. -/
def system (Worker : Type w) (Failure : Type u) (Value : Type v)
    [DecidableEq Worker] :
    TransitionSystem (State Worker Failure Value) (Action Worker Failure Value) where
  initial := fun state => state = .create
  next := State.next

end AsyncRuntime.Coroutine
