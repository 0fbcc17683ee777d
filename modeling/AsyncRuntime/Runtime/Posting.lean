import AsyncRuntime.Foundation.TransitionSystem
import Mathlib.Data.Nat.Notation
import Mathlib.Logic.Function.Basic
import Mathlib.Tactic.Simps.Basic

/-!
# Who owns a posted task

An entry point of `Runtime` allocates a task, posts it and takes its future.
The push hands the task over: from then on some worker may take it out of the
queue, execute it and delete it.  `Async(coroutine)` takes the future before it
posts; the other entry points take it afterwards, from a task that may be gone.

A task is a name, which is also the name of the promise that its `execute`
resolves.  The queues of a slot hand every pushed task out to one worker, in an
order that does not matter here; a task that still has a delay waits with the
scheduler first.  `Post` is three steps: it writes the execution state of the
task on its way through executor and group, it pushes the task, and it notifies.
-/

namespace AsyncRuntime.Runtime.Posting

open AsyncRuntime.Foundation

universe u v

/-- The statements of an entry point, with the steps of `Post`. -/
inductive Statement where
  | setDelay
  | getFuture
  | route
  | handOver
  | leave
  deriving DecidableEq

/-- The statement uses the task through its pointer. -/
def Statement.touches : Statement → Bool
  | .setDelay => true
  | .getFuture => true
  | .route => true
  | .handOver => true
  | .leave => false

/-- `Post(task)`. -/
def post : List Statement :=
  [.route, .handOver, .leave]

/-- The functions of `Runtime` that post a task and return its future. -/
inductive EntryPoint where
  | async
  | asyncDelayed
  | asyncSleep
  | asyncTask
  | asyncCoroutine
  deriving DecidableEq

/-- What an entry point does with the task it has allocated. -/
def EntryPoint.body : EntryPoint → List Statement
  | .async => post ++ [.getFuture]
  | .asyncDelayed => .setDelay :: post ++ [.getFuture]
  | .asyncSleep => .setDelay :: post ++ [.getFuture]
  | .asyncTask => post ++ [.getFuture]
  | .asyncCoroutine => .getFuture :: post

/-- The future is taken before the task is handed over. -/
def EntryPoint.takesFutureFirst (entry : EntryPoint) : Bool :=
  entry.body.idxOf .getFuture < entry.body.idxOf .handOver

/-- Where a caller is: its task, whether it set a delay, and what it has yet to do. -/
inductive CallerPc where
  | idle
  | running (task : ℕ) (delay : Bool) (rest : List Statement)
  deriving DecidableEq

/-- Where a worker is: it executes its task and then deletes it. -/
inductive WorkerPc where
  | idle
  | execute (task : ℕ)
  | delete (task : ℕ)
  deriving DecidableEq

/--
The callers, the workers and the tasks between them.  `obtained` pairs a task
with the promise whose future its caller got, and `dangling` says that a caller
has used a deleted task.
-/
structure State (Client : Type u) (Worker : Type v) where
  callers : Client → CallerPc
  workers : Worker → WorkerPc
  allocated : ℕ
  delayed : List ℕ
  queue : List ℕ
  posted : List ℕ
  resolved : List ℕ
  deleted : List ℕ
  obtained : List (ℕ × Option ℕ)
  dangling : Bool

/-- Calls, and the steps of callers, scheduler and workers. -/
inductive Action (Client : Type u) (Worker : Type v) where
  | call (client : Client) (entry : EntryPoint)
  | caller (client : Client) (waits : Bool)
  | schedule (index : ℕ)
  | dequeue (worker : Worker) (index : ℕ)
  | worker (worker : Worker)

variable {Client : Type u} {Worker : Type v}

namespace State

variable (state : State Client Worker)

@[simps -fullyApplied]
def setCaller [DecidableEq Client] (client : Client) (pc : CallerPc) :
    State Client Worker :=
  { state with callers := Function.update state.callers client pc }

@[simps -fullyApplied]
def setWorker [DecidableEq Worker] (worker : Worker) (pc : WorkerPc) :
    State Client Worker :=
  { state with workers := Function.update state.workers worker pc }

/-- A caller uses its task. -/
@[simps]
def touch (task : ℕ) : State Client Worker :=
  { state with dangling := state.dangling || decide (task ∈ state.deleted) }

/-- `task->get_future()`; nothing can be said of a deleted task. -/
@[simps]
def getFuture (task : ℕ) : State Client Worker :=
  { state with
    obtained :=
      (task, if task ∈ state.deleted then none else some task) ::
        state.obtained }

/-- The task is pushed to the scheduler's heap or to a queue of the slot. -/
@[simps]
def handOver (task : ℕ) (waits : Bool) : State Client Worker :=
  { state with
    delayed := if waits then task :: state.delayed else state.delayed
    queue := if waits then state.queue else task :: state.queue
    posted := task :: state.posted }

end State

/-- Nothing has been called yet. -/
def State.initial : State Client Worker where
  callers := fun _ => .idle
  workers := fun _ => .idle
  allocated := 0
  delayed := []
  queue := []
  posted := []
  resolved := []
  deleted := []
  obtained := []
  dangling := false

/-- The effect of a statement on the tasks. -/
def perform (state : State Client Worker) (task : ℕ) (delay waits : Bool) :
    Statement → Option (State Client Worker × Bool)
  | .setDelay => some (state.touch task, true)
  | .getFuture => some ((state.touch task).getFuture task, delay)
  | .route => some (state.touch task, delay)
  | .handOver =>
      if waits && !delay then
        none
      else
        some ((state.touch task).handOver task waits, delay)
  | .leave => some (state, delay)

section

variable [DecidableEq Client] [DecidableEq Worker]

/-- The step function of the hand-over. -/
def next (state : State Client Worker) :
    Action Client Worker → Option (State Client Worker)
  | .call client entry =>
      match state.callers client with
      | .idle =>
          some { state.setCaller client (.running state.allocated false entry.body) with
            allocated := state.allocated + 1 }
      | .running _ _ _ => none
  | .caller client waits =>
      match state.callers client with
      | .idle => none
      | .running _ _ [] => some (state.setCaller client .idle)
      | .running task delay (statement :: rest) =>
          (perform state task delay waits statement).map fun done =>
            done.1.setCaller client (.running task done.2 rest)
  | .schedule index =>
      match state.delayed[index]? with
      | none => none
      | some task =>
          some { state with
            delayed := state.delayed.eraseIdx index
            queue := task :: state.queue }
  | .dequeue worker index =>
      match state.workers worker, state.queue[index]? with
      | .idle, some task =>
          some ({ state with queue := state.queue.eraseIdx index }.setWorker
            worker (.execute task))
      | _, _ => none
  | .worker worker =>
      match state.workers worker with
      | .idle => none
      | .execute task =>
          some ({ state with resolved := task :: state.resolved }.setWorker
            worker (.delete task))
      | .delete task =>
          some ({ state with deleted := task :: state.deleted }.setWorker
            worker .idle)

/-- Callers, scheduler and workers as a transition system. -/
def system (Client : Type u) (Worker : Type v) [DecidableEq Client]
    [DecidableEq Worker] :
    TransitionSystem (State Client Worker) (Action Client Worker) where
  initial := fun state => state = State.initial
  next := next

end

/-- Only these entry points are called. -/
def callsOnly (entries : EntryPoint → Prop) (_ : State Client Worker) :
    Action Client Worker → Prop
  | .call _ entry => entries entry
  | _ => True

/--
No caller has used a deleted task, and every caller has obtained the future of
the promise that the execution of its task resolves.
-/
structure State.Safe (state : State Client Worker) : Prop where
  dangling : state.dangling = false
  obtained : ∀ pair, pair ∈ state.obtained → pair.2 = some pair.1

/-! ## What one step can do -/

/-- No statement after the push uses the task. -/
def orderly : List Statement → Bool
  | [] => true
  | statement :: rest =>
      (statement ≠ .handOver || rest.all (!·.touches)) && orderly rest

theorem orderly_body_of_takesFutureFirst {entry : EntryPoint}
    (first : entry.takesFutureFirst = true) : orderly entry.body = true := by
  cases entry <;> revert first <;> decide

section

variable {state target : State Client Worker}

/-- What a statement of a caller changes. -/
structure Performed (state target : State Client Worker) (task : ℕ)
    (statement : Statement) : Prop where
  callers_eq : target.callers = state.callers
  workers_eq : target.workers = state.workers
  allocated_eq : target.allocated = state.allocated
  deleted_eq : target.deleted = state.deleted
  posted_eq :
    target.posted =
      if statement = .handOver then task :: state.posted else state.posted
  delayed_subset :
    ∀ name, name ∈ target.delayed →
      name ∈ state.delayed ∨ name = task ∧ statement = .handOver
  queue_subset :
    ∀ name, name ∈ target.queue →
      name ∈ state.queue ∨ name = task ∧ statement = .handOver
  safe :
    (statement.touches = true → task ∉ state.deleted) → state.Safe → target.Safe

theorem State.Safe.touch (safe : state.Safe) {task : ℕ}
    (live : task ∉ state.deleted) : (state.touch task).Safe := by
  constructor
  · simp [safe.dangling, live]
  · exact safe.obtained

theorem State.Safe.getFuture (safe : state.Safe) {task : ℕ}
    (live : task ∉ state.deleted) : (state.getFuture task).Safe := by
  constructor
  · exact safe.dangling
  · intro pair member
    rcases List.mem_cons.mp member with rfl | older
    · simp [live]
    · exact safe.obtained pair older

theorem performed_of_perform {task : ℕ} {delay waits set : Bool}
    {statement : Statement}
    (done : perform state task delay waits statement = some (target, set)) :
    Performed state target task statement := by
  cases statement with
  | setDelay =>
      cases done
      exact
        ⟨rfl, rfl, rfl, rfl, rfl, fun _ => .inl, fun _ => .inl,
          fun live safe => safe.touch (live rfl)⟩
  | getFuture =>
      cases done
      exact
        ⟨rfl, rfl, rfl, rfl, rfl, fun _ => .inl, fun _ => .inl,
          fun live safe => (safe.touch (live rfl)).getFuture (live rfl)⟩
  | route =>
      cases done
      exact
        ⟨rfl, rfl, rfl, rfl, rfl, fun _ => .inl, fun _ => .inl,
          fun live safe => safe.touch (live rfl)⟩
  | handOver =>
      simp only [perform] at done
      split at done
      · cases done
      · cases done
        refine ⟨rfl, rfl, rfl, rfl, rfl, ?_, ?_, ?_⟩
        · intro name member
          cases waits <;> simp_all [or_comm]
        · intro name member
          cases waits <;> simp_all [or_comm]
        · intro live safe
          exact ⟨(safe.touch (live rfl)).dangling, safe.obtained⟩
  | leave =>
      cases done
      exact
        ⟨rfl, rfl, rfl, rfl, rfl, fun _ => .inl, fun _ => .inl,
          fun _ safe => safe⟩

end

section

variable [DecidableEq Client] [DecidableEq Worker]

/-- The steps of the hand-over. -/
inductive Step (state : State Client Worker) :
    Action Client Worker → State Client Worker → Prop where
  | call {client : Client} {entry : EntryPoint}
      (idle : state.callers client = .idle) :
      Step state (.call client entry)
        { state.setCaller client (.running state.allocated false entry.body) with
          allocated := state.allocated + 1 }
  | returns {client : Client} {waits : Bool} :
      Step state (.caller client waits) (state.setCaller client .idle)
  | performs {client : Client} {waits delay set : Bool} {task : ℕ}
      {statement : Statement} {rest : List Statement}
      {target : State Client Worker}
      (place : state.callers client = .running task delay (statement :: rest))
      (performed : Performed state target task statement) :
      Step state (.caller client waits)
        (target.setCaller client (.running task set rest))
  | schedules {index task : ℕ} (found : state.delayed[index]? = some task) :
      Step state (.schedule index)
        { state with
          delayed := state.delayed.eraseIdx index
          queue := task :: state.queue }
  | dequeues {worker : Worker} {index task : ℕ}
      (found : state.queue[index]? = some task) :
      Step state (.dequeue worker index)
        ({ state with queue := state.queue.eraseIdx index }.setWorker worker
          (.execute task))
  | executes {worker : Worker} {task : ℕ}
      (place : state.workers worker = .execute task) :
      Step state (.worker worker)
        ({ state with resolved := task :: state.resolved }.setWorker worker
          (.delete task))
  | deletes {worker : Worker} {task : ℕ}
      (place : state.workers worker = .delete task) :
      Step state (.worker worker)
        ({ state with deleted := task :: state.deleted }.setWorker worker .idle)

variable {state target : State Client Worker} {action : Action Client Worker}

theorem step_of_next
    (taken : (system Client Worker).next state action = some target) :
    Step state action target := by
  replace taken : next state action = some target := taken
  cases action with
  | call client entry =>
      simp only [next] at taken
      split at taken
      · rename_i idle
        cases taken
        exact .call idle
      · cases taken
  | caller client waits =>
      simp only [next] at taken
      split at taken
      · cases taken
      · cases taken
        exact .returns
      · rename_i task delay statement rest place
        rw [Option.map_eq_some_iff] at taken
        rcases taken with ⟨⟨moved, set⟩, done, rfl⟩
        exact .performs place (performed_of_perform done)
  | schedule index =>
      simp only [next] at taken
      split at taken
      · cases taken
      · rename_i task found
        cases taken
        exact .schedules found
  | dequeue worker index =>
      simp only [next] at taken
      split at taken
      · rename_i task idle found
        cases taken
        exact .dequeues found
      · cases taken
  | worker worker =>
      simp only [next] at taken
      split at taken
      · cases taken
      · rename_i task place
        cases taken
        exact .executes place
      · rename_i task place
        cases taken
        exact .deletes place

end

/-! ## Ownership -/

/-- The task a caller was called for. -/
def CallerPc.task : CallerPc → Option ℕ
  | .idle => none
  | .running task _ _ => some task

/-- The task a worker has taken. -/
def WorkerPc.task : WorkerPc → Option ℕ
  | .idle => none
  | .execute task => some task
  | .delete task => some task

/-- A caller that will use its task has not posted it. -/
def Owns (allocated : ℕ) (posted : List ℕ) : CallerPc → Prop
  | .idle => True
  | .running task _ rest =>
      task < allocated ∧ orderly rest = true ∧
        (rest.any Statement.touches = true → task ∉ posted)

/-- No two callers have the same task. -/
def Distinct (callers : Client → CallerPc) : Prop :=
  ∀ client other task, (callers client).task = some task →
    (callers other).task = some task → client = other

/--
Callers own the tasks they have yet to use, and no two of them the same.
Everything in a queue, with a worker or deleted has been posted.
-/
structure Owned (state : State Client Worker) : Prop where
  callers :
    ∀ client, Owns state.allocated state.posted (state.callers client)
  distinct : Distinct state.callers
  posted : ∀ task, task ∈ state.posted → task < state.allocated
  delayed : ∀ task, task ∈ state.delayed → task ∈ state.posted
  queue : ∀ task, task ∈ state.queue → task ∈ state.posted
  workers :
    ∀ worker task, (state.workers worker).task = some task →
      task ∈ state.posted
  deleted : ∀ task, task ∈ state.deleted → task ∈ state.posted
  dangling : state.dangling = false
  obtained : ∀ pair, pair ∈ state.obtained → pair.2 = some pair.1

theorem Owned.safe {state : State Client Worker} (owned : Owned state) :
    state.Safe :=
  ⟨owned.dangling, owned.obtained⟩

theorem Owns.task_lt {allocated : ℕ} {posted : List ℕ} {pc : CallerPc}
    (owns : Owns allocated posted pc) {task : ℕ} (has : pc.task = some task) :
    task < allocated := by
  cases pc with
  | idle => cases has
  | running own delay rest =>
      cases has
      exact owns.1

/-- A task that was allocated or posted by somebody else makes no difference. -/
theorem Owns.mono {allocated allocated' : ℕ} {posted posted' : List ℕ}
    {pc : CallerPc} (owns : Owns allocated posted pc)
    (allocated_le : allocated ≤ allocated')
    (others :
      ∀ task, pc.task = some task → task ∈ posted' → task ∈ posted) :
    Owns allocated' posted' pc := by
  cases pc with
  | idle => trivial
  | running task delay rest =>
      rcases owns with ⟨small, ordered, unposted⟩
      refine ⟨Nat.lt_of_lt_of_le small allocated_le, ordered, ?_⟩
      intro touches member
      exact unposted touches (others task rfl member)

/-- A caller executes the next statement. -/
theorem Owns.rest {allocated task : ℕ} {posted posted' : List ℕ}
    {delay set : Bool} {statement : Statement} {rest : List Statement}
    (owns : Owns allocated posted (.running task delay (statement :: rest)))
    (posted_eq :
      posted' = if statement = .handOver then task :: posted else posted) :
    Owns allocated posted' (.running task set rest) := by
  rcases owns with ⟨small, ordered, unposted⟩
  simp only [orderly, Bool.and_eq_true] at ordered
  refine ⟨small, ordered.2, ?_⟩
  intro touches
  by_cases hands : statement = .handOver
  · have untouched := ordered.1
    simp only [hands, ne_eq, not_true, decide_false, Bool.false_or,
      List.all_eq_true] at untouched
    rcases List.any_eq_true.mp touches with ⟨later, member, touching⟩
    have quiet := untouched later member
    rw [touching] at quiet
    exact Bool.noConfusion quiet
  · rw [posted_eq, if_neg hands]
    exact unposted (by simp [touches])

theorem Distinct.update [DecidableEq Client] {callers : Client → CallerPc}
    (distinct : Distinct callers) {client : Client} {pc : CallerPc}
    (unique :
      ∀ other task, other ≠ client → pc.task = some task →
        (callers other).task ≠ some task) :
    Distinct (Function.update callers client pc) := by
  intro first second task has shares
  by_cases first_here : first = client <;> by_cases second_here : second = client
  · rw [first_here, second_here]
  · rw [first_here, Function.update_self] at has
    rw [Function.update_of_ne second_here] at shares
    exact absurd shares (unique second task second_here has)
  · rw [Function.update_of_ne first_here] at has
    rw [second_here, Function.update_self] at shares
    exact absurd has (unique first task first_here shares)
  · rw [Function.update_of_ne first_here] at has
    rw [Function.update_of_ne second_here] at shares
    exact distinct first second task has shares

/-- A worker changes place, with a task that was posted. -/
theorem Owned.setWorker [DecidableEq Worker] {state : State Client Worker}
    (owned : Owned state) {worker : Worker} {pc : WorkerPc}
    (posted : ∀ task, pc.task = some task → task ∈ state.posted) :
    Owned (state.setWorker worker pc) := by
  refine { owned with workers := ?_ }
  intro other task holds
  by_cases here : other = worker
  · rw [here, State.setWorker_workers, Function.update_self] at holds
    exact posted task holds
  · rw [State.setWorker_workers, Function.update_of_ne here] at holds
    exact owned.workers other task holds

section

variable [DecidableEq Client] {state target : State Client Worker}

theorem Owned.call (owned : Owned state) {client : Client} {entry : EntryPoint}
    (first : entry.takesFutureFirst = true) :
    Owned { state.setCaller client (.running state.allocated false entry.body) with
      allocated := state.allocated + 1 } := by
  have fresh : state.allocated ∉ state.posted :=
    fun member => Nat.lt_irrefl _ (owned.posted _ member)
  refine { owned with callers := ?_, distinct := ?_, posted := ?_ }
  · rw [State.setCaller_callers, Function.forall_update_iff]
    constructor
    · exact
        ⟨Nat.lt_succ_self _, orderly_body_of_takesFutureFirst first,
          fun _ => fresh⟩
    · exact fun other _ =>
        (owned.callers other).mono (Nat.le_succ _) fun _ _ member => member
  · refine Distinct.update owned.distinct ?_
    intro other task _ has shares
    cases has
    exact Nat.lt_irrefl _ ((owned.callers other).task_lt shares)
  · exact fun task member => Nat.lt_succ_of_lt (owned.posted task member)

theorem Owned.returns (owned : Owned state) (client : Client) :
    Owned (state.setCaller client .idle) := by
  refine { owned with callers := ?_, distinct := ?_ }
  · rw [State.setCaller_callers, Function.forall_update_iff]
    exact ⟨trivial, fun other _ => owned.callers other⟩
  · exact Distinct.update owned.distinct fun _ _ _ has => by cases has

theorem Owned.performs (owned : Owned state) {client : Client}
    {delay set : Bool} {task : ℕ} {statement : Statement} {rest : List Statement}
    (place : state.callers client = .running task delay (statement :: rest))
    (performed : Performed state target task statement) :
    Owned (target.setCaller client (.running task set rest)) := by
  have owns := owned.callers client
  rw [place] at owns
  have kept (name : ℕ) (member : name ∈ state.posted) : name ∈ target.posted := by
    rw [performed.posted_eq]
    split
    · exact List.mem_cons_of_mem task member
    · exact member
  have handed (hands : statement = .handOver) : task ∈ target.posted := by
    rw [performed.posted_eq, if_pos hands]
    exact List.mem_cons_self
  have safe : target.Safe := by
    refine performed.safe ?_ owned.safe
    intro touches gone
    exact owns.2.2 (by simp [touches]) (owned.deleted task gone)
  constructor
  · rw [State.setCaller_callers, performed.callers_eq, Function.forall_update_iff]
    constructor
    · rw [State.setCaller_allocated, performed.allocated_eq]
      exact owns.rest performed.posted_eq
    · intro other different
      refine (owned.callers other).mono (Nat.le_of_eq performed.allocated_eq.symm) ?_
      intro name has member
      rw [State.setCaller_posted, performed.posted_eq] at member
      split at member
      · rcases List.mem_cons.mp member with rfl | older
        · exact absurd
            (owned.distinct other client name has (by rw [place]; rfl)) different
        · exact older
      · exact member
  · rw [State.setCaller_callers, performed.callers_eq]
    refine Distinct.update owned.distinct ?_
    intro other name different has shares
    cases has
    exact different (owned.distinct other client task shares (by rw [place]; rfl))
  · intro name member
    rw [State.setCaller_posted, performed.posted_eq] at member
    rw [State.setCaller_allocated, performed.allocated_eq]
    split at member
    · rcases List.mem_cons.mp member with rfl | older
      · exact owns.1
      · exact owned.posted name older
    · exact owned.posted name member
  · intro name member
    rcases performed.delayed_subset name member with older | ⟨rfl, hands⟩
    · exact kept name (owned.delayed name older)
    · exact handed hands
  · intro name member
    rcases performed.queue_subset name member with older | ⟨rfl, hands⟩
    · exact kept name (owned.queue name older)
    · exact handed hands
  · intro worker name holds
    rw [State.setCaller_workers, performed.workers_eq] at holds
    exact kept name (owned.workers worker name holds)
  · intro name gone
    rw [State.setCaller_deleted, performed.deleted_eq] at gone
    exact kept name (owned.deleted name gone)
  · exact safe.dangling
  · exact safe.obtained

variable [DecidableEq Worker]

theorem Owned.step {action : Action Client Worker} (owned : Owned state)
    (step : Step state action target)
    (permitted : callsOnly (·.takesFutureFirst = true) state action) :
    Owned target := by
  cases step with
  | call idle => exact owned.call permitted
  | returns => exact owned.returns _
  | performs place performed => exact owned.performs place performed
  | schedules found =>
      have waiting := List.mem_of_getElem? found
      refine { owned with delayed := ?_, queue := ?_ }
      · exact fun task member =>
          owned.delayed task (List.mem_of_mem_eraseIdx member)
      · intro task member
        rcases List.mem_cons.mp member with rfl | older
        · exact owned.delayed _ waiting
        · exact owned.queue task older
  | dequeues found =>
      have queued := owned.queue _ (List.mem_of_getElem? found)
      apply Owned.setWorker
      · exact { owned with
          queue := fun task member =>
            owned.queue task (List.mem_of_mem_eraseIdx member) }
      · intro task has
        cases has
        exact queued
  | executes place =>
      apply Owned.setWorker
      · exact { owned with }
      · intro task has
        cases has
        exact owned.workers _ _ (by rw [place]; rfl)
  | deletes place =>
      apply Owned.setWorker
      · refine { owned with deleted := ?_ }
        intro task gone
        rcases List.mem_cons.mp gone with rfl | older
        · exact owned.workers _ _ (by rw [place]; rfl)
        · exact owned.deleted task older
      · intro task has
        cases has

/-- Entry points that take the future first never use a deleted task. -/
theorem owned_of_reachable
    (reachable :
      (system Client Worker).ReachableUnder
        (callsOnly (·.takesFutureFirst = true)) state) :
    Owned state := by
  refine reachable.invariant ?_ ?_
  · rintro state rfl
    constructor <;>
      simp [State.initial, Owns, Distinct, CallerPc.task, WorkerPc.task]
  · intro source action target _ permitted taken owned
    exact owned.step (step_of_next taken) permitted

/-- How many steps of an entry point end with the push. -/
def EntryPoint.stepsToPush : EntryPoint → ℕ
  | .async => 2
  | .asyncDelayed => 3
  | .asyncSleep => 3
  | .asyncTask => 2
  | .asyncCoroutine => 3

/--
The worker takes the task as soon as it is posted, executes it and deletes it,
and only then does the caller go on.
-/
def overtaken (client : Client) (worker : Worker) (entry : EntryPoint) :
    List (Action Client Worker) :=
  .call client entry ::
    (List.replicate entry.stepsToPush (.caller client false) ++
      [.dequeue worker 0, .worker worker, .worker worker, .caller client false,
        .caller client false])

instance (entry : EntryPoint) (state : State Client Worker)
    (action : Action Client Worker) :
    Decidable (callsOnly (· = entry) state action) :=
  match action with
  | .call _ called => inferInstanceAs (Decidable (called = entry))
  | .caller _ _ | .schedule _ => inferInstanceAs (Decidable True)
  | .dequeue _ _ | .worker _ => inferInstanceAs (Decidable True)

/-- A worker can overtake every caller that takes its future last. -/
theorem exists_dangling (client : Client) (worker : Worker) {entry : EntryPoint}
    (late : entry.takesFutureFirst ≠ true) :
    ∃ state,
      (system Client Worker).ReachableUnder (callsOnly (· = entry)) state ∧
        state.dangling = true := by
  refine TransitionSystem.exists_reachableUnder_of_run (system Client Worker)
    (callsOnly (· = entry)) rfl (overtaken client worker entry) State.dangling ?_
  cases entry with
  | asyncCoroutine => exact absurd (by decide) late
  | _ =>
      simp [overtaken, EntryPoint.stepsToPush, TransitionSystem.run, system,
        next, perform, EntryPoint.body, post, callsOnly, State.initial,
        List.replicate_succ]

/-- Allowing more entry points only adds runs. -/
theorem reachable_mono {few many : EntryPoint → Prop}
    (more : ∀ entry, few entry → many entry)
    (reachable : (system Client Worker).ReachableUnder (callsOnly few) state) :
    (system Client Worker).ReachableUnder (callsOnly many) state := by
  refine reachable.mono fun state action only => ?_
  cases action with
  | call client entry => exact more entry only
  | _ => trivial

/--
Whatever entry points are called: in every run no caller uses a deleted task and
every caller obtains the future of its task, if and only if all these entry
points take the future before they post.
-/
theorem safe_iff_takesFutureFirst (client : Client) (worker : Worker)
    (entries : EntryPoint → Prop) :
    (∀ state,
        (system Client Worker).ReachableUnder (callsOnly entries) state →
          state.Safe) ↔
      ∀ entry, entries entry → entry.takesFutureFirst = true := by
  constructor
  · intro safe entry called
    by_contra late
    rcases exists_dangling client worker late with ⟨state, reachable, dangling⟩
    have permitted := reachable_mono (fun _ only => only ▸ called) reachable
    exact absurd dangling (by simp [(safe state permitted).dangling])
  · intro first state reachable
    exact (owned_of_reachable (reachable_mono first reachable)).safe

end

/--
The entry points that take the future last: `Async(callable)` returns the future
of a task that the worker has already deleted.
-/
theorem async_takes_future_of_deleted_task :
    ¬ ∀ state : State Unit Unit,
      (system Unit Unit).ReachableUnder
          (callsOnly
            (· ∈ [.async, .asyncDelayed, .asyncSleep, .asyncTask])) state →
        state.Safe := by
  intro claim
  rcases exists_dangling () () (show EntryPoint.async.takesFutureFirst ≠ true by
    decide) with ⟨state, reachable, dangling⟩
  have safe :=
    claim state (reachable_mono (fun _ only => by simp [only]) reachable)
  exact absurd dangling (by simp [safe.dangling])

end AsyncRuntime.Runtime.Posting
