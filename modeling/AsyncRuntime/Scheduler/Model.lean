import AsyncRuntime.Foundation.TransitionSystem
import Mathlib.Data.Nat.Notation
import Mathlib.Logic.Function.Basic
import Mathlib.Tactic.Simps.Basic

/-!
# `Scheduler`

One thread runs `SchedulerLoop`, any number of threads call `Post`, and one
thread runs the destructor.  Every access to `is_continue`, every operation on
the mutex and the condition variable, the look at the heap, its changes and the
callback are steps.

Which task is on top of the heap depends on the comparator and the clock, and
whether it is due on the clock alone; both are choices of the action, made when
the thread looks at the heap.  `wait` and `wait_for` release the mutex and block in
one step, which comes after the look at the heap.  A thread blocked in one of them
is woken by `notify_one`, or by itself: a spurious wake-up, or the end of the delay.
-/

namespace AsyncRuntime.Scheduler

open AsyncRuntime.Foundation

universe u v

variable {Task : Type u} {Poster : Type v}

/-- Where the scheduler thread is in `SchedulerLoop`. -/
inductive LoopPc where
  | test
  | lock
  | examine
  | callback (top : ℕ)
  | pop (top : ℕ)
  | beginWait
  | beginWaitFor
  | wait
  | waitFor
  | reacquire
  | unlock
  | exited
  deriving DecidableEq

/-- Where a thread is in `Post`. -/
inductive PosterPc (Task : Type u) where
  | idle
  | lock (task : Task)
  | push (task : Task)
  | notify
  | unlock
  deriving DecidableEq

/-- Where the destructor is. -/
inductive DestructorPc where
  | idle
  | store
  | notify
  | join
  | finished
  deriving DecidableEq

/-- The scheduler and its threads; `called` are the tasks given to the callback. -/
structure State (Task : Type u) (Poster : Type v) where
  isContinue : Bool
  locked : Bool
  delayedTask : List Task
  loop : LoopPc
  posters : Poster → PosterPc Task
  destructor : DestructorPc
  called : List Task

/-- Calls of `Post` and of the destructor, and the steps of the threads. -/
inductive Action (Task : Type u) (Poster : Type v) where
  | loop (top : ℕ) (due : Bool)
  | wake
  | post (poster : Poster) (task : Task)
  | poster (poster : Poster)
  | destroy
  | destructor

namespace State

variable (state : State Task Poster)

@[simps]
def setLoop (pc : LoopPc) : State Task Poster :=
  { state with loop := pc }

@[simps]
def setLocked (value : Bool) : State Task Poster :=
  { state with locked := value }

@[simps -fullyApplied]
def setPoster [DecidableEq Poster] (poster : Poster) (pc : PosterPc Task) :
    State Task Poster :=
  { state with posters := Function.update state.posters poster pc }

@[simps]
def setDestructor (pc : DestructorPc) : State Task Poster :=
  { state with destructor := pc }

/-- `delayed_task_cv.notify_one()`. -/
@[simps!]
def notifyOne : State Task Poster :=
  state.setLoop <|
    match state.loop with
    | .wait => .reacquire
    | .waitFor => .reacquire
    | pc => pc

end State

/-- A step of `SchedulerLoop`. -/
def loopStep (state : State Task Poster) (top : ℕ) (due : Bool) :
    Option (State Task Poster) :=
  match state.loop with
  | .test => some (state.setLoop (if state.isContinue then .lock else .exited))
  | .lock =>
      if state.locked then none
      else some ((state.setLocked true).setLoop .examine)
  | .examine =>
      match state.delayedTask with
      | [] => some (state.setLoop .beginWait)
      | _ :: _ =>
          if top < state.delayedTask.length then
            some (state.setLoop (if due then .callback top else .beginWaitFor))
          else
            none
  | .callback top =>
      match state.delayedTask[top]? with
      | none => none
      | some task =>
          some { state.setLoop (.pop top) with called := task :: state.called }
  | .pop top =>
      some { state.setLoop .unlock with
        delayedTask := state.delayedTask.eraseIdx top }
  | .beginWait => some ((state.setLocked false).setLoop .wait)
  | .beginWaitFor => some ((state.setLocked false).setLoop .waitFor)
  | .wait => none
  | .waitFor => none
  | .reacquire =>
      if state.locked then none
      else some ((state.setLocked true).setLoop .unlock)
  | .unlock => some ((state.setLocked false).setLoop .test)
  | .exited => none

/-- A step of `~Scheduler`. -/
def destructorStep (state : State Task Poster) : Option (State Task Poster) :=
  match state.destructor with
  | .idle => none
  | .store => some { state.setDestructor .notify with isContinue := false }
  | .notify => some (state.notifyOne.setDestructor .join)
  | .join =>
      if state.loop = .exited then some (state.setDestructor .finished) else none
  | .finished => none

section

variable [DecidableEq Poster]

/-- A step of `Post`. -/
def posterStep (state : State Task Poster) (poster : Poster) :
    Option (State Task Poster) :=
  match state.posters poster with
  | .idle => none
  | .lock task =>
      if state.locked then none
      else some ((state.setLocked true).setPoster poster (.push task))
  | .push task =>
      some { state.setPoster poster .notify with
        delayedTask := task :: state.delayedTask }
  | .notify => some (state.notifyOne.setPoster poster .unlock)
  | .unlock => some ((state.setLocked false).setPoster poster .idle)

/-- The step function of the scheduler. -/
def next (state : State Task Poster) :
    Action Task Poster → Option (State Task Poster)
  | .loop top due => loopStep state top due
  | .wake =>
      match state.loop with
      | .wait => some (state.setLoop .reacquire)
      | .waitFor => some (state.setLoop .reacquire)
      | _ => none
  | .post poster task =>
      match state.posters poster with
      | .idle => some (state.setPoster poster (.lock task))
      | _ => none
  | .poster poster => posterStep state poster
  | .destroy =>
      match state.destructor with
      | .idle => some (state.setDestructor .store)
      | _ => none
  | .destructor => destructorStep state

end

/-- The scheduler after its constructor. -/
def State.initial : State Task Poster where
  isContinue := true
  locked := false
  delayedTask := []
  loop := .test
  posters := fun _ => .idle
  destructor := .idle
  called := []

/-- The scheduler with its threads as a transition system. -/
def system (Task : Type u) (Poster : Type v) [DecidableEq Poster] :
    TransitionSystem (State Task Poster) (Action Task Poster) where
  initial := fun state => state = State.initial
  next := next

/-! ## What one step can do -/

/-- The steps of the scheduler thread. -/
inductive LoopMove (state : State Task Poster) :
    LoopPc → State Task Poster → Prop where
  | continues (alive : state.isContinue = true) :
      LoopMove state .test (state.setLoop .lock)
  | exits (stopped : state.isContinue = false) :
      LoopMove state .test (state.setLoop .exited)
  | locks :
      LoopMove state .lock ((state.setLocked true).setLoop .examine)
  | misses (empty : state.delayedTask = []) :
      LoopMove state .examine (state.setLoop .beginWait)
  | finds {top : ℕ} (nonempty : state.delayedTask ≠ []) :
      LoopMove state .examine (state.setLoop (.callback top))
  | delays (nonempty : state.delayedTask ≠ []) :
      LoopMove state .examine (state.setLoop .beginWaitFor)
  | waits :
      LoopMove state .beginWait ((state.setLocked false).setLoop .wait)
  | waitsFor :
      LoopMove state .beginWaitFor ((state.setLocked false).setLoop .waitFor)
  | calls {top : ℕ} {task : Task} (found : state.delayedTask[top]? = some task) :
      LoopMove state (.callback top)
        { state.setLoop (.pop top) with called := task :: state.called }
  | pops {top : ℕ} :
      LoopMove state (.pop top)
        { state.setLoop .unlock with
          delayedTask := state.delayedTask.eraseIdx top }
  | reacquires :
      LoopMove state .reacquire ((state.setLocked true).setLoop .unlock)
  | unlocks :
      LoopMove state .unlock ((state.setLocked false).setLoop .test)

/-- The steps of the scheduler. -/
inductive Step (state : State Task Poster) [DecidableEq Poster] :
    Action Task Poster → State Task Poster → Prop where
  | loop {top : ℕ} {due : Bool} {target : State Task Poster}
      (move : LoopMove state state.loop target) :
      Step state (.loop top due) target
  | wakes (blocked : state.loop = .wait ∨ state.loop = .waitFor) :
      Step state .wake (state.setLoop .reacquire)
  | begins {poster : Poster} {task : Task} :
      Step state (.post poster task) (state.setPoster poster (.lock task))
  | posterLocks {poster : Poster} {task : Task} :
      Step state (.poster poster)
        ((state.setLocked true).setPoster poster (.push task))
  | pushes {poster : Poster} {task : Task} :
      Step state (.poster poster)
        { state.setPoster poster .notify with
          delayedTask := task :: state.delayedTask }
  | notifies {poster : Poster} :
      Step state (.poster poster) (state.notifyOne.setPoster poster .unlock)
  | posterUnlocks {poster : Poster} :
      Step state (.poster poster)
        ((state.setLocked false).setPoster poster .idle)
  | destroys (idle : state.destructor = .idle) :
      Step state .destroy (state.setDestructor .store)
  | stores (place : state.destructor = .store) :
      Step state .destructor
        { state.setDestructor .notify with isContinue := false }
  | destructorNotifies (place : state.destructor = .notify) :
      Step state .destructor (state.notifyOne.setDestructor .join)
  | joins (place : state.destructor = .join) (exited : state.loop = .exited) :
      Step state .destructor (state.setDestructor .finished)

section

variable {state target : State Task Poster}

theorem loopMove_of_step {top : ℕ} {due : Bool}
    (taken : loopStep state top due = some target) :
    LoopMove state state.loop target := by
  unfold loopStep at taken
  cases place : state.loop with
  | test =>
      simp only [place, Option.some.injEq] at taken
      subst target
      cases alive : state.isContinue
      · exact .exits alive
      · exact .continues alive
  | lock =>
      simp only [place] at taken
      split at taken <;> cases taken
      exact .locks
  | examine =>
      simp only [place] at taken
      split at taken
      · rename_i empty
        cases taken
        exact .misses empty
      · rename_i first rest nonempty
        split at taken <;> cases taken
        cases due with
        | true => exact .finds (by simp [nonempty])
        | false => exact .delays (by simp [nonempty])
  | beginWait =>
      simp only [place] at taken
      cases taken
      exact .waits
  | beginWaitFor =>
      simp only [place] at taken
      cases taken
      exact .waitsFor
  | callback top =>
      simp only [place] at taken
      split at taken
      · cases taken
      · rename_i task found
        cases taken
        exact .calls found
  | pop top =>
      simp only [place] at taken
      cases taken
      exact .pops
  | reacquire =>
      simp only [place] at taken
      split at taken <;> cases taken
      exact .reacquires
  | unlock =>
      simp only [place] at taken
      cases taken
      exact .unlocks
  | _ => simp [place] at taken

variable [DecidableEq Poster] {action : Action Task Poster}

theorem step_of_posterStep {poster : Poster}
    (taken : posterStep state poster = some target) :
    Step state (.poster poster) target := by
  unfold posterStep at taken
  split at taken
  · cases taken
  · split at taken <;> cases taken
    exact .posterLocks
  · cases taken
    exact .pushes
  · cases taken
    exact .notifies
  · cases taken
    exact .posterUnlocks

theorem step_of_destructorStep (taken : destructorStep state = some target) :
    Step state .destructor target := by
  unfold destructorStep at taken
  split at taken
  · cases taken
  · rename_i place
    cases taken
    exact .stores place
  · rename_i place
    cases taken
    exact .destructorNotifies place
  · rename_i place
    split at taken <;> cases taken
    rename_i exited
    exact .joins place exited
  · cases taken

theorem step_of_next
    (taken : (system Task Poster).next state action = some target) :
    Step state action target := by
  replace taken : next state action = some target := taken
  cases action with
  | loop top due => exact .loop (loopMove_of_step taken)
  | wake =>
      simp only [next] at taken
      split at taken
      · rename_i place
        cases taken
        exact .wakes (.inl place)
      · rename_i place
        cases taken
        exact .wakes (.inr place)
      · cases taken
  | post poster task =>
      simp only [next] at taken
      split at taken <;> cases taken
      exact .begins
  | poster poster => exact step_of_posterStep taken
  | destroy =>
      simp only [next] at taken
      split at taken
      · rename_i idle
        cases taken
        exact .destroys idle
      · cases taken
  | destructor => exact step_of_destructorStep taken

end

end AsyncRuntime.Scheduler
