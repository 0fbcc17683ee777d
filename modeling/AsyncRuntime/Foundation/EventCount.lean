import AsyncRuntime.Foundation.Refinement
import Mathlib.Data.List.Basic
import Mathlib.Logic.Function.Basic

/-!
# The event count

A waiter announces that it will wait, looks once more whether it has to, and then
either goes to sleep or cancels.  Those that have announced it decide one after
another, in the order of their announcements.  Waking up one waiter means the oldest
of those that have not decided, who then will not sleep, and if there is none the
one that has fallen asleep last.  Waking up all means all of both.
-/

namespace AsyncRuntime.Foundation.EventCount

universe u v

variable {Waiter : Type u} {Thread : Type v}

/-- Where a waiter is. -/
inductive WaiterPhase where
  | outside
  | prepared
  | committing
  | cancelling
  | asleep
  deriving DecidableEq

/-- Where a caller is: outside, before the effect of its call, or after it. -/
inductive CallPhase (Waiter : Type u) where
  | idle (result : Option Waiter)
  | calling (all : Bool)
  | done (result : Option Waiter)

/--
The undecided waiters that nobody has woken, oldest first, the sleeping ones, the last
one first, and the threads.
-/
structure State (Waiter : Type u) (Thread : Type v) where
  phases : Waiter → WaiterPhase
  queue : List Waiter
  stack : List Waiter
  calls : Thread → CallPhase Waiter

/-- Nobody waits. -/
def State.initial : State Waiter Thread where
  phases := fun _ => .outside
  queue := []
  stack := []
  calls := fun _ => .idle none

/-- The calls, the effects and the returns of the operations. -/
inductive Action (Waiter : Type u) (Thread : Type v) where
  | prepare (waiter : Waiter)
  | commit (waiter : Waiter)
  | cancel (waiter : Waiter)
  | decide (waiter : Waiter)
  | leave (waiter : Waiter)
  | notify (thread : Thread) (all : Bool)
  | effect (thread : Thread)
  | finish (thread : Thread)

/-- What an observer sees. -/
inductive Event (Waiter : Type u) (Thread : Type v) where
  | prepared (waiter : Waiter)
  | commits (waiter : Waiter)
  | cancels (waiter : Waiter)
  | left (waiter : Waiter)
  | notifies (thread : Thread) (all : Bool)
  | notified (thread : Thread) (result : Option Waiter)

namespace State

variable [DecidableEq Waiter] [DecidableEq Thread] (state : State Waiter Thread)

def setPhase (waiter : Waiter) (phase : WaiterPhase) : State Waiter Thread :=
  { state with phases := Function.update state.phases waiter phase }

def setCall (thread : Thread) (call : CallPhase Waiter) : State Waiter Thread :=
  { state with calls := Function.update state.calls thread call }

/-- The oldest undecided waiter goes to sleep or cancels. -/
def decides (waiter : Waiter) : Option (State Waiter Thread) :=
  match state.queue with
  | [] => none
  | first :: rest =>
      if first = waiter then
        match state.phases waiter with
        | .committing =>
            some
              { state.setPhase waiter .asleep with
                queue := rest
                stack := waiter :: state.stack }
        | .cancelling => some { state with queue := rest }
        | _ => none
      else
        none

/-- A waiter returns that need not sleep any more. -/
def leaves (waiter : Waiter) : Option (State Waiter Thread) :=
  if waiter ∈ state.queue ∨ waiter ∈ state.stack then
    none
  else
    match state.phases waiter with
    | .outside => none
    | .prepared => none
    | _ => some (state.setPhase waiter .outside)

/-- The waiters are woken, with what the call will return. -/
def wakes (all : Bool) : State Waiter Thread × Option Waiter :=
  if all then
    ({ state with queue := [], stack := [] }, state.stack.head?)
  else
    match state.queue, state.stack with
    | _ :: rest, _ => ({ state with queue := rest }, none)
    | [], top :: rest => ({ state with stack := rest }, some top)
    | [], [] => (state, none)

omit [DecidableEq Waiter] [DecidableEq Thread] in
/-- Nobody is woken when nobody waits. -/
theorem wakes_of_nobody {state : State Waiter Thread} (unqueued : state.queue = [])
    (awake : state.stack = []) (all : Bool) : state.wakes all = (state, none) := by
  obtain ⟨phases, queue, stack, calls⟩ := state
  subst unqueued awake
  cases all <;> rfl

/-- One step. -/
def next : Action Waiter Thread → Option (State Waiter Thread)
  | .prepare waiter =>
      match state.phases waiter with
      | .outside => some { state.setPhase waiter .prepared with queue := state.queue ++ [waiter] }
      | _ => none
  | .commit waiter =>
      match state.phases waiter with
      | .prepared => some (state.setPhase waiter .committing)
      | _ => none
  | .cancel waiter =>
      match state.phases waiter with
      | .prepared => some (state.setPhase waiter .cancelling)
      | _ => none
  | .decide waiter => state.decides waiter
  | .leave waiter => state.leaves waiter
  | .notify thread all =>
      match state.calls thread with
      | .idle _ => some (state.setCall thread (.calling all))
      | _ => none
  | .effect thread =>
      match state.calls thread with
      | .calling all => some ((state.wakes all).1.setCall thread (.done (state.wakes all).2))
      | _ => none
  | .finish thread =>
      match state.calls thread with
      | .done result => some (state.setCall thread (.idle result))
      | _ => none

/-- What a step shows. -/
def shows : Action Waiter Thread → List (Event Waiter Thread)
  | .prepare waiter => [.prepared waiter]
  | .commit waiter => [.commits waiter]
  | .cancel waiter => [.cancels waiter]
  | .leave waiter => [.left waiter]
  | .notify thread all => [.notifies thread all]
  | .finish thread =>
      match state.calls thread with
      | .done result => [.notified thread result]
      | _ => []
  | _ => []

end State

/-- The event count as an observed system. -/
def system (Waiter : Type u) (Thread : Type v) [DecidableEq Waiter] [DecidableEq Thread] :
    ObservedSystem (State Waiter Thread) (Action Waiter Thread) (Event Waiter Thread) where
  initial := fun state => state = State.initial
  next := State.next
  shows := fun source action _ => source.shows action

/-! ## Steps of one thread -/

section Steps

variable [DecidableEq Waiter] [DecidableEq Thread] {state : State Waiter Thread}

/-- A waiter has returned. -/
theorem steps_leave {waiter : Waiter} (unqueued : waiter ∉ state.queue)
    (awake : waiter ∉ state.stack)
    (inside : state.phases waiter = .committing ∨ state.phases waiter = .cancelling ∨
      state.phases waiter = .asleep) :
    (system Waiter Thread).Steps state [.left waiter] (state.setPhase waiter .outside) := by
  have taken : (system Waiter Thread).next state (.leave waiter) =
      some (state.setPhase waiter .outside) := by
    have free : ¬ (waiter ∈ state.queue ∨ waiter ∈ state.stack) :=
      not_or.mpr ⟨unqueued, awake⟩
    rcases inside with inside | inside | inside <;>
      simp only [system, State.next, State.leaves, inside, if_neg free]
  exact .one taken

/-- A call that has taken effect has returned. -/
theorem steps_finish {thread : Thread} {result : Option Waiter}
    (done : state.calls thread = .done result) :
    (system Waiter Thread).Steps state [.notified thread result]
      (state.setCall thread (.idle result)) := by
  have taken : (system Waiter Thread).next state (.finish thread) =
      some (state.setCall thread (.idle result)) := by
    simp only [system, State.next, done]
  have finished := ObservedSystem.Steps.one taken
  simpa only [system, State.shows, done] using finished

/-- A call takes effect. -/
theorem steps_effect {thread : Thread} {all : Bool}
    (calling : state.calls thread = .calling all) :
    (system Waiter Thread).Steps state []
      ((state.wakes all).1.setCall thread (.done (state.wakes all).2)) := by
  have taken : (system Waiter Thread).next state (.effect thread) =
      some ((state.wakes all).1.setCall thread (.done (state.wakes all).2)) := by
    simp only [system, State.next, calling]
  exact .one taken

/-- A call takes effect and returns at once. -/
theorem steps_effect_finish {thread : Thread} {all : Bool}
    (calling : state.calls thread = .calling all) :
    (system Waiter Thread).Steps state [.notified thread (state.wakes all).2]
      ((state.wakes all).1.setCall thread (.idle (state.wakes all).2)) := by
  have finished := @steps_finish _ _ _ _
    ((state.wakes all).1.setCall thread (.done (state.wakes all).2)) thread
    (state.wakes all).2 (Function.update_self _ _ _)
  rw [State.setCall, State.setCall, Function.update_idem] at finished
  exact (steps_effect calling).trans finished

end Steps

end AsyncRuntime.Foundation.EventCount
