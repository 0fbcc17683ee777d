import AsyncRuntime.Foundation.Refinement
import Mathlib.Logic.Function.Basic

/-!
# The mailbox that keeps the latest value

One writer, one reader and any number of threads that only ask.  Writing replaces
the value, reading returns the latest one as often as it is called, and asking tells
whether a value has been written that the reader has not seen.  Every operation takes
effect in one step somewhere between its call and its return.
-/

namespace AsyncRuntime.Foundation.Mailbox

universe u v w

variable {Value : Type u} {Result : Type v} {Asker : Type w}

/-- Where the writer is: outside, before the effect of its operation, or after it. -/
inductive WriterPhase (Value : Type u) where
  | idle
  | writing (value : Value)
  | done

/-- Where the reader is, with the value that it has taken. -/
inductive ReaderPhase (Value : Type u) where
  | idle
  | reading
  | done (value : Value)

/-- Where a thread is that asks, with what it has found. -/
inductive AskerPhase where
  | idle
  | asking
  | done (fresh : Bool)

/-- The latest value, whether the reader has not seen it yet, and the threads. -/
structure State (Value : Type u) (Asker : Type w) where
  value : Value
  fresh : Bool
  writer : WriterPhase Value
  reader : ReaderPhase Value
  askers : Asker → AskerPhase

/-- The calls, the effects and the returns of the operations. -/
inductive Action (Value : Type u) (Asker : Type w) where
  | write (value : Value)
  | store
  | written
  | read
  | take
  | got
  | ask (asker : Asker)
  | look (asker : Asker)
  | told (asker : Asker)

/-- What an observer sees. -/
inductive Event (Value : Type u) (Result : Type v) (Asker : Type w) where
  | write (value : Value)
  | written
  | read
  | got (result : Result)
  | ask (asker : Asker)
  | told (asker : Asker) (fresh : Bool)

/-- Nobody is inside an operation. -/
def State.initial (value : Value) : State Value Asker where
  value := value
  fresh := false
  writer := .idle
  reader := .idle
  askers := fun _ => .idle

namespace State

variable [DecidableEq Asker] (state : State Value Asker)

def setAsker (asker : Asker) (phase : AskerPhase) : State Value Asker :=
  { state with askers := Function.update state.askers asker phase }

/-- One step. -/
def next : Action Value Asker → Option (State Value Asker)
  | .write value =>
      match state.writer with
      | .idle => some { state with writer := .writing value }
      | _ => none
  | .store =>
      match state.writer with
      | .writing value => some { state with value := value, fresh := true, writer := .done }
      | _ => none
  | .written =>
      match state.writer with
      | .done => some { state with writer := .idle }
      | _ => none
  | .read =>
      match state.reader with
      | .idle => some { state with reader := .reading }
      | _ => none
  | .take =>
      match state.reader with
      | .reading => some { state with fresh := false, reader := .done state.value }
      | _ => none
  | .got =>
      match state.reader with
      | .done _ => some { state with reader := .idle }
      | _ => none
  | .ask asker =>
      match state.askers asker with
      | .idle => some (state.setAsker asker .asking)
      | _ => none
  | .look asker =>
      match state.askers asker with
      | .asking => some (state.setAsker asker (.done state.fresh))
      | _ => none
  | .told asker =>
      match state.askers asker with
      | .done _ => some (state.setAsker asker .idle)
      | _ => none

/-- What a step shows, when the reader gets what `view` makes of the value. -/
def shows (view : Value → Result) : Action Value Asker → List (Event Value Result Asker)
  | .write value => [.write value]
  | .written => [.written]
  | .read => [.read]
  | .got =>
      match state.reader with
      | .done value => [.got (view value)]
      | _ => []
  | .ask asker => [.ask asker]
  | .told asker =>
      match state.askers asker with
      | .done fresh => [.told asker fresh]
      | _ => []
  | _ => []

end State

/-- The mailbox with an initial value. -/
def system (Asker : Type w) [DecidableEq Asker] (view : Value → Result) (value : Value) :
    ObservedSystem (State Value Asker) (Action Value Asker) (Event Value Result Asker) where
  initial := fun state => state = State.initial value
  next := State.next
  shows := fun source action _ => source.shows view action

section Steps

variable [DecidableEq Asker] {view : Value → Result} {start : Value}
  {state : State Value Asker}

/-- A write takes effect and returns. -/
theorem steps_store {value : Value} (writing : state.writer = .writing value) :
    (system Asker view start).Steps state [.written]
      { state with value := value, fresh := true, writer := .idle } := by
  have stored : (system Asker view start).next state .store =
      some { state with value := value, fresh := true, writer := .done } := by
    simp only [system, State.next, writing]
  have returned : (system Asker view start).next
      { state with value := value, fresh := true, writer := .done } .written =
        some { state with value := value, fresh := true, writer := .idle } := rfl
  exact .step stored (.one returned)

/-- A read takes the value. -/
theorem steps_take (reading : state.reader = .reading) :
    (system Asker view start).Steps state []
      { state with fresh := false, reader := .done state.value } := by
  have taken : (system Asker view start).next state .take =
      some { state with fresh := false, reader := .done state.value } := by
    simp only [system, State.next, reading]
  exact .one taken

/-- A read returns what it has taken. -/
theorem steps_got {value : Value} (done : state.reader = .done value) :
    (system Asker view start).Steps state [.got (view value)] { state with reader := .idle } := by
  have returned : (system Asker view start).next state .got =
      some { state with reader := .idle } := by
    simp only [system, State.next, done]
  have steps := ObservedSystem.Steps.one returned
  simpa only [system, State.shows, done] using steps

/-- A thread that has looked returns. -/
theorem steps_answer {asker : Asker} {fresh : Bool} (done : state.askers asker = .done fresh) :
    (system Asker view start).Steps state [.told asker fresh] (state.setAsker asker .idle) := by
  have returned : (system Asker view start).next state (.told asker) =
      some (state.setAsker asker .idle) := by
    simp only [system, State.next, done]
  have steps := ObservedSystem.Steps.one returned
  simpa only [system, State.shows, done] using steps

/-- A thread that asks is told. -/
theorem steps_told {asker : Asker} (asking : state.askers asker = .asking) :
    (system Asker view start).Steps state [.told asker state.fresh]
      (state.setAsker asker .idle) := by
  have looked : (system Asker view start).next state (.look asker) =
      some (state.setAsker asker (.done state.fresh)) := by
    simp only [system, State.next, asking]
  have answered := @steps_answer _ _ _ _ view start (state.setAsker asker (.done state.fresh))
    asker state.fresh (Function.update_self _ _ _)
  rw [State.setAsker, State.setAsker, Function.update_idem] at answered
  exact .step looked answered

end Steps

end AsyncRuntime.Foundation.Mailbox
