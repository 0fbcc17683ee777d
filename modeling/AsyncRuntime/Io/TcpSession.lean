import AsyncRuntime.Foundation.TransitionSystem
import Mathlib.Data.List.Basic
import Mathlib.Algebra.Order.Ring.Int

/-!
# The operations of a `tcp_session` and their timer

Every operation with a timeout arms the one `deadline_timer` of its session and
waits on it.  Arming cancels the waits of the operations before it, and a
cancelled wait is invoked as well, so `handler_deadline` does not know why it is
called: it compares the expiry that the timer has at that moment with the clock.

An action is a call from outside, the function that a call has posted to the
executor, a completion of the socket, or a step of the timer.  Times are in
microseconds.
-/

namespace AsyncRuntime.Io.Tcp

open AsyncRuntime.Foundation

/-- `boost::system::error_code`, as far as the tasks choose it themselves. -/
inductive ErrorCode where
  | success
  | timedOut
  | eof
  | other (value : ℕ)
deriving DecidableEq

/-- The overloads of `async_read`, and `async_write`. -/
inductive Call where
  | read
  | readSize (size : ℕ)
  | write (size : ℕ)
deriving DecidableEq

/-- The value of a promise. -/
inductive Outcome where
  | readResult (code : ErrorCode) (transferred : ℕ)
  | written (code : ErrorCode)
deriving DecidableEq

/-- What the executor and the socket have done for an operation. -/
inductive Stage where
  | posted
  | running
  | ended
deriving DecidableEq

/-! ## `read_task` and `write_task` -/

/--
A task of an operation.  `knowsTimer` says that its pointer to the timer is not
null; the values given to `promise.set_value` are listed, and `deadline` records
when the operation should be over.
-/
structure Operation where
  call : Call
  knowsTimer : Bool
  deadline : Option ℤ
  atLeast : ℕ
  stage : Stage
  resolved : Bool
  promise : List Outcome
deriving DecidableEq

/-- Set the value unless `resolved` is already exchanged. -/
def Operation.resolve (operation : Operation) (outcome : Outcome) : Operation :=
  -- After an exception `resolved` is set, so the `catch` clause does nothing.
  if operation.resolved then operation
  else
    { operation with
      resolved := true
      promise := operation.promise ++ [outcome] }

/-- `handler`, the completion of the socket. -/
def Operation.handler (operation : Operation) (code : ErrorCode) (transferred : ℕ) :
    Operation :=
  match operation.call with
  | .write _ => operation.resolve (.written code)
  | .read | .readSize _ => operation.resolve (.readResult code transferred)

/-- `cancel`, when the posted function throws. -/
def Operation.cancel (operation : Operation) : Operation :=
  match operation.call with
  | .write _ => operation.resolve (.written .eof)
  | .read | .readSize _ => operation.resolve (.readResult .timedOut 0)

/-- `handler_deadline`, with the expiry of the timer and the clock. -/
def Operation.handlerDeadline (operation : Operation) (expiry now : ℤ) : Operation :=
  if operation.knowsTimer = true ∧ expiry ≤ now then
    match operation.call with
    | .write _ => operation.resolve (.written .timedOut)
    | .read | .readSize _ => operation.resolve (.readResult .timedOut 0)
  else operation

/-! ## The session -/

/--
`waits` are the waits pending on the timer, and `ready` the invocations of
`handler_deadline` that are due or cancelled and have not been run.
-/
structure Session where
  now : ℤ
  readTimeout : ℤ
  expiry : ℤ
  waits : List ℕ
  ready : List ℕ
  operations : List Operation
deriving DecidableEq

/-- `boost::posix_time::seconds`. -/
def seconds (amount : ℤ) : ℤ :=
  amount * 1000000

namespace Session

/-- `deadline.cancel`. -/
def cancelWaits (session : Session) : Session :=
  { session with waits := [], ready := session.ready ++ session.waits }

/-- `deadline.expires_from_now`, which cancels the pending waits. -/
def expiresFromNow (session : Session) (duration : ℤ) : Session :=
  { session.cancelWaits with expiry := session.now + duration }

/-- `deadline.async_wait`. -/
def asyncWait (session : Session) (index : ℕ) : Session :=
  { session with waits := session.waits ++ [index] }

/-- `set_read_timeout`. -/
def setReadTimeout (session : Session) (amount : ℤ) : Session :=
  { session with readTimeout := amount }.expiresFromNow (seconds amount)

/-- The new task, its function posted to the executor. -/
def post (session : Session) (call : Call) (knowsTimer : Bool) (deadline : Option ℤ)
    (atLeast : ℕ) : Session :=
  { session with
    operations := session.operations ++
      [⟨call, knowsTimer, deadline, atLeast, .posted, false, []⟩] }

/-- The part that is common to the operations with a timeout. -/
def postWithTimeout (session : Session) (call : Call) (knowsTimer : Bool)
    (atLeast : ℕ) : Session :=
  ((session.post call knowsTimer (some (session.now + seconds session.readTimeout))
    atLeast).expiresFromNow (seconds session.readTimeout)).asyncWait
      session.operations.length

/-- `async_read()`. -/
def asyncRead (session : Session) : Session :=
  if 0 < session.readTimeout then session.postWithTimeout .read true 1
  else session.post .read false none 1

/-- `async_read(size)`; without a timeout one byte is enough. -/
def asyncReadSize (session : Session) (size : ℕ) : Session :=
  if 0 < session.readTimeout then session.postWithTimeout (.readSize size) true size
  else session.post (.readSize size) false none 1

/-- `async_write`, whose task is not given the timer. -/
def asyncWrite (session : Session) (size : ℕ) : Session :=
  if 0 < session.readTimeout then session.postWithTimeout (.write size) false size
  else session.post (.write size) false none size

/-- The call of an operation. -/
def begin (session : Session) : Call → Session
  | .read => session.asyncRead
  | .readSize size => session.asyncReadSize size
  | .write size => session.asyncWrite size

/-- One operation is changed. -/
def update (session : Session) (index : ℕ) (change : Operation → Operation) : Session :=
  { session with operations := session.operations.modify index change }

end Session

/-! ## Interleavings -/

/-- What may happen next. -/
inductive Action where
  | setReadTimeout (amount : ℤ)
  | close
  | begin (call : Call)
  | launch (index : ℕ) (thrown : Bool)
  | complete (index : ℕ) (code : ErrorCode) (transferred : ℕ)
  | advance (amount : ℕ)
  | expire
  | handleDeadline (index : ℕ)
deriving DecidableEq

/-- The function of an operation is still with the executor. -/
def Session.posted (session : Session) (index : ℕ) : Bool :=
  (session.operations[index]?).any fun operation => operation.stage = .posted

/-- The socket may complete an operation; a success has transferred what was asked. -/
def Session.completes (session : Session) (index : ℕ) (code : ErrorCode)
    (transferred : ℕ) : Bool :=
  (session.operations[index]?).any fun operation =>
    operation.stage = .running && (code ≠ .success || operation.atLeast ≤ transferred)

/-- One step; `none` if it is not possible. -/
def next (session : Session) : Action → Option Session
  | .setReadTimeout amount => some (session.setReadTimeout amount)
  | .close => some session.cancelWaits
  | .begin call => some (session.begin call)
  | .launch index thrown =>
      if session.posted index then
        some (session.update index fun operation =>
          if thrown then { operation.cancel with stage := .ended }
          else { operation with stage := .running })
      else none
  | .complete index code transferred =>
      if session.completes index code transferred then
        some (session.update index fun operation =>
          { operation.handler code transferred with stage := .ended })
      else none
  | .advance amount => some { session with now := session.now + amount }
  | .expire =>
      if session.expiry ≤ session.now then some session.cancelWaits else none
  | .handleDeadline index =>
      if index ∈ session.ready then
        some ({ session with ready := session.ready.erase index }.update index fun operation =>
          operation.handlerDeadline session.expiry session.now)
      else none

/-- A session as its constructor leaves it. -/
def Fresh (session : Session) : Prop :=
  session.readTimeout = 0 ∧ session.waits = [] ∧ session.ready = [] ∧
    session.operations = []

/-- The interleavings of a session. -/
def system : TransitionSystem Session Action where
  initial := Fresh
  next := next

/-! ## The bound -/

/-- Every due or cancelled handler of the timer has been run. -/
def Session.Quiet (session : Session) : Prop :=
  session.ready = [] ∧ (session.waits = [] ∨ session.now < session.expiry)

/-- No operation is unresolved after its own deadline when the timer is quiet. -/
def Session.Bounded (session : Session) : Prop :=
  session.Quiet →
    ∀ operation ∈ session.operations, ∀ deadline ∈ operation.deadline,
      deadline ≤ session.now → operation.promise ≠ []

/-- No promise is set twice. -/
def Session.SetOnce (session : Session) : Prop :=
  ∀ operation ∈ session.operations, operation.promise.length ≤ 1

/-! ## What the calls say

These are functions of what has happened to the session alone: of the calls, the
completions, the time that has passed, and the invocations of handlers.  The latest
action is the first of the list, and times are counted from the first action.
-/

/-- The time that has passed. -/
def elapsed : List Action → ℤ
  | [] => 0
  | .advance amount :: past => elapsed past + amount
  | _ :: past => elapsed past

/-- The last value given to `set_read_timeout`. -/
def timeoutSet : List Action → ℤ
  | [] => 0
  | .setReadTimeout amount :: _ => amount
  | _ :: past => timeoutSet past

/-- How many operations have been called. -/
def begun : List Action → ℕ
  | [] => 0
  | .begin _ :: past => begun past + 1
  | _ :: past => begun past

/--
How an operation stands.  A guarded one has a handler that will end it, an exposed
one must be ended by the socket, and one that has ended has been resolved.
-/
inductive Standing where
  | untimed
  | guarded (deadline : ℤ)
  | exposed (deadline : ℤ)
  | ended

/-- A write is exposed from its call on: its task does not know the timer. -/
def Call.standing (deadline : ℤ) : Call → Standing
  | .read | .readSize _ => .guarded deadline
  | .write _ => .exposed deadline

/-- The timer is armed anew by a later call. -/
def Standing.overtaken : Standing → Standing
  | .guarded deadline => .exposed deadline
  | other => other

/-- The timer is cancelled; a handler that is due does not mind. -/
def Standing.cancelled (time : ℤ) : Standing → Standing
  | .guarded deadline => if time < deadline then .exposed deadline else .guarded deadline
  | other => other

/-- The handler of the operation is invoked. -/
def Standing.handled : Standing → Standing
  | .guarded _ => .ended
  | other => other

/-- How an operation stands after these actions. -/
def standing (index : ℕ) : List Action → Standing
  | [] => .untimed
  | .setReadTimeout _ :: past => (standing index past).overtaken
  | .close :: past => (standing index past).cancelled (elapsed past)
  | .begin call :: past =>
      if 0 < timeoutSet past then
        if index = begun past then
          call.standing (elapsed past + seconds (timeoutSet past))
        else (standing index past).overtaken
      else if index = begun past then .untimed
      else standing index past
  | .launch other thrown :: past =>
      if other = index ∧ thrown = true then .ended else standing index past
  | .complete other _ _ :: past => if other = index then .ended else standing index past
  | .advance _ :: past => standing index past
  | .expire :: past => standing index past
  | .handleDeadline other :: past =>
      if other = index then (standing index past).handled else standing index past

/-- The deadline of a guarded operation. -/
def Standing.guardedUntil : Standing → Option ℤ
  | .guarded deadline => some deadline
  | _ => none

/-- The deadline of an exposed operation. -/
def Standing.exposedUntil : Standing → Option ℤ
  | .exposed deadline => some deadline
  | _ => none

/-- No guarded operation has reached its deadline. -/
def NoneDue (past : List Action) : Prop :=
  ∀ index < begun past, ∀ deadline ∈ (standing index past).guardedUntil,
    elapsed past < deadline

/--
Time passes the deadline of no exposed operation: the socket has ended it before.
And when a call arms the timer anew, no handler is left behind that was due.
-/
def InTime (past : List Action) : Action → Prop
  | .advance amount =>
      ∀ index < begun past, ∀ deadline ∈ (standing index past).exposedUntil,
        elapsed past + amount < deadline
  | .setReadTimeout _ => NoneDue past
  | .begin _ => 0 < timeoutSet past → NoneDue past
  | _ => True

/-- Handlers in the queue are run before time passes, and timeouts are positive. -/
def Prompt (session : Session) : Action → Prop
  | .advance _ => session.ready = []
  | .setReadTimeout amount => 0 < amount
  | _ => True

instance (session : Session) : Decidable session.Quiet :=
  inferInstanceAs (Decidable (_ ∧ _))

instance (session : Session) : Decidable session.Bounded :=
  inferInstanceAs (Decidable (session.Quiet → _))

instance (past : List Action) : Decidable (NoneDue past) :=
  inferInstanceAs (Decidable (∀ index < begun past, _))

instance (past : List Action) (action : Action) : Decidable (InTime past action) := by
  unfold InTime
  split <;> infer_instance

instance (session : Session) (action : Action) : Decidable (Prompt session action) := by
  unfold Prompt
  split <;> infer_instance

end AsyncRuntime.Io.Tcp
