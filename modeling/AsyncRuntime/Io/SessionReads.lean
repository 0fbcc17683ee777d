import AsyncRuntime.Io.TcpSession
import Mathlib.Logic.Function.Basic

/-!
# The bytes that the reads of a session deliver

A `tcp_session` and a `udp_session` read into a stream buffer, from which
`read_input_stream` takes.  Their tasks and their timer are those of the session
model; here a read also has the bytes that it has transferred.

The operations of Asio are taken as documented: `async_read` with
`transfer_at_least` appends what arrives to the stream buffer and ends without an
error only if enough has arrived, and `async_receive_from` writes one datagram
into the buffer that it is given.  While two operations read from one stream
socket nothing is promised about the stream buffer.

A caller begins a read after the future of the read before has been resolved.
-/

namespace AsyncRuntime.Io.Reads

open AsyncRuntime.Foundation
open AsyncRuntime.Io.Tcp (Call ErrorCode Operation Session)

/-- A `char`. -/
abbrev Byte := UInt8

/-! ## `boost::asio::streambuf` -/

/-- The bytes that can be read, the prepared area behind them, and its size. -/
structure Streambuf where
  input : List Byte
  output : List Byte
  room : ℕ
  deriving DecidableEq

namespace Streambuf

variable (buffer : Streambuf)

/-- `prepare`, which leaves the content of the area open. -/
def prepare (room : ℕ) : Streambuf :=
  { buffer with output := [], room := room }

/-- The bytes that a device writes into the prepared area. -/
def fill (bytes : List Byte) : Streambuf :=
  { buffer with output := bytes }

/-- `commit`. -/
def commit (count : ℕ) : Streambuf where
  input := buffer.input ++ buffer.output.take count
  output := buffer.output.drop count
  room := buffer.room - count

/-- `consume`. -/
def consume (count : ℕ) : Streambuf :=
  { buffer with input := buffer.input.drop count }

theorem input_commit_fill (room : ℕ) (bytes : List Byte) :
    (((buffer.prepare room).fill bytes).commit bytes.length).input = buffer.input ++ bytes := by
  simp [prepare, fill, commit]

end Streambuf

/-! ## The state -/

/--
A read that has been resolved without an error: how many bytes it has reported,
and how many had become readable before its call and at its end.
-/
structure Report where
  call : Call
  transferred : ℕ
  before : ℕ
  published : ℕ
  deriving DecidableEq

/--
A session with its stream buffer.  `received` are the bytes that the socket has
given to the reads and `returned` those that `read_input_stream` has given to the
caller; `begun` and `transferred` belong to the operations.
-/
structure State where
  session : Session
  buffer : Streambuf
  received : List Byte
  returned : List Byte
  begun : ℕ → ℕ
  transferred : ℕ → ℕ
  reports : List Report

/-- The operation is a read. -/
def isRead : Call → Bool
  | .read => true
  | .readSize _ => true
  | .write _ => false

/-- The operation reads from the socket. -/
def reading (operation : Operation) : Bool :=
  isRead operation.call && operation.stage = .running

namespace State

variable (state : State)

/-- How many bytes have become readable. -/
def published : ℕ :=
  state.returned.length + state.buffer.input.length

/-- The future of every read has been resolved. -/
def settled : Bool :=
  state.session.operations.all fun operation => !isRead operation.call || operation.resolved

/-- Two operations read from the socket. -/
def overlapping : Bool :=
  2 ≤ state.session.operations.countP reading

/-- The operation at an index has a property. -/
def operationHas (index : ℕ) (property : Operation → Bool) : Bool :=
  (state.session.operations[index]?).any property

/-- An operation has been begun. -/
def begin (session : Session) : State :=
  { state with
    session := session
    begun := Function.update state.begun state.session.operations.length state.published }

/-- A completion without an error that sets the promise of a read. -/
def report (index : ℕ) (code : ErrorCode) (transferred : ℕ) : List Report :=
  match state.session.operations[index]? with
  | none => []
  | some operation =>
      if isRead operation.call ∧ operation.resolved = false ∧ code = .success then
        [⟨operation.call, transferred, state.begun index, state.published⟩]
      else []

/-- A step of the session that does not touch the bytes. -/
def sessionStep (action : Tcp.Action) : Option State :=
  (Tcp.next state.session action).map fun session => { state with session := session }

/-- The completion handler of an operation. -/
def complete (index : ℕ) (code : ErrorCode) (transferred : ℕ) : Option State :=
  (Tcp.next state.session (.complete index code transferred)).map fun session =>
    { state with
      session := session
      reports := state.report index code transferred ++ state.reports }

/-- `read_input_stream`. -/
def readInputStream (size : ℕ) : State :=
  let minSize := min state.buffer.input.length size
  { state with
    buffer := state.buffer.consume minSize
    returned := state.returned ++ state.buffer.input.take minSize }

end State

/-! ## `tcp_session` -/

/-- What may happen to a `tcp_session`. -/
inductive TcpAction where
  | begin (call : Call)
  | session (action : Tcp.Action)
  | receive (index room : ℕ) (bytes : List Byte)
  | complete (index : ℕ) (code : ErrorCode)
  | readInputStream (size : ℕ)
  | clobber (content : List Byte)

/-- The steps that are neither a call nor the completion of a read. -/
def State.allows (state : State) : Tcp.Action → Bool
  | .begin _ => false
  | .complete index _ _ => state.operationHas index fun operation => !isRead operation.call
  | .setReadTimeout _ => true
  | .close => true
  | .launch _ _ => true
  | .advance _ => true
  | .expire => true
  | .handleDeadline _ => true

/-- A part of the stream arrives for a read that has not got enough. -/
def State.receive (state : State) (index room : ℕ) (bytes : List Byte) : State :=
  { state with
    buffer := ((state.buffer.prepare room).fill bytes).commit bytes.length
    received := state.received ++ bytes
    transferred :=
      Function.update state.transferred index (state.transferred index + bytes.length) }

/-- One step; `none` if it is not possible. -/
def tcpNext (state : State) : TcpAction → Option State
  | .begin call =>
      if !isRead call || state.settled then some (state.begin (state.session.begin call))
      else none
  | .session action => if state.allows action then state.sessionStep action else none
  | .receive index room bytes =>
      if state.operationHas index (fun operation =>
            reading operation && state.transferred index < operation.atLeast) ∧
          bytes ≠ [] ∧ bytes.length ≤ room then
        some (state.receive index room bytes)
      else none
  | .complete index code =>
      if state.operationHas index reading then
        state.complete index code (state.transferred index)
      else none
  | .readInputStream size => some (state.readInputStream size)
  | .clobber content =>
      if state.overlapping then
        some { state with buffer := { state.buffer with input := content } }
      else none

/-! ## `udp_session` -/

/-- What may happen to a `udp_session`. -/
inductive UdpAction where
  | asyncRead
  | setReadTimeout (amount : ℤ)
  | close
  | advance (amount : ℕ)
  | expire
  | handleDeadline (index : ℕ)
  | receive (index : ℕ) (bytes : List Byte)
  | fail (index : ℕ) (code : ErrorCode)
  | readInputStream (size : ℕ)

/-- The task of a receive operation, which is started at once. -/
def startReceive (session : Session) : Session :=
  (if 0 < session.readTimeout then session.postWithTimeout .read true 0
    else session.post .read false none 0).update session.operations.length
      fun operation => { operation with stage := .running }

/-- `async_read`. -/
def State.asyncRead (state : State) : State :=
  { state.begin (startReceive state.session) with buffer := state.buffer.prepare 1024 }

/-- `async_receive_from` writes a datagram; its handler is that of the task. -/
def State.receiveFrom (state : State) (index : ℕ) (bytes : List Byte) : Option State :=
  if bytes.length ≤ state.buffer.room then
    { state with
      buffer := state.buffer.fill bytes
      received := state.received ++ bytes }.complete index .success bytes.length
  else none

/-- One step; `none` if it is not possible. -/
def udpNext (state : State) : UdpAction → Option State
  | .asyncRead => if state.settled then some state.asyncRead else none
  | .setReadTimeout amount => state.sessionStep (.setReadTimeout amount)
  | .close => state.sessionStep .close
  | .advance amount => state.sessionStep (.advance amount)
  | .expire => state.sessionStep .expire
  | .handleDeadline index => state.sessionStep (.handleDeadline index)
  | .receive index bytes => state.receiveFrom index bytes
  | .fail index code => if code = .success then none else state.complete index code 0
  | .readInputStream size => some (state.readInputStream size)

/-! ## Runs -/

/-- A session as its constructor leaves it. -/
structure Fresh (state : State) : Prop where
  session : Tcp.Fresh state.session
  buffer : state.buffer = ⟨[], [], 0⟩
  received : state.received = []
  returned : state.returned = []
  transferred : ∀ index, state.transferred index = 0
  reports : state.reports = []

/-- The runs of a `tcp_session`. -/
def tcpSystem : TransitionSystem State TcpAction where
  initial := Fresh
  next := tcpNext

/-- The runs of a `udp_session`. -/
def udpSystem : TransitionSystem State UdpAction where
  initial := Fresh
  next := udpNext

end AsyncRuntime.Io.Reads
