import AsyncRuntime.Foundation.TransitionSystem
import Mathlib.Data.List.Sort
import Mathlib.Logic.Function.Basic

/-!
# The channel and its watchers

`Channel<T>` keeps its watchers in a map from object identifiers to shared
pointers, and `Send` pushes a copy of the message to the queue of each of them.
A watcher's identifier is its address, so it may be used again once the watcher
has been destroyed.

The mutex of the channel makes `Watch`, `UnWatch` and `Send` exclude each other.
`TryReceive` and `AsyncWait` only take the mutex of their watcher, so they may
come between two iterations of `Send`.  The users copy and drop their shared
pointers at any time.
-/

namespace AsyncRuntime.Channel

open Foundation

universe u

/-- `BaseObject::id`, the address of the object. -/
abbrev ObjectID := ℕ

/-- A shared pointer, identified by the `Watch` call that created its object. -/
abbrev Pointer := ℕ

/-- `promise_t<void>`: how many were made before it, and whether it was set. -/
structure Promise where
  number : ℕ
  satisfied : Bool
  deriving DecidableEq

/-- `make_resolved_future()`, or the future of a promise. -/
inductive WaitFuture where
  | resolved
  | promise (number : ℕ)
  deriving DecidableEq

/-- `Watcher<T>` -/
structure Watcher (Message : Type u) where
  id : ObjectID
  queue : List Message
  promise : Promise
  resolved : Bool
  deriving DecidableEq

namespace Watcher

variable {Message : Type u}

/-- A new watcher at an address. -/
def create (address : ObjectID) : Watcher Message where
  id := address
  queue := []
  promise := ⟨0, false⟩
  resolved := false

/-- `GetID` -/
def getID (watcher : Watcher Message) : ObjectID :=
  watcher.id

/--
`Watcher::Send`, and whether `promise.set_value` threw because the promise was
satisfied already; the message is in the queue by then.
-/
def send (watcher : Watcher Message) (message : Message) :
    Watcher Message × Bool :=
  let pushed := { watcher with queue := watcher.queue ++ [message] }
  if watcher.resolved then
    (pushed, false)
  else if watcher.promise.satisfied then
    (pushed, true)
  else
    ({ pushed with
        promise := { watcher.promise with satisfied := true }
        resolved := true },
      false)

/-- `Watcher::TryReceive` -/
def tryReceive (watcher : Watcher Message) :
    Watcher Message × Option Message :=
  match watcher.queue with
  | [] => (watcher, none)
  | message :: rest => ({ watcher with queue := rest }, some message)

/-- `Watcher::AsyncWait`: both branches replace the promise by a new one. -/
def asyncWait (watcher : Watcher Message) : Watcher Message × WaitFuture :=
  let number := watcher.promise.number + 1
  ({ watcher with resolved := false, promise := ⟨number, false⟩ },
    if watcher.queue.isEmpty then .promise number else .resolved)

end Watcher

/--
A watcher with the use count of its control block, and how many of the shared
pointers that are counted belong to its user.
-/
structure Object (Message : Type u) where
  watcher : Watcher Message
  useCount : ℕ
  handles : ℕ
  deriving DecidableEq

/-- One shared pointer less; the last one destroys the object. -/
def Object.release {Message : Type u} (object : Object Message) :
    Option (Object Message) :=
  if object.useCount ≤ 1 then
    none
  else
    some { object with useCount := object.useCount - 1 }

/-- An entry of the map. -/
abbrev Entry := ObjectID × Pointer

/-- `Send` holds the mutex: its message and the entries ahead of the iterator. -/
structure Sending (Message : Type u) where
  message : Message
  remaining : List Entry
  deriving DecidableEq

/-- What the users observe. -/
inductive Event (Message : Type u) where
  | watched (pointer : Pointer)
  | unwatched (pointer : Pointer)
  | sent (message : Message)
  | received (pointer : Pointer) (message : Message)
  deriving DecidableEq

/--
The objects that are alive, the map in the order of its keys, the `Send` that
holds the mutex, and the events so far.
-/
structure State (Message : Type u) where
  objects : Pointer → Option (Object Message)
  created : ℕ
  watchers : List Entry
  sending : Option (Sending Message)
  log : List (Event Message)

/--
A call, an iteration or the end of `Send`, or what a user does with a shared
pointer.
-/
inductive Action (Message : Type u) where
  | watch (address : ObjectID)
  | unWatch (pointer : Pointer)
  | send (message : Message)
  | visit
  | finish
  | tryReceive (pointer : Pointer)
  | asyncWait (pointer : Pointer)
  | copy (pointer : Pointer)
  | drop (pointer : Pointer)
  deriving DecidableEq

namespace State

variable {Message : Type u}

/-- The channel is new. -/
def create : State Message where
  objects := fun _ => none
  created := 0
  watchers := []
  sending := none
  log := []

/-- Write an object, or free it. -/
def setObject (state : State Message) (pointer : Pointer)
    (object : Option (Object Message)) : State Message :=
  { state with objects := Function.update state.objects pointer object }

/-- Append an event. -/
def record (state : State Message) (event : Event Message) : State Message :=
  { state with log := state.log ++ [event] }

/-- No live object has the address. -/
def isFree (state : State Message) (address : ObjectID) : Bool :=
  (List.range state.created).all fun pointer =>
    (state.objects pointer).all fun object => object.watcher.id != address

/-- The object, if a user has a shared pointer to it. -/
def held (state : State Message) (pointer : Pointer) :
    Option (Object Message) :=
  (state.objects pointer).filter fun object => decide (0 < object.handles)

/-- `watchers.insert`, which leaves the map as it is when it has the key. -/
def insert (state : State Message) (entry : Entry) : List Entry :=
  if state.watchers.any fun other => other.1 == entry.1 then
    state.watchers
  else
    state.watchers.orderedInsert (fun left right => left.1 ≤ right.1) entry

/-- `watchers.erase`, which destroys the shared pointer of the entry. -/
def erase (state : State Message) (entry : Entry) : State Message :=
  { state with
    watchers := state.watchers.filter fun other => other.1 != entry.1
    objects :=
      Function.update state.objects entry.2
        ((state.objects entry.2).bind Object.release) }

/-- `Channel::Watch`: the allocator chooses a free address. -/
def watch (state : State Message) (address : ObjectID) :
    Option (State Message) :=
  if state.sending.isNone && state.isFree address then
    let watcher : Watcher Message := .create address
    let entry := (watcher.getID, state.created)
    let inserted := state.insert entry
    some
      { state with
        objects :=
          Function.update state.objects state.created
            (some ⟨watcher, if entry ∈ inserted then 2 else 1, 1⟩)
        created := state.created + 1
        watchers := inserted
        log := state.log ++ [.watched state.created] }
  else
    none

/-- `Channel::UnWatch` -/
def unWatch (state : State Message) (pointer : Pointer) :
    Option (State Message) :=
  if state.sending.isNone then
    (state.held pointer).map fun object =>
      let found :=
        state.watchers.find? fun entry => entry.1 == object.watcher.getID
      (found.elim state state.erase).record (.unwatched pointer)
  else
    none

/-- `Channel::Send` takes the mutex. -/
def send (state : State Message) (message : Message) : Option (State Message) :=
  if state.sending.isNone then
    some
      ({ state with sending := some ⟨message, state.watchers⟩ }.record
        (.sent message))
  else
    none

/--
An iteration of `Send`.  An exception out of `Watcher::Send` leaves `Send`, which
releases the mutex.
-/
def visit (state : State Message) : Option (State Message) :=
  match state.sending with
  | some ⟨message, entry :: rest⟩ =>
      (state.objects entry.2).map fun object =>
        if 1 < object.useCount then
          let sent := object.watcher.send message
          { state.setObject entry.2 (some { object with watcher := sent.1 }) with
            sending := if sent.2 then none else some ⟨message, rest⟩ }
        else
          { state.erase entry with sending := some ⟨message, rest⟩ }
  | _ => none

/-- The iterator is at the end, and `Send` releases the mutex. -/
def finish (state : State Message) : Option (State Message) :=
  match state.sending with
  | some ⟨_, []⟩ => some { state with sending := none }
  | _ => none

/-- `TryReceive` of a watcher that a user holds. -/
def tryReceive (state : State Message) (pointer : Pointer) :
    Option (State Message) :=
  (state.held pointer).map fun object =>
    let received := object.watcher.tryReceive
    let target :=
      state.setObject pointer (some { object with watcher := received.1 })
    received.2.elim target fun message =>
      target.record (.received pointer message)

/-- `AsyncWait` of a watcher that a user holds. -/
def asyncWait (state : State Message) (pointer : Pointer) :
    Option (State Message) :=
  (state.held pointer).map fun object =>
    state.setObject pointer
      (some { object with watcher := object.watcher.asyncWait.1 })

/-- A user copies one of its shared pointers. -/
def copy (state : State Message) (pointer : Pointer) : Option (State Message) :=
  (state.held pointer).map fun object =>
    state.setObject pointer
      (some
        { object with
          useCount := object.useCount + 1, handles := object.handles + 1 })

/-- A user drops one of its shared pointers. -/
def drop (state : State Message) (pointer : Pointer) : Option (State Message) :=
  (state.held pointer).map fun object =>
    state.setObject pointer
      ({ object with handles := object.handles - 1 }.release)

/-- One step. -/
def next (state : State Message) : Action Message → Option (State Message)
  | .watch address => state.watch address
  | .unWatch pointer => state.unWatch pointer
  | .send message => state.send message
  | .visit => state.visit
  | .finish => state.finish
  | .tryReceive pointer => state.tryReceive pointer
  | .asyncWait pointer => state.asyncWait pointer
  | .copy pointer => state.copy pointer
  | .drop pointer => state.drop pointer

end State

/-- The runs of one channel. -/
def system (Message : Type u) :
    TransitionSystem (State Message) (Action Message) where
  initial := fun state => state = .create
  next := State.next

/-! ## What was sent and what was received -/

section History

variable {Message : Type u}

/-- Whether a watcher is being watched, and what was sent meanwhile. -/
structure Window (Message : Type u) where
  isOpen : Bool
  messages : List Message
  deriving DecidableEq

/-- A window is opened by `Watch` and closed by `UnWatch`. -/
def Window.extend (pointer : Pointer) (window : Window Message) :
    Event Message → Window Message
  | .watched other =>
      if other = pointer then { window with isOpen := true } else window
  | .unwatched other =>
      if other = pointer then { window with isOpen := false } else window
  | .sent message =>
      if window.isOpen then
        { window with messages := window.messages ++ [message] }
      else
        window
  | .received _ _ => window

/-- The window of a watcher at the end of a history. -/
def windowOf (pointer : Pointer) (log : List (Event Message)) :
    Window Message :=
  log.foldl (Window.extend pointer) ⟨false, []⟩

/-- The messages sent between the `Watch` and the `UnWatch` of a watcher. -/
def sentBetween (pointer : Pointer) (log : List (Event Message)) :
    List Message :=
  (windowOf pointer log).messages

/-- The message, if the event is a receipt by the watcher. -/
def Event.receipt (pointer : Pointer) : Event Message → Option Message
  | .received other message => if other = pointer then some message else none
  | _ => none

/-- The values that the successful `TryReceive` calls of a watcher returned. -/
def receivedBy (pointer : Pointer) (log : List (Event Message)) :
    List Message :=
  log.filterMap (Event.receipt pointer)

theorem windowOf_concat (pointer : Pointer) (log : List (Event Message))
    (event : Event Message) :
    windowOf pointer (log ++ [event]) =
      (windowOf pointer log).extend pointer event := by
  simp [windowOf]

theorem receivedBy_concat (pointer : Pointer) (log : List (Event Message))
    (event : Event Message) :
    receivedBy pointer (log ++ [event]) =
      receivedBy pointer log ++ (event.receipt pointer).toList := by
  cases found : event.receipt pointer with
  | none => simp [receivedBy, found]
  | some message => simp [receivedBy, found]

end History

end AsyncRuntime.Channel
