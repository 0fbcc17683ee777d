import Mathlib.Logic.Function.Basic
import Mathlib.Tactic.Common
import Mathlib.Tactic.Simps.Basic

/-!
# Ports

`SourcePort` is the bounded queue through which a kernel receives messages;
`Port` is the set of subscribers of a sink port together with the atomic count
that `SubscribersEmpty` reads.  Both carry the fact that ties their fields.
-/

namespace AsyncRuntime.Dataflow

universe u

/-! ## Source ports -/

/-- A `SourcePort`, with its `spsc_queue` as a bounded FIFO. -/
structure SourcePort (Message : Type u) where
  queue : List Message
  capacity : ℕ
  active : Bool
  bounded : queue.length ≤ capacity

namespace SourcePort

variable {Message : Type u}

/-- A new port is active and empty. -/
def create (capacity : ℕ) : SourcePort Message where
  queue := []
  capacity := capacity
  active := true
  bounded := Nat.zero_le capacity

/-- `queue.push`, which refuses a message when the queue is full. -/
def push (port : SourcePort Message) (message : Message) :
    SourcePort Message :=
  if room : port.queue.length < port.capacity then
    { port with
      queue := port.queue ++ [message]
      bounded := by
        rw [List.length_append]
        exact room }
  else
    port

/-- `queue.pop`; the message goes to the caller. -/
def pop (port : SourcePort Message) : SourcePort Message :=
  { port with
    queue := port.queue.tail
    bounded := by
      rw [List.length_tail]
      exact Nat.le_trans (Nat.sub_le _ 1) port.bounded }

/-- `queue.empty()`. -/
def empty (port : SourcePort Message) : Bool :=
  port.queue.isEmpty

/-- `Activate`. -/
def activate (port : SourcePort Message) : SourcePort Message :=
  { port with active := true }

theorem push_active (port : SourcePort Message) (message : Message) :
    (port.push message).active = port.active := by
  unfold push
  split
  · rfl
  · rfl

theorem push_capacity (port : SourcePort Message) (message : Message) :
    (port.push message).capacity = port.capacity := by
  unfold push
  split
  · rfl
  · rfl

theorem pop_empty_of_empty (port : SourcePort Message)
    (empty : port.empty = true) : port.pop.empty = true := by
  simp only [SourcePort.empty, List.isEmpty_iff] at empty
  simp [SourcePort.empty, pop, empty]

end SourcePort

/-! ## Subscribers -/

/-- The subscribers of a sink port and `subscribers_count`. -/
structure Port (User : Type u) where
  subscribers : List User
  subscribersCount : ℕ
  counted : subscribersCount = subscribers.length

namespace Port

variable {User : Type u}

/-- The count is stored after every change of the set. -/
@[simps]
def ofSubscribers (subscribers : List User) : Port User where
  subscribers := subscribers
  subscribersCount := subscribers.length
  counted := rfl

/-- A new port. -/
def create : Port User :=
  ofSubscribers []

/-- `Port::Subscribe`. -/
def subscribe [DecidableEq User] (port : Port User) (user : User) : Port User :=
  ofSubscribers (port.subscribers.insert user)

/-- `Port::Unsubscribe`. -/
def unsubscribe [DecidableEq User] (port : Port User) (user : User) :
    Port User :=
  ofSubscribers (port.subscribers.filter (· ≠ user))

/-- `Port::UnsubscribeAll`. -/
def unsubscribeAll (_port : Port User) : Port User :=
  ofSubscribers []

/-- `Port::SubscribersEmpty`. -/
def subscribersEmpty (port : Port User) : Bool :=
  port.subscribersCount == 0

theorem subscribersEmpty_iff (port : Port User) :
    port.subscribersEmpty = true ↔ port.subscribers = [] := by
  rw [subscribersEmpty, port.counted, beq_iff_eq, List.length_eq_zero_iff]

end Port

end AsyncRuntime.Dataflow
