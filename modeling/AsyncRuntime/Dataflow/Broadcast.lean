import Mathlib.Data.List.Nodup
import AsyncRuntime.Dataflow.Ports

/-!
# From sinks to sources

`SinkPort::Send` writes a message to every active consumer of the sink, in the
order in which they were connected.  A source port takes the message into its
bounded queue, or counts it as skipped when the queue is full.

Sinks and source ports are named, and a port may be connected to any number of
sinks.  The notification that `Write` gives to the kernel of a port changes
nothing here and is left out.
-/

namespace AsyncRuntime.Dataflow

universe u v w

variable {Sink : Type u} {Source : Type v} {Message : Type w}

/-! ## Ports with a skip counter -/

/-- `SharedBufferError`, as far as `Write` returns it. -/
inductive SharedBufferError where
  | noError
  | bufferOverflow
  deriving DecidableEq

/-- A `SourcePort` and its skip counter, if one is set. -/
structure MeteredPort (Message : Type w) extends SourcePort Message where
  skipCounter : Option ℕ

namespace MeteredPort

/-- A new port, with a new counter or none. -/
def create (capacity : ℕ) (metered : Bool) : MeteredPort Message where
  toSourcePort := SourcePort.create capacity
  skipCounter := if metered then some 0 else none

/-- The queue holds `capacity` messages. -/
def full (port : MeteredPort Message) : Bool :=
  !decide (port.queue.length < port.capacity)

/-- `SourcePort::Write`. -/
def write (port : MeteredPort Message) (message : Message) :
    MeteredPort Message × SharedBufferError :=
  if port.full then
    ({ port with skipCounter := port.skipCounter.map (· + 1) }, .bufferOverflow)
  else ({ port with toSourcePort := port.push message }, .noError)

/-- `queue.pop`, with the message it yields; `Read` and `TryRead` return it. -/
def take (port : MeteredPort Message) : MeteredPort Message × Option Message :=
  ({ port with toSourcePort := port.pop }, port.queue.head?)

/-- The loop of `Flush`: it pops until the queue is empty or a pop fails. -/
def flushLoop : ℕ → MeteredPort Message → MeteredPort Message × List Message
  | 0, port => (port, [])
  | rounds + 1, port =>
      match port.queue.head? with
      | none => (port, [])
      | some message =>
          ((flushLoop rounds port.take.1).1,
            message :: (flushLoop rounds port.take.1).2)

/-- `SourcePort::Flush`, with the messages it discards. -/
def flush (port : MeteredPort Message) : MeteredPort Message × List Message :=
  flushLoop port.queue.length port

/-- `Activate` and `Deactivate`. -/
def setActive (port : MeteredPort Message) (active : Bool) : MeteredPort Message :=
  { port with active := active }

end MeteredPort

/-! ## Sinks and their consumers -/

/-- The consumers of every sink, and the source ports. -/
structure Network (Sink : Type u) (Source : Type v) (Message : Type w) where
  consumers : Sink → List Source
  ports : Source → MeteredPort Message

/-- The calls on sinks and source ports. -/
inductive Network.Call (Sink : Type u) (Source : Type v) (Message : Type w) where
  | connect (sink : Sink) (source : Source)
  | disconnect (sink : Sink) (source : Source)
  | disconnectAll (sink : Sink)
  | send (sink : Sink) (message : Message)
  | read (source : Source)
  | tryRead (source : Source)
  | flush (source : Source)
  | activate (source : Source)
  | deactivate (source : Source)

/-- What a call returns, or the messages that it discards. -/
inductive Network.Response (Message : Type w) where
  | done
  | error (message : String)
  | message (read : Option Message)
  | discarded (messages : List Message)

namespace Network

/-- Nothing is connected, and all ports are new. -/
def create (capacity : Source → ℕ) (metered : Source → Bool) :
    Network Sink Source Message where
  consumers := fun _ => []
  ports := fun source => .create (capacity source) (metered source)

section

variable [DecidableEq Sink] [DecidableEq Source]

/-- The consumers of one sink are replaced. -/
@[simps -fullyApplied]
def setConsumers (network : Network Sink Source Message) (sink : Sink)
    (consumers : List Source) : Network Sink Source Message :=
  { network with consumers := Function.update network.consumers sink consumers }

/-- One port is replaced. -/
@[simps -fullyApplied]
def setPort (network : Network Sink Source Message) (source : Source)
    (port : MeteredPort Message) : Network Sink Source Message :=
  { network with ports := Function.update network.ports source port }

/-- The body of the loop of `Send`. -/
def offer (message : Message) (ports : Source → MeteredPort Message)
    (source : Source) : Source → MeteredPort Message :=
  if (ports source).active then
    Function.update ports source ((ports source).write message).1
  else ports

/-- `SinkPort::Send`. -/
def send (network : Network Sink Source Message) (sink : Sink) (message : Message) :
    Network Sink Source Message :=
  { network with
    ports := (network.consumers sink).foldl (offer message) network.ports }

/-- One call. -/
def step (network : Network Sink Source Message) :
    Call Sink Source Message → Network Sink Source Message × Response Message
  | .connect sink source =>
      if source ∈ network.consumers sink then
        (network, .error "Consumer already exist")
      else
        (network.setConsumers sink (network.consumers sink ++ [source]), .done)
  | .disconnect sink source =>
      (network.setConsumers sink
        ((network.consumers sink).filter (· ≠ source)), .done)
  | .disconnectAll sink => (network.setConsumers sink [], .done)
  | .send sink message => (network.send sink message, .done)
  | .read source =>
      (network.setPort source (network.ports source).take.1,
        .message (network.ports source).take.2)
  | .tryRead source =>
      (network.setPort source (network.ports source).take.1,
        .message (network.ports source).take.2)
  | .flush source =>
      (network.setPort source (network.ports source).flush.1,
        .discarded (network.ports source).flush.2)
  | .activate source =>
      (network.setPort source ((network.ports source).setActive true), .done)
  | .deactivate source =>
      (network.setPort source ((network.ports source).setActive false), .done)

/-- A sequence of calls. -/
def run (network : Network Sink Source Message)
    (calls : List (Call Sink Source Message)) : Network Sink Source Message :=
  calls.foldl (fun network call => (network.step call).1) network

/-- The messages that a call takes out of a port. -/
def takenBy (network : Network Sink Source Message) (source : Source)
    (call : Call Sink Source Message) : List Message :=
  match call, (network.step call).2 with
  | .read other, .message read => if other = source then read.toList else []
  | .tryRead other, .message read => if other = source then read.toList else []
  | .flush other, .discarded messages => if other = source then messages else []
  | _, _ => []

/-- What has been read or flushed from a port, in order. -/
def taken (source : Source) (network : Network Sink Source Message) :
    List (Call Sink Source Message) → List Message
  | [] => []
  | call :: rest =>
      network.takenBy source call ++ taken source (network.step call).1 rest

/-! ## What the calls say

These are functions of the calls alone.  The latest call is the first of the list.
-/

/-- The port is connected to the sink. -/
def connected (sink : Sink) (source : Source) : List (Call Sink Source Message) → Bool
  | [] => false
  | .connect other consumer :: past =>
      if other = sink ∧ consumer = source then true else connected sink source past
  | .disconnect other consumer :: past =>
      if other = sink ∧ consumer = source then false else connected sink source past
  | .disconnectAll other :: past =>
      if other = sink then false else connected sink source past
  | _ :: past => connected sink source past

/-- The port is active; a new one is. -/
def activated (source : Source) : List (Call Sink Source Message) → Bool
  | [] => true
  | .activate other :: past => if other = source then true else activated source past
  | .deactivate other :: past => if other = source then false else activated source past
  | _ :: past => activated source past

/-- The message that a call sends to the port, connected and active after the past. -/
def sentTo (source : Source) (past : List (Call Sink Source Message)) :
    Call Sink Source Message → List Message
  | .send sink message =>
      if connected sink source past ∧ activated source past then [message] else []
  | _ => []

/-- How many messages the port holds. -/
def held (capacity : ℕ) (source : Source) : List (Call Sink Source Message) → ℕ
  | [] => 0
  | .send sink message :: past =>
      if held capacity source past < capacity then
        held capacity source past + (sentTo source past (.send sink message)).length
      else held capacity source past
  | .read other :: past =>
      if other = source then held capacity source past - 1 else held capacity source past
  | .tryRead other :: past =>
      if other = source then held capacity source past - 1 else held capacity source past
  | .flush other :: past => if other = source then 0 else held capacity source past
  | _ :: past => held capacity source past

/-- The messages sent to a port while it was connected, active and not full. -/
def accepted (capacity : ℕ) (source : Source) :
    List (Call Sink Source Message) → List Message
  | [] => []
  | call :: past =>
      accepted capacity source past ++
        if held capacity source past < capacity then sentTo source past call else []

/-- The messages sent to a port while it was connected, active and full. -/
def skipped (capacity : ℕ) (source : Source) :
    List (Call Sink Source Message) → List Message
  | [] => []
  | call :: past =>
      skipped capacity source past ++
        if held capacity source past < capacity then [] else sentTo source past call

end

end Network

/-! ## Ports -/

namespace MeteredPort

variable {port : MeteredPort Message} {message : Message}

theorem write_of_full (full : port.full = true) :
    (port.write message).1.queue = port.queue ∧
      (port.write message).1.skipCounter = port.skipCounter.map (· + 1) := by
  rw [write, if_pos full]
  exact ⟨rfl, rfl⟩

theorem write_of_not_full (room : port.full = false) :
    (port.write message).1.queue = port.queue ++ [message] ∧
      (port.write message).1.skipCounter = port.skipCounter := by
  rw [write, if_neg (by rw [room]; exact Bool.false_ne_true)]
  refine ⟨?_, rfl⟩
  have bound : port.queue.length < port.capacity := by
    simpa [full] using room
  change (port.push message).queue = port.queue ++ [message]
  rw [SourcePort.push, dif_pos bound]

@[simp]
theorem write_active (port : MeteredPort Message) (message : Message) :
    (port.write message).1.active = port.active := by
  unfold write
  split
  · rfl
  · exact port.toSourcePort.push_active message

@[simp]
theorem write_capacity (port : MeteredPort Message) (message : Message) :
    (port.write message).1.capacity = port.capacity := by
  unfold write
  split
  · rfl
  · exact port.toSourcePort.push_capacity message

/-- A pop takes the oldest message. -/
theorem take_queue (port : MeteredPort Message) :
    port.take.2.toList ++ port.take.1.queue = port.queue := by
  change port.queue.head?.toList ++ port.queue.tail = port.queue
  cases port.queue with
  | nil => rfl
  | cons first rest => rfl

/-- `Flush` discards the whole queue and nothing else. -/
theorem flushLoop_spec {rounds : ℕ} {port : MeteredPort Message}
    (enough : port.queue.length ≤ rounds) :
    (flushLoop rounds port).2 ++ (flushLoop rounds port).1.queue = port.queue ∧
      (flushLoop rounds port).1.queue = [] ∧
      (flushLoop rounds port).1.skipCounter = port.skipCounter := by
  induction rounds generalizing port with
  | zero =>
      have empty := List.length_eq_zero_iff.mp (Nat.le_zero.mp enough)
      exact ⟨rfl, empty, rfl⟩
  | succ rounds inductionHypothesis =>
      rw [flushLoop]
      cases oldest : port.queue.head? with
      | none => exact ⟨rfl, List.head?_eq_none_iff.mp oldest, rfl⟩
      | some message =>
          have shorter : port.take.1.queue.length ≤ rounds := by
            change port.queue.tail.length ≤ rounds
            rw [List.length_tail]
            omega
          rcases inductionHypothesis shorter with ⟨content, empty, counter⟩
          refine ⟨?_, empty, counter⟩
          have popped := port.take_queue
          change port.queue.head?.toList ++ port.take.1.queue = port.queue at popped
          rw [List.cons_append, content, ← popped, oldest]
          rfl

/-- `Flush` changes nothing else. -/
theorem flushLoop_fixed (rounds : ℕ) (port : MeteredPort Message) :
    (flushLoop rounds port).1.active = port.active ∧
      (flushLoop rounds port).1.capacity = port.capacity := by
  induction rounds generalizing port with
  | zero => exact ⟨rfl, rfl⟩
  | succ rounds inductionHypothesis =>
      rw [flushLoop]
      cases port.queue.head? with
      | none => exact ⟨rfl, rfl⟩
      | some message => exact inductionHypothesis port.take.1

end MeteredPort

/-! ## One call -/

namespace Network

variable [DecidableEq Sink] [DecidableEq Source]
  {network : Network Sink Source Message} {source : Source}

/-- The loop of `Send` reaches every active consumer once. -/
theorem foldl_offer {consumers : List Source} (nodup : consumers.Nodup)
    (message : Message) (ports : Source → MeteredPort Message) (source : Source) :
    consumers.foldl (offer message) ports source =
      if source ∈ consumers ∧ (ports source).active then
        ((ports source).write message).1
      else ports source := by
  induction consumers generalizing ports with
  | nil => simp
  | cons first rest inductionHypothesis =>
      rw [List.nodup_cons] at nodup
      rw [List.foldl_cons, inductionHypothesis nodup.2, offer]
      by_cases same : source = first
      · subst same
        by_cases active : (ports source).active = true
        · simp [active, nodup.1]
        · simp [active]
      · by_cases active : (ports first).active = true
        · simp [active, same]
        · simp [active, same]

omit [DecidableEq Sink] in
theorem send_ports (nodup : ∀ sink, (network.consumers sink).Nodup) (sink : Sink)
    (message : Message) (source : Source) :
    (network.send sink message).ports source =
      if source ∈ network.consumers sink ∧ (network.ports source).active then
        ((network.ports source).write message).1
      else network.ports source :=
  foldl_offer (nodup sink) message network.ports source

/-- No consumer is connected twice. -/
theorem step_nodup (nodup : ∀ sink, (network.consumers sink).Nodup)
    (call : Call Sink Source Message) (sink : Sink) :
    ((network.step call).1.consumers sink).Nodup := by
  have replaced {other : Sink} {consumers : List Source}
      (fresh : consumers.Nodup) :
      ((network.setConsumers other consumers).consumers sink).Nodup := by
    rw [setConsumers_consumers, Function.update_apply]
    split
    · exact fresh
    · exact nodup sink
  cases call with
  | connect other source =>
      rw [step]
      split
      · exact nodup sink
      · rename_i absent
        apply replaced
        rw [List.nodup_append]
        refine ⟨nodup other, List.nodup_singleton source, ?_⟩
        intro left leftMember right rightMember same
        rw [List.mem_singleton] at rightMember
        rw [same, rightMember] at leftMember
        exact absent leftMember
  | disconnect other source => exact replaced ((nodup other).filter _)
  | disconnectAll other => exact replaced List.nodup_nil
  | _ => exact nodup sink

omit [DecidableEq Sink] in
/-- A call on one port takes messages out of it, and leaves the others alone. -/
theorem setPort_content {other : Source} {port : MeteredPort Message}
    {messages : List Message}
    (content : messages ++ port.queue = (network.ports other).queue)
    (counter : port.skipCounter = (network.ports other).skipCounter) :
    (if other = source then messages else []) ++
          ((network.setPort other port).ports source).queue =
        (network.ports source).queue ∧
      ((network.setPort other port).ports source).skipCounter =
        (network.ports source).skipCounter := by
  rw [setPort_ports, Function.update_apply]
  by_cases same : source = other
  · rw [if_pos same.symm, if_pos same, same]
    exact ⟨content, counter⟩
  · rw [if_neg (Ne.symm same), if_neg same]
    exact ⟨rfl, rfl⟩

/-! ## A network follows the calls -/

/-- A network is as the calls say. -/
structure Follows (capacity : Source → ℕ) (past : List (Call Sink Source Message))
    (network : Network Sink Source Message) : Prop where
  distinct : ∀ sink, (network.consumers sink).Nodup
  consumers_iff :
    ∀ sink source, source ∈ network.consumers sink ↔ connected sink source past = true
  active_eq : ∀ source, (network.ports source).active = activated source past
  length_eq :
    ∀ source, (network.ports source).queue.length = held (capacity source) source past
  capacity_eq : ∀ source, (network.ports source).capacity = capacity source

section Follows

variable {capacity : Source → ℕ} {past : List (Call Sink Source Message)}

/-- A call writes a message to a port, or takes messages out of it. -/
theorem Follows.step_port (follows : Follows capacity past network)
    (call : Call Sink Source Message) (source : Source) :
    (∃ message, sentTo source past call = [message] ∧
        network.takenBy source call = [] ∧
        (network.step call).1.ports source =
          ((network.ports source).write message).1) ∨
      sentTo source past call = [] ∧
        network.takenBy source call ++ ((network.step call).1.ports source).queue =
          (network.ports source).queue ∧
        ((network.step call).1.ports source).skipCounter =
          (network.ports source).skipCounter := by
  cases call with
  | send sink message =>
      have after := send_ports follows.distinct sink message source
      simp only [follows.consumers_iff, follows.active_eq] at after
      rw [sentTo]
      split at after
      · rename_i reached
        rw [if_pos reached]
        exact .inl ⟨message, rfl, rfl, after⟩
      · rename_i missed
        rw [if_neg missed]
        refine .inr ⟨rfl, ?_, ?_⟩
        · exact congrArg (·.queue) after
        · exact congrArg (·.skipCounter) after
  | read other =>
      exact .inr ⟨rfl, setPort_content (MeteredPort.take_queue _) rfl⟩
  | tryRead other =>
      exact .inr ⟨rfl, setPort_content (MeteredPort.take_queue _) rfl⟩
  | flush other =>
      have flushed := MeteredPort.flushLoop_spec
        (Nat.le_refl (network.ports other).queue.length)
      exact .inr ⟨rfl, setPort_content flushed.1 flushed.2.2⟩
  | activate other =>
      have kept := @setPort_content _ _ _ _ network source other
        ((network.ports other).setActive true) [] rfl rfl
      rw [ite_self] at kept
      exact .inr ⟨rfl, kept⟩
  | deactivate other =>
      have kept := @setPort_content _ _ _ _ network source other
        ((network.ports other).setActive false) [] rfl rfl
      rw [ite_self] at kept
      exact .inr ⟨rfl, kept⟩
  | connect sink other =>
      have kept : (network.step (.connect sink other)).1.ports = network.ports := by
        rw [step]
        split <;> rfl
      refine .inr ⟨rfl, ?_, ?_⟩
      · exact congrArg (fun ports => (ports source).queue) kept
      · exact congrArg (fun ports => (ports source).skipCounter) kept
  | disconnect sink other => exact .inr ⟨rfl, rfl, rfl⟩
  | disconnectAll sink => exact .inr ⟨rfl, rfl, rfl⟩

/-- The queue of a port is full when the calls say that it holds `capacity` messages. -/
theorem Follows.full_eq (follows : Follows capacity past network) (source : Source) :
    (network.ports source).full =
      !decide (held (capacity source) source past < capacity source) := by
  rw [MeteredPort.full, follows.length_eq, follows.capacity_eq]

/-- What a call leaves in a port and takes out of it is what was there and came in. -/
theorem Follows.step_queue (follows : Follows capacity past network)
    (call : Call Sink Source Message) (source : Source) :
    network.takenBy source call ++ ((network.step call).1.ports source).queue =
      (network.ports source).queue ++
        if held (capacity source) source past < capacity source then
          sentTo source past call
        else [] := by
  rcases follows.step_port call source with
    ⟨message, sent, nothing, after⟩ | ⟨nothing, content, -⟩
  · have full_eq := follows.full_eq source
    rw [sent, nothing, after, List.nil_append]
    split
    · rename_i room
      rw [decide_eq_true room] at full_eq
      exact (MeteredPort.write_of_not_full full_eq).1
    · rename_i room
      rw [decide_eq_false room] at full_eq
      rw [(MeteredPort.write_of_full full_eq).1, List.append_nil]
  · rw [nothing, ite_self, List.append_nil]
    exact content

/-- A call adds to the counter of a port what it could not take. -/
theorem Follows.step_skipCounter (follows : Follows capacity past network)
    (call : Call Sink Source Message) (source : Source) :
    ((network.step call).1.ports source).skipCounter =
      (network.ports source).skipCounter.map
        (· + (if held (capacity source) source past < capacity source then []
          else sentTo source past call).length) := by
  rcases follows.step_port call source with
    ⟨message, sent, -, after⟩ | ⟨nothing, -, counter⟩
  · have full_eq := follows.full_eq source
    rw [sent, after]
    split
    · rename_i room
      rw [decide_eq_true room] at full_eq
      rw [(MeteredPort.write_of_not_full full_eq).2]
      simp
    · rename_i room
      rw [decide_eq_false room] at full_eq
      rw [(MeteredPort.write_of_full full_eq).2]
      rfl
  · rw [nothing, counter, ite_self]
    simp

theorem Follows.step_consumers (follows : Follows capacity past network)
    (call : Call Sink Source Message) (sink : Sink) (source : Source) :
    source ∈ (network.step call).1.consumers sink ↔
      connected sink source (call :: past) = true := by
  have known := follows.consumers_iff sink source
  cases call with
  | connect other consumer =>
      rw [step, connected]
      by_cases same : other = sink
      · subst same
        split
        · rename_i present
          by_cases it : consumer = source
          · subst it
            simp [present]
          · simpa [it] using known
        · by_cases it : consumer = source
          · simp [it]
          · simpa [it, Ne.symm it] using known
      · split
        · simpa [same] using known
        · simpa [same, Ne.symm same] using known
  | disconnect other consumer =>
      rw [step, connected]
      by_cases same : other = sink
      · subst same
        by_cases it : consumer = source
        · simp [it]
        · simpa [it, Ne.symm it] using known
      · simpa [same, Ne.symm same] using known
  | disconnectAll other =>
      rw [step, connected]
      by_cases same : other = sink
      · simp [same]
      · simpa [same, Ne.symm same] using known
  | _ => exact known

theorem Follows.step_active (follows : Follows capacity past network)
    (call : Call Sink Source Message) (source : Source) :
    ((network.step call).1.ports source).active = activated source (call :: past) ∧
      ((network.step call).1.ports source).capacity = capacity source := by
  have known := follows.active_eq source
  have sized := follows.capacity_eq source
  -- the calls that replace one port by another of the same capacity
  have replaced {other : Source} {port : MeteredPort Message}
      (same_capacity : port.capacity = (network.ports other).capacity) :
      ((network.setPort other port).ports source).active =
          (if other = source then port.active else activated source past) ∧
        ((network.setPort other port).ports source).capacity = capacity source := by
    rw [setPort_ports, Function.update_apply]
    by_cases same : source = other
    · subst same
      simp [same_capacity, sized]
    · simp [same, Ne.symm same, known, sized]
  have unchanged {other : Source} {port : MeteredPort Message}
      (same_capacity : port.capacity = (network.ports other).capacity)
      (same_active : port.active = (network.ports other).active) :
      ((network.setPort other port).ports source).active = activated source past ∧
        ((network.setPort other port).ports source).capacity = capacity source := by
    obtain ⟨active_eq, capacity_eq⟩ := replaced same_capacity
    refine ⟨?_, capacity_eq⟩
    rw [active_eq, same_active, follows.active_eq]
    split
    · rename_i same
      rw [same]
    · rfl
  cases call with
  | send sink message =>
      have after := send_ports follows.distinct sink message source
      constructor
      · refine (congrArg (·.active) after).trans ?_
        split
        · exact (MeteredPort.write_active _ message).trans known
        · exact known
      · refine (congrArg (·.capacity) after).trans ?_
        split
        · exact (MeteredPort.write_capacity _ message).trans sized
        · exact sized
  | read other => exact unchanged rfl rfl
  | tryRead other => exact unchanged rfl rfl
  | flush other =>
      have fixed := MeteredPort.flushLoop_fixed (network.ports other).queue.length
        (network.ports other)
      exact unchanged fixed.2 fixed.1
  | activate other => exact replaced rfl
  | deactivate other => exact replaced rfl
  | connect sink other =>
      have kept : (network.step (.connect sink other)).1.ports = network.ports := by
        rw [step]
        split <;> rfl
      rw [kept]
      exact ⟨known, sized⟩
  | disconnect sink other => exact ⟨known, sized⟩
  | disconnectAll sink => exact ⟨known, sized⟩

theorem Follows.step_length (follows : Follows capacity past network)
    (call : Call Sink Source Message) (source : Source) :
    ((network.step call).1.ports source).queue.length =
      held (capacity source) source (call :: past) := by
  have known := follows.length_eq source
  -- the calls that take messages out of one port
  have replaced {other : Source} {port : MeteredPort Message} :
      ((network.setPort other port).ports source).queue.length =
        if other = source then port.queue.length
        else held (capacity source) source past := by
    rw [setPort_ports, Function.update_apply]
    by_cases same : source = other
    · rw [if_pos same, if_pos same.symm]
    · rw [if_neg same, if_neg (Ne.symm same), known]
  have popped (other : Source) :
      ((network.setPort other (network.ports other).take.1).ports source).queue.length =
        if other = source then held (capacity source) source past - 1
        else held (capacity source) source past := by
    rw [replaced]
    split
    · rename_i same
      subst same
      rw [← known]
      exact List.length_tail
    · rfl
  have kept (other : Source) (active : Bool) :
      ((network.setPort other
          ((network.ports other).setActive active)).ports source).queue.length =
        held (capacity source) source past := by
    rw [replaced]
    split
    · rename_i same
      subst same
      exact known
    · rfl
  cases call with
  | send sink message =>
      have content := congrArg List.length (follows.step_queue (.send sink message) source)
      rw [List.length_append, List.length_append, known] at content
      rw [held]
      change 0 + _ = _ at content
      rw [Nat.zero_add] at content
      rw [content]
      split <;> simp
  | read other => exact popped other
  | tryRead other => exact popped other
  | flush other =>
      have flushed := MeteredPort.flushLoop_spec
        (Nat.le_refl (network.ports other).queue.length)
      refine replaced.trans ?_
      rw [held, MeteredPort.flush, flushed.2.1]
      rfl
  | activate other => exact kept other true
  | deactivate other => exact kept other false
  | connect sink other =>
      have ports_eq : (network.step (.connect sink other)).1.ports = network.ports := by
        rw [step]
        split <;> rfl
      rw [ports_eq]
      exact known
  | disconnect sink other => exact known
  | disconnectAll sink => exact known

theorem Follows.step (follows : Follows capacity past network)
    (call : Call Sink Source Message) :
    Follows capacity (call :: past) (network.step call).1 where
  distinct := step_nodup follows.distinct call
  consumers_iff := follows.step_consumers call
  active_eq source := (follows.step_active call source).1
  length_eq := follows.step_length call
  capacity_eq source := (follows.step_active call source).2

end Follows

/-! ## Every sequence of calls -/

theorem follows_create (capacity : Source → ℕ) (metered : Source → Bool) :
    Follows capacity [] (Network.create capacity metered : Network Sink Source Message) where
  distinct _ := List.nodup_nil
  consumers_iff _ _ := by simp [Network.create, connected]
  active_eq _ := rfl
  length_eq _ := rfl
  capacity_eq _ := rfl

theorem run_concat (network : Network Sink Source Message)
    (calls : List (Call Sink Source Message)) (call : Call Sink Source Message) :
    network.run (calls ++ [call]) = ((network.run calls).step call).1 := by
  rw [run, List.foldl_append]
  rfl

theorem taken_concat (source : Source) (network : Network Sink Source Message)
    (calls : List (Call Sink Source Message)) (call : Call Sink Source Message) :
    taken source network (calls ++ [call]) =
      taken source network calls ++ (network.run calls).takenBy source call := by
  induction calls generalizing network with
  | nil => exact List.append_nil _
  | cons first rest inductionHypothesis =>
      rw [List.cons_append, taken, inductionHypothesis, taken, List.append_assoc]
      rfl

section Runs

variable (capacity : Source → ℕ) (metered : Source → Bool)
  (past : List (Call Sink Source Message))

theorem follows_run :
    Follows capacity past ((Network.create capacity metered).run past.reverse) := by
  induction past with
  | nil => exact follows_create capacity metered
  | cons call past inductionHypothesis =>
      rw [List.reverse_cons, run_concat]
      exact inductionHypothesis.step call

theorem run_queue (source : Source) :
    taken source (Network.create capacity metered) past.reverse ++
        (((Network.create capacity metered).run past.reverse).ports source).queue =
      accepted (capacity source) source past := by
  induction past with
  | nil => rfl
  | cons call past inductionHypothesis =>
      have now := (follows_run capacity metered past).step_queue call source
      rw [List.reverse_cons, taken_concat, run_concat, List.append_assoc, now,
        ← List.append_assoc, inductionHypothesis, accepted]

theorem run_skipCounter (source : Source) :
    (((Network.create capacity metered).run past.reverse).ports source).skipCounter =
      if metered source then some (skipped (capacity source) source past).length
      else none := by
  induction past with
  | nil => rfl
  | cons call past inductionHypothesis =>
      have now := (follows_run capacity metered past).step_skipCounter call source
      rw [List.reverse_cons, run_concat, now, inductionHypothesis, skipped,
        List.length_append]
      cases metered source <;> rfl

end Runs

/--
The promise of the sinks and source ports after a sequence of calls, in terms of the
calls: the reversed list begins with the latest one.
-/
structure Exact (capacity : Source → ℕ) (metered : Source → Bool)
    (calls : List (Call Sink Source Message)) : Prop where
  nodup :
    ∀ sink, (((Network.create capacity metered).run calls).consumers sink).Nodup
  consumers :
    ∀ sink source, source ∈ ((Network.create capacity metered).run calls).consumers sink ↔
      connected sink source calls.reverse = true
  refused :
    ∀ sink source, connected sink source calls.reverse = true →
      ((Network.create capacity metered).run calls).step (.connect sink source) =
        ((Network.create capacity metered).run calls, .error "Consumer already exist")
  delivered :
    ∀ source,
      taken source (Network.create capacity metered) calls ++
          (((Network.create capacity metered).run calls).ports source).queue =
        accepted (capacity source) source calls.reverse
  held :
    ∀ source, (((Network.create capacity metered).run calls).ports source).queue.length =
      Network.held (capacity source) source calls.reverse
  counted :
    ∀ source, (((Network.create capacity metered).run calls).ports source).skipCounter =
      if metered source then some (skipped (capacity source) source calls.reverse).length
      else none

/--
For all capacities and every sequence of calls: no consumer is connected twice, and
those that the calls say are connected; what was read or flushed from a port and what is
still in its queue are, in order, the messages sent while it was connected, active and
not full; and its counter is the number of those sent while it was full.
-/
theorem broadcast_exact (capacity : Source → ℕ) (metered : Source → Bool)
    (calls : List (Call Sink Source Message)) : Exact capacity metered calls := by
  have follows := follows_run capacity metered calls.reverse
  have queue := run_queue capacity metered calls.reverse
  have counter := run_skipCounter capacity metered calls.reverse
  rw [List.reverse_reverse] at follows queue counter
  refine ⟨follows.distinct, follows.consumers_iff, ?_, queue, follows.length_eq, counter⟩
  intro sink source present
  rw [step, if_pos ((follows.consumers_iff sink source).mpr present)]

-- a queue of one message, which is full when the second message comes
example :
    accepted 1 ()
        [.send () 6, .read (), .send () 5, .send () 4, .connect () ()] = [4, 6] := by
  rfl

end Network

end AsyncRuntime.Dataflow
