import AsyncRuntime.Dataflow.Broadcast
import AsyncRuntime.TripleBuffer.Freshness
import Mathlib.Data.List.Induction

/-!
# The buffer type of a source port

`Source::Add` takes a `SharedBufferType` and passes it to the constructor of
`SourcePort`, which does not use it: every port keeps its messages in a bounded
FIFO queue.  A port that was asked for as `kTRIPLE_BUFFER` should behave as
`Dataflow::TripleBuffer`, whose `Read` returns the item of the most recent `Write`.

The calls of one port come one after another here.  Which message a FIFO queue is
going to return can be told from the calls alone, by counting the messages that were
accepted and the reads that were served; the two kinds of buffer agree when that
message happens to be the latest one.
-/

namespace AsyncRuntime.Dataflow.BufferType

open AsyncRuntime.TripleBuffer
open AsyncRuntime.TripleBuffer.State (latestIndex)

universe u

variable {Message : Type u}

/-- `SharedBufferType`. -/
inductive SharedBufferType where
  | fifo
  | triple
  deriving DecidableEq

/-- The default of the argument `capacity` of `SourcePort`. -/
def defaultCapacity : ℕ := 100

/-- The constructor of `SourcePort`; its buffer type has no use. -/
def construct (_bufferType : SharedBufferType) (capacity : ℕ) : MeteredPort Message :=
  .create capacity false

/-- `Source::Add(name, buffer_type)`. -/
def add (bufferType : SharedBufferType) : MeteredPort Message :=
  construct bufferType defaultCapacity

/-- The calls on one port. -/
inductive Call (Message : Type u) where
  | write (message : Message)
  | read
  deriving DecidableEq

/-- The message of a `Write`. -/
def Call.message : Call Message → Option Message
  | .write message => some message
  | .read => none

/-- One call on a port. -/
def callPort (port : MeteredPort Message) : Call Message → MeteredPort Message
  | .write message => (port.write message).1
  | .read => port.take.1

/-- The port after a sequence of calls. -/
def portAfter (port : MeteredPort Message) (calls : List (Call Message)) :
    MeteredPort Message :=
  calls.foldl callPort port

/-- What a `Read` after these calls returns. -/
def portRead (port : MeteredPort Message) (calls : List (Call Message)) :
    Option Message :=
  (portAfter port calls).take.2

/-! ## `Dataflow::TripleBuffer`, one call at a time -/

/-- The flags and the three slots. -/
structure Triple (Message : Type u) where
  flags : TripleBuffer.Flags
  buffer : ℕ → Message

/-- The constructor; the slots hold what they were made with. -/
def Triple.create (contents : ℕ → Message) : Triple Message where
  flags := 0x6#8
  buffer := contents

/-- `Dataflow::TripleBuffer::Write`. -/
def Triple.write (triple : Triple Message) (message : Message) : Triple Message where
  flags := newWriteSwapCleanWithDirty triple.flags
  buffer := Function.update triple.buffer (dirtyIndex triple.flags) message

/-- `Dataflow::TripleBuffer::Read`. -/
def Triple.read (triple : Triple Message) : Triple Message × Option Message :=
  let flags :=
    if isNewWrite triple.flags then swapSnapWithClean triple.flags else triple.flags
  ({ triple with flags := flags }, some (triple.buffer (snapIndex flags)))

/-- One call on a triple buffer. -/
def callTriple (triple : Triple Message) : Call Message → Triple Message
  | .write message => triple.write message
  | .read => triple.read.1

/-- What a `Read` of a triple buffer after these calls returns. -/
def tripleRead (contents : ℕ → Message) (calls : List (Call Message)) : Option Message :=
  (calls.foldl callTriple (.create contents)).read.2

/-! ## What is asked of a buffer -/

/-- The message of the most recent `Write`. -/
def lastWritten (calls : List (Call Message)) : Option Message :=
  (calls.filterMap Call.message).getLast?

/-- Something holds of the calls before every `Read` of a sequence. -/
def EveryRead (property : List (Call Message) → Prop) (calls : List (Call Message)) :
    Prop :=
  ∀ before after, calls = before ++ .read :: after → property before

/-- Every `Read` that follows a `Write` returns the message of the most recent one. -/
def ReturnsLatest (read : List (Call Message) → Option Message) :
    List (Call Message) → Prop :=
  EveryRead fun before =>
    ∀ message, lastWritten before = some message → read before = some message

/-! ## What the calls say about a queue -/

/-- The messages that were accepted, and how many reads were served. -/
structure Ledger (Message : Type u) where
  kept : List Message
  served : ℕ

/-- A call in the ledger of a queue with this capacity. -/
def Ledger.enter (capacity : ℕ) (ledger : Ledger Message) : Call Message → Ledger Message
  | .write message =>
      if ledger.kept.length - ledger.served < capacity then
        { ledger with kept := ledger.kept ++ [message] }
      else
        ledger
  | .read =>
      if ledger.served < ledger.kept.length then
        { ledger with served := ledger.served + 1 }
      else
        ledger

/-- The ledger of a sequence of calls. -/
def ledgerOf (capacity : ℕ) (calls : List (Call Message)) : Ledger Message :=
  calls.foldl (Ledger.enter capacity) ⟨[], 0⟩

/-- The message that has been accepted and not read for longest is the latest one. -/
def OldestIsLatest (capacity : ℕ) : List (Call Message) → Prop :=
  EveryRead fun before =>
    ∀ message, lastWritten before = some message →
      (ledgerOf capacity before).kept[(ledgerOf capacity before).served]? = some message

/-- The messages written since the last `Read`. -/
def sinceRead (calls : List (Call Message)) : List Message :=
  calls.foldl
    (fun written call =>
      match call with
      | .write message => written ++ [message]
      | .read => [])
    []

/-- There is exactly one `Write` between a `Read` that follows a `Write` and the `Read` before. -/
def Alternates : List (Call Message) → Prop :=
  EveryRead fun before => (lastWritten before).isSome → (sinceRead before).length = 1

/-! ## Sequences with one more call -/

section Concat

variable {calls : List (Call Message)} {call : Call Message}

theorem everyRead_concat {property : List (Call Message) → Prop} :
    EveryRead property (calls ++ [call]) ↔
      EveryRead property calls ∧ (call = .read → property calls) := by
  constructor
  · intro every
    constructor
    · intro before after split
      exact every before (after ++ [call]) (by rw [split]; simp)
    · rintro rfl
      exact every calls [] rfl
  · rintro ⟨earlier, last⟩ before after split
    rcases List.eq_nil_or_concat' after with rfl | ⟨rest, final, rfl⟩
    · obtain ⟨rfl, same⟩ := List.append_inj' split rfl
      exact last (List.singleton_inj.mp same)
    · have regrouped :
          calls ++ [call] = (before ++ .read :: rest) ++ [final] := by
        rw [split]
        simp
      exact earlier before rest (List.append_inj' regrouped rfl).1

theorem everyRead_nil (property : List (Call Message) → Prop) :
    EveryRead property [] := by
  intro before after split
  simp at split

theorem portAfter_concat (port : MeteredPort Message) :
    portAfter port (calls ++ [call]) = callPort (portAfter port calls) call := by
  simp [portAfter]

theorem lastWritten_concat :
    lastWritten (calls ++ [call]) = call.message.or (lastWritten calls) := by
  cases call with
  | write message => simp [lastWritten, Call.message]
  | read => simp [lastWritten, Call.message]

theorem sinceRead_concat :
    sinceRead (calls ++ [call]) =
      match call with
      | .write message => sinceRead calls ++ [message]
      | .read => [] := by
  simp only [sinceRead, List.foldl_append, List.foldl_cons, List.foldl_nil]

end Concat

/-! ## The triple buffer returns the latest message -/

/-- The latest message, if there is one, is where a `Read` is going to look. -/
def Triple.Holds (triple : Triple Message) (latest : Option Message) : Prop :=
  Permutes triple.flags ∧
    ∀ message, latest = some message → triple.buffer (latestIndex triple.flags) = message

theorem Triple.Holds.write {triple : Triple Message} {latest : Option Message}
    (holds : triple.Holds latest) (message : Message) :
    (triple.write message).Holds (some message) := by
  refine ⟨holds.1.newWriteSwapCleanWithDirty, ?_⟩
  rintro _ ⟨⟩
  simp [Triple.write, latestIndex]

theorem Triple.Holds.read {triple : Triple Message} {latest : Option Message}
    (holds : triple.Holds latest) :
    triple.read.1.Holds latest ∧
      ∀ message, latest = some message → triple.read.2 = some message := by
  obtain ⟨permutes, found⟩ := holds
  cases fresh : isNewWrite triple.flags with
  | true =>
      have index_eq : latestIndex triple.flags = cleanIndex triple.flags := by
        simp [latestIndex, fresh]
      rw [index_eq] at found
      refine ⟨⟨?_, ?_⟩, ?_⟩
      · simpa [Triple.read, fresh] using permutes.swapSnapWithClean
      · simpa [Triple.read, fresh, latestIndex] using found
      · simpa [Triple.read, fresh] using found
  | false =>
      have index_eq : latestIndex triple.flags = snapIndex triple.flags := by
        simp [latestIndex, fresh]
      refine ⟨⟨?_, ?_⟩, ?_⟩
      · simpa [Triple.read, fresh] using permutes
      · simpa [Triple.read, fresh] using found
      · rw [index_eq] at found
        simpa [Triple.read, fresh] using found

theorem holds_after (contents : ℕ → Message) (calls : List (Call Message)) :
    (calls.foldl callTriple (.create contents)).Holds (lastWritten calls) := by
  induction calls using List.reverseRecOn with
  | nil => exact ⟨permutes_initial, by simp [lastWritten]⟩
  | append_singleton calls call inductionHypothesis =>
      rw [List.foldl_append, List.foldl_cons, List.foldl_nil, lastWritten_concat]
      cases call with
      | write message => exact inductionHypothesis.write message
      | read => exact inductionHypothesis.read.1

/-- `Dataflow::TripleBuffer::Read` returns the item of the most recent `Write`. -/
theorem tripleRead_returnsLatest (contents : ℕ → Message) (calls : List (Call Message)) :
    ReturnsLatest (tripleRead contents) calls := by
  intro before after _
  exact (holds_after contents before).read.2

/-! ## The queue of a port -/

theorem callPort_capacity (port : MeteredPort Message) (call : Call Message) :
    (callPort port call).capacity = port.capacity := by
  cases call with
  | write message => exact port.write_capacity message
  | read => rfl

/-- `Write` appends a message that there is room for. -/
theorem callPort_write_queue (port : MeteredPort Message) (message : Message) :
    (callPort port (.write message)).queue =
      if port.queue.length < port.capacity then port.queue ++ [message]
      else port.queue := by
  by_cases room : port.queue.length < port.capacity
  · simp [callPort, MeteredPort.write, MeteredPort.full, SourcePort.push, room]
  · simp [callPort, MeteredPort.write, MeteredPort.full, room]

theorem callPort_read_queue (port : MeteredPort Message) :
    (callPort port .read).queue = port.queue.tail := rfl

theorem portAfter_capacity (capacity : ℕ) (calls : List (Call Message)) :
    (portAfter (construct .triple capacity) calls).capacity = capacity := by
  induction calls using List.reverseRecOn with
  | nil => rfl
  | append_singleton calls call inductionHypothesis =>
      rw [portAfter_concat, callPort_capacity, inductionHypothesis]

/-- The queue holds what the ledger says was accepted and not read. -/
theorem queue_eq_ledger (capacity : ℕ) (calls : List (Call Message)) :
    (ledgerOf capacity calls).served ≤ (ledgerOf capacity calls).kept.length ∧
      (portAfter (construct .triple capacity) calls).queue =
        (ledgerOf capacity calls).kept.drop (ledgerOf capacity calls).served := by
  induction calls using List.reverseRecOn with
  | nil => exact ⟨Nat.le_refl 0, rfl⟩
  | append_singleton calls call inductionHypothesis =>
      obtain ⟨served_le, queue_eq⟩ := inductionHypothesis
      have ledger_eq :
          ledgerOf capacity (calls ++ [call]) =
            (ledgerOf capacity calls).enter capacity call := by
        simp [ledgerOf]
      rw [portAfter_concat, ledger_eq]
      generalize ledgerOf capacity calls = ledger at served_le queue_eq
      cases call with
      | write message =>
          rw [callPort_write_queue, portAfter_capacity, queue_eq, List.length_drop,
            Ledger.enter]
          split
          · refine ⟨?_, ?_⟩
            · simp only [List.length_append]
              omega
            · rw [List.drop_append_of_le_length served_le]
          · exact ⟨served_le, rfl⟩
      | read =>
          rw [callPort_read_queue, queue_eq, List.tail_drop, Ledger.enter]
          split
          · rename_i unread
            exact ⟨unread, rfl⟩
          · rename_i done
            refine ⟨served_le, ?_⟩
            rw [List.drop_eq_nil_of_le (by omega), List.drop_eq_nil_of_le (by omega)]

/-- What a `Read` of a port returns, told from the calls alone. -/
theorem portRead_eq_ledger (capacity : ℕ) (calls : List (Call Message)) :
    portRead (construct .triple capacity) calls =
      (ledgerOf capacity calls).kept[(ledgerOf capacity calls).served]? := by
  simp only [portRead, MeteredPort.take]
  rw [(queue_eq_ledger capacity calls).2, List.head?_drop]

theorem returnsLatest_iff_oldestIsLatest (capacity : ℕ) (calls : List (Call Message)) :
    ReturnsLatest (portRead (construct .triple capacity)) calls ↔
      OldestIsLatest capacity calls := by
  unfold ReturnsLatest OldestIsLatest EveryRead
  simp only [portRead_eq_ledger]

/-! ## Strict alternation -/

/-- When every `Read` leaves the queue empty, it holds the writes since the last one. -/
theorem queue_eq_sinceRead {capacity : ℕ} {calls : List (Call Message)}
    (drains :
      EveryRead
        (fun before => (portAfter (construct .triple capacity) before).queue.tail = [])
        calls) :
    (portAfter (construct .triple capacity) calls).queue =
      (sinceRead calls).take capacity := by
  induction calls using List.reverseRecOn with
  | nil => exact (List.take_nil).symm
  | append_singleton calls call inductionHypothesis =>
      obtain ⟨earlier, last⟩ := everyRead_concat.mp drains
      have queue_eq := inductionHypothesis earlier
      rw [portAfter_concat, sinceRead_concat]
      cases call with
      | write message =>
          rw [callPort_write_queue, portAfter_capacity, queue_eq, List.length_take]
          by_cases room : (sinceRead calls).length < capacity
          · rw [if_pos (by omega), List.take_of_length_le (by omega),
              List.take_of_length_le (by rw [List.length_append]; exact room)]
          · rw [if_neg (by omega), List.take_append_of_le_length (by omega)]
      | read =>
          rw [callPort_read_queue, last rfl]
          exact (List.take_nil).symm

/-- The latest message is the last one since a `Read`, if there was one. -/
theorem lastWritten_of_sinceRead {calls : List (Call Message)}
    (written : sinceRead calls ≠ []) :
    lastWritten calls = (sinceRead calls).getLast? := by
  cases calls using List.reverseRecOn with
  | nil => exact absurd rfl written
  | append_singleton calls call =>
      rw [sinceRead_concat] at written ⊢
      rw [lastWritten_concat]
      cases call with
      | write message => simp [Call.message]
      | read => exact absurd rfl written

theorem sinceRead_of_lastWritten_eq_none {calls : List (Call Message)}
    (none_written : lastWritten calls = none) : sinceRead calls = [] := by
  by_contra written
  rw [lastWritten_of_sinceRead written, List.getLast?_eq_none_iff] at none_written
  exact written none_written

theorem drains_of_alternates {capacity : ℕ} {calls : List (Call Message)}
    (alternates : Alternates calls) :
    EveryRead
      (fun before => (portAfter (construct .triple capacity) before).queue.tail = [])
      calls := by
  induction calls using List.reverseRecOn with
  | nil => exact everyRead_nil _
  | append_singleton calls call inductionHypothesis =>
      obtain ⟨earlier, last⟩ := everyRead_concat.mp alternates
      have drains := inductionHypothesis earlier
      refine everyRead_concat.mpr ⟨drains, fun isRead => ?_⟩
      rw [queue_eq_sinceRead drains, ← List.length_eq_zero_iff, List.length_tail,
        List.length_take]
      cases latest : lastWritten calls with
      | none =>
          rw [sinceRead_of_lastWritten_eq_none latest]
          simp
      | some message =>
          have one := last isRead (by rw [latest]; rfl)
          omega

theorem returnsLatest_of_alternates {capacity : ℕ} (positive : 0 < capacity)
    {calls : List (Call Message)} (alternates : Alternates calls) :
    ReturnsLatest (portRead (construct .triple capacity)) calls := by
  intro before after split message latest
  have earlier : Alternates before := by
    intro first rest first_split
    exact alternates first (rest ++ .read :: after) (by rw [split, first_split]; simp)
  have drains :
      EveryRead
        (fun calls => (portAfter (construct .triple capacity) calls).queue.tail = [])
        before :=
    drains_of_alternates earlier
  have queue_eq := queue_eq_sinceRead drains
  have one := alternates before after split (by rw [latest]; rfl)
  obtain ⟨only, since_eq⟩ := List.length_eq_one_iff.mp one
  rw [lastWritten_of_sinceRead (by simp [since_eq]), since_eq] at latest
  cases latest
  simp only [portRead, MeteredPort.take]
  rw [queue_eq, since_eq, List.take_of_length_le (Nat.succ_le_of_lt positive)]
  rfl

/-- One `Write` and one `Read` more. -/
theorem Alternates.pair {calls : List (Call Message)} (alternates : Alternates calls)
    (read : sinceRead calls = []) (message : Message) :
    Alternates (calls ++ [.write message] ++ [.read]) := by
  refine everyRead_concat.mpr ⟨everyRead_concat.mpr ⟨alternates, nofun⟩, fun _ _ => ?_⟩
  rw [sinceRead_concat, read]
  rfl

theorem sinceRead_suffix (calls : List (Call Message)) :
    sinceRead calls <:+ calls.filterMap Call.message := by
  induction calls using List.reverseRecOn with
  | nil => exact List.suffix_refl _
  | append_singleton calls call inductionHypothesis =>
      rw [sinceRead_concat, List.filterMap_append]
      cases call with
      | write message =>
          exact (List.suffix_append_inj_of_length_eq rfl).mpr ⟨inductionHypothesis, rfl⟩
      | read => exact List.nil_suffix

/-- A list of different messages that begins and ends with the same one has no other. -/
theorem length_eq_one_of_head_eq_getLast {messages : List Message} {message : Message}
    (nodup : messages.Nodup) (first : messages.head? = some message)
    (last : messages.getLast? = some message) : messages.length = 1 := by
  match messages, first with
  | [_], _ => rfl
  | head :: second :: rest, first =>
      cases first
      rw [List.getLast?_cons_cons] at last
      exact absurd (List.mem_of_getLast? last) (List.nodup_cons.mp nodup).1

theorem alternates_of_returnsLatest {capacity : ℕ} (positive : 0 < capacity)
    {calls : List (Call Message)} (nodup : (calls.filterMap Call.message).Nodup)
    (returns : ReturnsLatest (portRead (construct .triple capacity)) calls) :
    Alternates calls := by
  induction calls using List.reverseRecOn with
  | nil => exact everyRead_nil _
  | append_singleton calls call inductionHypothesis =>
      obtain ⟨earlier, last⟩ := everyRead_concat.mp returns
      rw [List.filterMap_append] at nodup
      have nodup_calls := (List.nodup_append.mp nodup).1
      have alternates := inductionHypothesis nodup_calls earlier
      refine everyRead_concat.mpr ⟨alternates, fun isRead written => ?_⟩
      obtain ⟨message, latest⟩ := Option.isSome_iff_exists.mp written
      have read_eq := last isRead message latest
      simp only [portRead, MeteredPort.take] at read_eq
      rw [queue_eq_sinceRead (drains_of_alternates alternates), List.head?_take,
        if_neg (Nat.pos_iff_ne_zero.mp positive)] at read_eq
      have nonempty : sinceRead calls ≠ [] := by
        intro empty
        simp [empty] at read_eq
      rw [lastWritten_of_sinceRead nonempty] at latest
      exact length_eq_one_of_head_eq_getLast
        (nodup_calls.sublist (sinceRead_suffix calls).sublist) read_eq latest

/--
A port that was added as a triple buffer returns the latest message exactly when the
oldest unread message is the latest one at every `Read`.  So it does when exactly one
`Write` comes before each `Read`, and with different messages only then, while a
triple buffer does so on every sequence of calls.
-/
theorem triple_port_returnsLatest_iff (calls : List (Call Message)) :
    (ReturnsLatest (portRead (add .triple)) calls ↔
      OldestIsLatest defaultCapacity calls) ∧
    (Alternates calls → ReturnsLatest (portRead (add .triple)) calls) ∧
    ((calls.filterMap Call.message).Nodup →
      (ReturnsLatest (portRead (add .triple)) calls ↔ Alternates calls)) ∧
    ∀ contents, ReturnsLatest (tripleRead contents) calls := by
  have positive : 0 < defaultCapacity := by decide
  refine ⟨returnsLatest_iff_oldestIsLatest defaultCapacity calls, ?_, ?_, ?_⟩
  · exact returnsLatest_of_alternates positive
  · intro nodup
    exact ⟨alternates_of_returnsLatest positive nodup, returnsLatest_of_alternates positive⟩
  · intro contents
    exact tripleRead_returnsLatest contents calls

/-- One `Write` and one `Read` at a time. -/
theorem triple_port_returnsLatest_pairs :
    ([Call.write 1, .read, .write 2, .read].filterMap Call.message).Nodup ∧
      Alternates [Call.write 1, .read, .write 2, .read] ∧
      ReturnsLatest (portRead (add .triple)) [Call.write 1, .read, .write 2, .read] := by
  have nodup : ([Call.write 1, .read, .write 2, .read].filterMap Call.message).Nodup := by
    decide
  have first : Alternates [Call.write 1, .read] :=
    Alternates.pair (everyRead_nil _) rfl 1
  have alternates : Alternates [Call.write 1, .read, .write 2, .read] :=
    Alternates.pair first rfl 2
  obtain ⟨_, _, exactly, _⟩ :=
    triple_port_returnsLatest_iff [Call.write 1, .read, .write 2, .read]
  exact ⟨nodup, alternates, (exactly nodup).mpr alternates⟩

/-- Two messages are written before the first one is read. -/
theorem triple_port_returns_oldest :
    ¬ ∀ calls : List (Call ℕ), ReturnsLatest (portRead (add .triple)) calls := by
  intro claim
  have second := claim [.write 1, .write 2, .read] [.write 1, .write 2] [] rfl 2 rfl
  exact absurd second (by decide)

end AsyncRuntime.Dataflow.BufferType
