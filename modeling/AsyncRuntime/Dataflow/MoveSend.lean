import AsyncRuntime.Dataflow.Broadcast

/-!
# Sending by move

`SinkPort` has two overloads of `Send`.  Each of them calls the `Write` of every
active consumer in turn, but `Send(T &&)` casts its argument to an rvalue in every
iteration.  What a `Write(T &&)` leaves in the argument is what the next active
consumer is given.

A consumer is its name, its answer to `IsActive`, and what its `Write(T &&)` leaves
of an argument.  Nothing is assumed of the latter: a full queue may leave the
argument as it is, a string that was moved from is empty.
-/

namespace AsyncRuntime.Dataflow

universe u v w

variable {Name : Type u} {Message : Type v}

/-- `Consumer<T>`. -/
structure Consumer (Name : Type u) (Message : Type v) where
  name : Name
  active : Bool
  leaves : Message → Message

/-- What a consumer was given, in the order of the calls of `Write`. -/
abbrev Deliveries (Name : Type u) (Message : Type v) :=
  List (Name × Message)

namespace SinkPort

/-- The loop of `Send(const T &)`. -/
def sendCopy (message : Message) :
    List (Consumer Name Message) → Deliveries Name Message
  | [] => []
  | consumer :: rest =>
      if consumer.active then
        (consumer.name, message) :: sendCopy message rest
      else
        sendCopy message rest

/-- The loop of `Send(T &&)`: every iteration sees what the earlier ones left. -/
def sendMove : Message → List (Consumer Name Message) → Deliveries Name Message
  | _, [] => []
  | message, consumer :: rest =>
      if consumer.active then
        (consumer.name, message) :: sendMove (consumer.leaves message) rest
      else
        sendMove message rest

/-- No active consumer spoils the message for another one after it. -/
def LeavesForOthers (message : Message) (consumers : List (Consumer Name Message)) :
    Prop :=
  ∀ before consumer after, consumers = before ++ consumer :: after →
    consumer.active = true → (∃ later ∈ after, later.active = true) →
      consumer.leaves message = message

/-! ## What the two loops deliver -/

/-- Without an active consumer nothing is delivered. -/
theorem sendMove_of_inactive {consumers : List (Consumer Name Message)}
    (inactive : ¬ ∃ consumer ∈ consumers, consumer.active = true) (message : Message) :
    sendMove message consumers = [] := by
  induction consumers with
  | nil => rfl
  | cons consumer rest inductionHypothesis =>
      rw [sendMove, if_neg]
      · refine inductionHypothesis ?_
        rintro ⟨later, member, active⟩
        exact inactive ⟨later, List.mem_cons_of_mem _ member, active⟩
      · intro active
        exact inactive ⟨consumer, List.mem_cons_self, active⟩

/-- The first active consumer is given the message as it was. -/
theorem exists_first_delivery {consumers : List (Consumer Name Message)}
    (active : ∃ consumer ∈ consumers, consumer.active = true) (message : Message) :
    (∃ name rest, sendMove message consumers = (name, message) :: rest) ∧
      ∃ name rest, sendCopy message consumers = (name, message) :: rest := by
  induction consumers with
  | nil => simp at active
  | cons consumer rest inductionHypothesis =>
      rw [sendMove, sendCopy]
      by_cases first : consumer.active = true
      · rw [if_pos first, if_pos first]
        exact ⟨⟨_, _, rfl⟩, ⟨_, _, rfl⟩⟩
      · rw [if_neg first, if_neg first]
        refine inductionHypothesis ?_
        obtain ⟨later, member, later_active⟩ := active
        rcases List.mem_cons.mp member with rfl | member
        · exact absurd later_active first
        · exact ⟨later, member, later_active⟩

/-- Two sends of different messages to an active consumer differ. -/
theorem eq_of_sendMove_eq_sendCopy {consumers : List (Consumer Name Message)}
    (active : ∃ consumer ∈ consumers, consumer.active = true)
    {moved message : Message}
    (same : sendMove moved consumers = sendCopy message consumers) :
    moved = message := by
  obtain ⟨name, rest, move_eq⟩ := (exists_first_delivery active moved).1
  obtain ⟨other, others, copy_eq⟩ := (exists_first_delivery active message).2
  rw [move_eq, copy_eq] at same
  cases same
  rfl

theorem LeavesForOthers.tail {message : Message} {consumer : Consumer Name Message}
    {rest : List (Consumer Name Message)}
    (leaves : LeavesForOthers message (consumer :: rest)) :
    LeavesForOthers message rest := by
  intro before other after split
  exact leaves (consumer :: before) other after (by rw [split]; rfl)

theorem leavesForOthers_cons {message : Message} {consumer : Consumer Name Message}
    {rest : List (Consumer Name Message)}
    (head :
      consumer.active = true → (∃ later ∈ rest, later.active = true) →
        consumer.leaves message = message)
    (tail : LeavesForOthers message rest) :
    LeavesForOthers message (consumer :: rest) := by
  intro before other after split active later
  cases before with
  | nil =>
      cases split
      exact head active later
  | cons first before =>
      cases split
      exact tail before other after rfl active later

/--
Sending by move delivers the same values in the same order as sending by copy
exactly when no active consumer spoils the message for another one after it.
-/
theorem sendMove_eq_sendCopy_iff (message : Message)
    (consumers : List (Consumer Name Message)) :
    sendMove message consumers = sendCopy message consumers ↔
      LeavesForOthers message consumers := by
  induction consumers with
  | nil =>
      refine iff_of_true rfl ?_
      intro before consumer after split
      simp at split
  | cons consumer rest inductionHypothesis =>
      rw [sendMove, sendCopy]
      by_cases active : consumer.active = true
      · rw [if_pos active, if_pos active, List.cons.injEq]
        by_cases others : ∃ later ∈ rest, later.active = true
        · constructor
          · rintro ⟨-, same⟩
            have left := eq_of_sendMove_eq_sendCopy others same
            rw [left] at same
            exact leavesForOthers_cons (fun _ _ => left) (inductionHypothesis.mp same)
          · intro leaves
            have left := leaves [] consumer rest rfl active others
            rw [left]
            exact ⟨rfl, inductionHypothesis.mpr leaves.tail⟩
        · have none_left : sendCopy message rest = [] := by
            rw [← inductionHypothesis.mpr, sendMove_of_inactive others]
            intro before other after split other_active
            exact absurd ⟨other, by simp [split], other_active⟩ others
          rw [sendMove_of_inactive others, none_left]
          refine iff_of_true ⟨rfl, rfl⟩ (leavesForOthers_cons ?_ ?_)
          · intro _ later
            exact absurd later others
          · rw [← inductionHypothesis, none_left, sendMove_of_inactive others]
      · rw [if_neg active, if_neg active, inductionHypothesis]
        constructor
        · exact leavesForOthers_cons fun impossible => absurd impossible active
        · exact LeavesForOthers.tail

/-! ## The deliveries to source ports -/

section Network

variable {Sink : Type w} [DecidableEq Name]

/-- The consumers of a sink, with what each of them leaves of a moved message. -/
def consumersOf (network : Network Sink Name Message) (sink : Sink)
    (leaves : Name → Message → Message) : List (Consumer Name Message) :=
  (network.consumers sink).map fun source =>
    ⟨source, (network.ports source).active, leaves source⟩

/-- The port of a delivery takes the message. -/
def deliver (ports : Name → MeteredPort Message) (delivery : Name × Message) :
    Name → MeteredPort Message :=
  Function.update ports delivery.1 ((ports delivery.1).write delivery.2).1

/-- A write leaves the activity of every port as it was. -/
theorem deliver_active (ports : Name → MeteredPort Message) (delivery : Name × Message)
    (source : Name) : (deliver ports delivery source).active = (ports source).active := by
  unfold deliver
  by_cases same : source = delivery.1
  · subst same
    rw [Function.update_self, MeteredPort.write_active]
  · rw [Function.update_of_ne same]

/-- The network after a `Send(const T &)` is what the deliveries of its loop make of it. -/
theorem send_ports_eq_deliver (network : Network Sink Name Message) (sink : Sink)
    (message : Message) (leaves : Name → Message → Message) :
    (network.send sink message).ports =
      (sendCopy message (consumersOf network sink leaves)).foldl deliver network.ports := by
  unfold Network.send consumersOf
  simp only
  generalize network.consumers sink = sources
  have agree :
      ∀ ports : Name → MeteredPort Message,
        (∀ source, (ports source).active = (network.ports source).active) →
        sources.foldl (Network.offer message) ports =
          (sendCopy message
            (sources.map fun source =>
              (⟨source, (network.ports source).active, leaves source⟩ :
                Consumer Name Message))).foldl deliver ports := by
    induction sources with
    | nil =>
        intro ports _
        rfl
    | cons source rest inductionHypothesis =>
        intro ports active_eq
        rw [List.foldl_cons, List.map_cons, sendCopy, Network.offer, active_eq source]
        split
        · rw [List.foldl_cons]
          refine inductionHypothesis _ ?_
          intro other
          rw [← active_eq other]
          exact deliver_active ports (source, message) other
        · exact inductionHypothesis ports active_eq
  exact agree network.ports fun _ => rfl

end Network

/-- Two active consumers whose `Write(T &&)` takes the string out of its argument. -/
theorem moved_string_not_broadcast :
    ¬ ∀ (message : String) (consumers : List (Consumer ℕ String)),
      sendMove message consumers = sendCopy message consumers := by
  intro claim
  have same :=
    claim "frame" [⟨0, true, fun _ => ""⟩, ⟨1, true, fun _ => ""⟩]
  exact absurd same (by decide)

end SinkPort

end AsyncRuntime.Dataflow
