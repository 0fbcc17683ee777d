import AsyncRuntime.Foundation.EventCount
import AsyncRuntime.WorkNotifier.Asleep

/-!
# The event count is linearizable

Within the epoch bounds every run of `WorkNotifier` looks like one of the event count
whose operations take effect one at a time.  A waiter decides with its
compare-exchange, and a `notify` wakes with its own, or with the load that shows that
nobody waits.  The tickets put the undecided waiters in the order of their
`prepare_wait`, and the links are the stack of the sleeping ones.
-/

namespace AsyncRuntime.WorkNotifier

open AsyncRuntime.Foundation
open AsyncRuntime.Foundation.EventCount (WaiterPhase CallPhase)

universe u

variable {Thread : Type u}

/-- The result, when the `notify` has returned. -/
def NotifyPc.outcome : NotifyPc → Option (Option ℕ)
  | .returned result => some result
  | _ => none

/-- The event count, with the calls and the returns as its events. -/
def observed (Thread : Type u) [DecidableEq Thread] (size : ℕ) :
    ObservedSystem (State Thread) (Action Thread) (EventCount.Event ℕ Thread) where
  toTransitionSystem := system Thread size
  shows := fun _ action target =>
    match action with
    | .prepareWait waiter => [.prepared waiter]
    | .commitWait waiter => [.commits waiter]
    | .cancelWait waiter => [.cancels waiter]
    | .waiter waiter _ => if target.waiting waiter = .idle then [.left waiter] else []
    | .notify thread all => [.notifies thread all]
    | .notifier thread _ =>
        (target.notifying thread).outcome.toList.map (.notified thread)

/-! ## The event count behind the word -/

/-- Where a waiter is. -/
def WaiterPc.abstract : WaiterPc → WaiterPhase
  | .idle => .outside
  | .prepared => .prepared
  | .cancelLoad => .cancelling
  | .cancelExchange _ => .cancelling
  | .parked _ => .asleep
  | _ => .committing

/-- Where a caller of `notify` is. -/
def NotifyPc.abstract : NotifyPc → CallPhase ℕ
  | .returned result => .idle result
  | .load all => .calling all
  | .loadNext _ _ => .calling false
  | .exchange all _ _ _ => .calling all
  | .unlink waiter => .done (some waiter)
  | .unparkLoad first _ => .done (some first)
  | .unparkSignal first _ _ => .done (some first)

/-- The waiters that hold the tickets from the epoch on, in the order of the tickets. -/
structure Queued (system : State Thread) (queue : List ℕ) : Prop where
  inside : ∀ index ∈ queue, (system.waiting index).preWait = true
  tickets : queue.map system.ticket = List.range' system.epochs (waiterField system.word)

section Queue

variable {size : ℕ} {system target : State Thread} {queue : List ℕ}

/-- The queue holds exactly the undecided waiters. -/
theorem Queued.mem_iff (queued : Queued system queue) (tickets : TicketInvariant size system)
    {index : ℕ} :
    index ∈ queue ↔ (system.waiting index).preWait = true ∧
      system.epochs ≤ system.ticket index := by
  have members : ∀ number, number ∈ queue.map system.ticket ↔
      system.epochs ≤ number ∧ number < system.epochs + waiterField system.word := by
    intro number
    rw [queued.tickets, List.mem_range'_1]
  constructor
  · intro member
    have held := (members _).mp (List.mem_map_of_mem member)
    exact ⟨queued.inside index member, held.1⟩
  · rintro ⟨waiting, ahead⟩
    have issued := tickets.line.issued index waiting
    obtain ⟨holder, member, same⟩ := List.mem_map.mp ((members _).mpr ⟨ahead, issued⟩)
    have holding := queued.inside holder member
    rwa [tickets.line.distinct index holder waiting holding ahead same.symm]

/-- The first of the queue is the waiter whose ticket is the epoch. -/
theorem Queued.eq_cons (queued : Queued system queue) (tickets : TicketInvariant size system)
    {index : ℕ} (waiting : (system.waiting index).preWait = true)
    (first : system.ticket index = system.epochs) :
    ∃ rest, queue = index :: rest ∧
      rest.map system.ticket =
        List.range' (system.epochs + 1) (waiterField system.word - 1) := by
  have nonempty := tickets.waiters_ne_zero waiting first
  have order := queued.tickets
  obtain ⟨count, count_eq⟩ := Nat.exists_eq_succ_of_ne_zero nonempty
  rw [count_eq, List.range'_succ] at order
  obtain ⟨head, rest, rfl, head_eq, rest_eq⟩ := List.map_eq_cons_iff.mp order
  have same : head = index :=
    tickets.line.distinct head index (queued.inside head List.mem_cons_self) waiting
      head_eq.ge (head_eq.trans first.symm)
  refine ⟨rest, by rw [same], ?_⟩
  rw [rest_eq, count_eq]
  rfl

/-- Only the waiters, the tickets in the queue, the epoch and the count matter. -/
theorem Queued.congr (queued : Queued system queue)
    (inside : ∀ index ∈ queue, (target.waiting index).preWait = true)
    (ticket_eq : ∀ index ∈ queue, target.ticket index = system.ticket index)
    (epochs_eq : target.epochs = system.epochs)
    (count_eq : waiterField target.word = waiterField system.word) : Queued target queue := by
  refine ⟨inside, ?_⟩
  rw [epochs_eq, count_eq, ← queued.tickets]
  exact List.map_congr_left ticket_eq

/-- A waiter that is not in the queue, or stays in it, moves. -/
theorem Queued.move (queued : Queued system queue) {index : ℕ} {pc : WaiterPc}
    (waiting_eq : target.waiting = Function.update system.waiting index pc)
    (stays : index ∈ queue → pc.preWait = true)
    (ticket_eq : target.ticket = system.ticket) (epochs_eq : target.epochs = system.epochs)
    (word_eq : target.word = system.word) : Queued target queue := by
  refine queued.congr ?_ (fun _ _ => by rw [ticket_eq]) epochs_eq (by rw [word_eq])
  intro other member
  rw [waiting_eq]
  rcases eq_or_ne other index with rfl | elsewhere
  · rw [Function.update_self]
    exact stays member
  · rw [Function.update_of_ne elsewhere]
    exact queued.inside other member

end Queue

/-- The event count agrees with the word, the links and the threads. -/
structure Counted (system : State Thread) (specification : EventCount.State ℕ Thread) :
    Prop where
  phases : specification.phases = fun index => (system.waiting index).abstract
  queue : Queued system specification.queue
  stack : StackInvariant system specification.stack
  calls : specification.calls = fun thread => (system.notifying thread).abstract

section Frames

variable {size : ℕ} {system target : State Thread}
  {specification : EventCount.State ℕ Thread}

theorem Counted.phase_eq (counted : Counted system specification) {index : ℕ} {pc : WaiterPc}
    (place : system.waiting index = pc) : specification.phases index = pc.abstract := by
  rw [counted.phases, ← place]

theorem Counted.call_eq (counted : Counted system specification) {thread : Thread}
    {pc : NotifyPc} (place : system.notifying thread = pc) :
    specification.calls thread = pc.abstract := by
  rw [counted.calls, ← place]

/-- The steps after which word, epochs and tickets are as before. -/
structure Unserved (system target : State Thread) : Prop where
  quiet : Quiet system target
  ticket_eq : target.ticket = system.ticket
  epochs_eq : target.epochs = system.epochs
  word_eq : target.word = system.word

theorem Unserved.of_waiting {index : ℕ} {pc : WaiterPc}
    (before : system.waiting index ≠ .parked false) (after : pc ≠ .parked false)
    (unlinked : ∀ state, pc ≠ .commitExchange state) :
    Unserved system (system.setWaiting index pc) :=
  ⟨.of_waiting le_rfl rfl rfl rfl before after unlinked, rfl, rfl, rfl⟩

/-- The link and the signal of a waiter are no part of its ticket. -/
theorem Unserved.of_write {index : ℕ} {waiter : Waiter} (quiet : Quiet system target)
    (waiters_eq : target.waiters = Function.update system.waiters index waiter)
    (epoch_eq : waiter.epoch = (system.waiters index).epoch)
    (preparedAt_eq : target.preparedAt = system.preparedAt)
    (epochs_eq : target.epochs = system.epochs) (word_eq : target.word = system.word) :
    Unserved system target := by
  refine ⟨quiet, ?_, epochs_eq, word_eq⟩
  funext other
  rw [State.ticket, State.ticket, waiters_eq, preparedAt_eq]
  rcases eq_or_ne other index with rfl | elsewhere
  · rw [Function.update_self, epoch_eq]
  · rw [Function.update_of_ne elsewhere]

/-- A waiter goes on to a place of the same kind. -/
theorem Counted.waiter (counted : Counted system specification)
    (unserved : Unserved system target) {index : ℕ} {pc : WaiterPc}
    (waiting_eq : target.waiting = Function.update system.waiting index pc)
    (notifying_eq : target.notifying = system.notifying)
    (stays : index ∈ specification.queue → pc.preWait = true) :
    Counted target (specification.setPhase index pc.abstract) where
  phases := by
    rw [EventCount.State.setPhase, counted.phases, waiting_eq]
    funext other
    dsimp only
    rcases eq_or_ne other index with rfl | elsewhere
    · rw [Function.update_self, Function.update_self]
    · rw [Function.update_of_ne elsewhere, Function.update_of_ne elsewhere]
  queue := counted.queue.move waiting_eq stays unserved.ticket_eq unserved.epochs_eq
    unserved.word_eq
  stack := counted.stack.quiet unserved.quiet
  calls := by
    rw [notifying_eq]
    exact counted.calls

/-- A waiter takes a step that nobody sees. -/
theorem Counted.stutter (counted : Counted system specification)
    (unserved : Unserved system target) {index : ℕ} {pc : WaiterPc}
    (waiting_eq : target.waiting = Function.update system.waiting index pc)
    (notifying_eq : target.notifying = system.notifying)
    (preWait_eq : pc.preWait = (system.waiting index).preWait)
    (abstract_eq : pc.abstract = (system.waiting index).abstract) :
    Counted target specification := by
  have moved := counted.waiter unserved waiting_eq notifying_eq fun member => by
    rw [preWait_eq]
    exact counted.queue.inside index member
  have same : specification.setPhase index pc.abstract = specification := by
    rw [EventCount.State.setPhase, abstract_eq]
    rw [← counted.phase_eq rfl, Function.update_eq_self]
  rwa [same] at moved

variable [DecidableEq Thread]

/-- A caller of `notify` goes on. -/
theorem Counted.caller (counted : Counted system specification)
    (unserved : Unserved system target) {thread : Thread} {pc : NotifyPc}
    (waiting_eq : target.waiting = system.waiting)
    (notifying_eq : target.notifying = Function.update system.notifying thread pc) :
    Counted target (specification.setCall thread pc.abstract) where
  phases := by
    rw [waiting_eq]
    exact counted.phases
  queue := by
    refine counted.queue.congr ?_ (fun _ _ => by rw [unserved.ticket_eq])
      unserved.epochs_eq (by rw [unserved.word_eq])
    intro index member
    rw [waiting_eq]
    exact counted.queue.inside index member
  stack := counted.stack.quiet unserved.quiet
  calls := by
    rw [EventCount.State.setCall, counted.calls, notifying_eq]
    funext other
    dsimp only
    rcases eq_or_ne other thread with rfl | elsewhere
    · rw [Function.update_self, Function.update_self]
    · rw [Function.update_of_ne elsewhere, Function.update_of_ne elsewhere]

/-- A caller of `notify` takes a step that nobody sees. -/
theorem Counted.caller_stutter (counted : Counted system specification)
    (unserved : Unserved system target) {thread : Thread} {pc : NotifyPc}
    (waiting_eq : target.waiting = system.waiting)
    (notifying_eq : target.notifying = Function.update system.notifying thread pc)
    (abstract_eq : pc.abstract = (system.notifying thread).abstract) :
    Counted target specification := by
  have moved := counted.caller unserved waiting_eq notifying_eq
  have same : specification.setCall thread pc.abstract = specification := by
    rw [EventCount.State.setCall, abstract_eq]
    rw [← counted.call_eq rfl, Function.update_eq_self]
  rwa [same] at moved

theorem Unserved.of_notifying {thread : Thread} {pc : NotifyPc} :
    Unserved system (system.setNotifying thread pc) :=
  ⟨.of_notifying, rfl, rfl, rfl⟩

end Frames

/-! ## The steps that matter -/

section Effects

variable {size : ℕ} {system target : State Thread}
  {specification : EventCount.State ℕ Thread}

/-- `prepare_wait` draws the next ticket and queues the waiter last. -/
theorem Counted.prepareWait (counted : Counted system specification) {index : ℕ} {word : Word}
    (idle : system.waiting index = .idle)
    (count_eq : waiterField word = waiterField system.word + 1)
    (top_eq : stackTop word = stackTop system.word) :
    Counted (system.prepare index word)
      { specification.setPhase index .prepared with
        queue := specification.queue ++ [index] } where
  phases := by
    rw [EventCount.State.setPhase, counted.phases, State.prepare_waiting]
    funext other
    dsimp only
    rcases eq_or_ne other index with rfl | elsewhere
    · rw [Function.update_self, Function.update_self]
      rfl
    · rw [Function.update_of_ne elsewhere, Function.update_of_ne elsewhere]
  queue := by
    have absent : index ∉ specification.queue := by
      intro member
      have inside := counted.queue.inside index member
      rw [idle] at inside
      cases inside
    have different : ∀ other ∈ specification.queue, other ≠ index := by
      rintro other member rfl
      exact absent member
    constructor
    · intro other member
      rw [State.prepare_waiting]
      rcases List.mem_append.mp member with before | last
      · rw [Function.update_of_ne (different other before)]
        exact counted.queue.inside other before
      · rw [List.mem_singleton.mp last, Function.update_self]
        rfl
    · have kept : specification.queue.map (system.prepare index word).ticket =
          specification.queue.map system.ticket := by
        refine List.map_congr_left fun other member => ?_
        rw [State.ticket, State.ticket, State.prepare_preparedAt, State.prepare_waiters,
          Function.update_of_ne (different other member),
          Function.update_of_ne (different other member)]
      have drawn : (system.prepare index word).ticket index =
          system.epochs + waiterField system.word := by
        rw [State.ticket, State.prepare_preparedAt, State.prepare_waiters,
          Function.update_self, Function.update_self]
      rw [List.map_append, kept, counted.queue.tickets, List.map_singleton, drawn,
        State.prepare_word, State.prepare_epochs, count_eq, List.range'_1_concat]
  stack := counted.stack.quiet (.prepareWait top_eq idle)
  calls := counted.calls

/-- Nobody else has the ticket of the first. -/
theorem ne_of_rest {rest : List ℕ} {count index other : ℕ}
    (rest_eq : rest.map system.ticket = List.range' (system.epochs + 1) count)
    (first : system.ticket index = system.epochs) (member : other ∈ rest) : other ≠ index := by
  rintro rfl
  have later : system.ticket other ∈ rest.map system.ticket := List.mem_map_of_mem member
  rw [rest_eq, List.mem_range'_1] at later
  omega

/-- The waiter whose ticket is the epoch has decided. -/
theorem Queued.decided {rest : List ℕ} {index : ℕ} {pc : WaiterPc} {word : Word}
    (queued : Queued system (index :: rest))
    (rest_eq : rest.map system.ticket =
      List.range' (system.epochs + 1) (waiterField system.word - 1))
    (first : system.ticket index = system.epochs)
    (count_eq : waiterField word = waiterField system.word - 1) :
    Queued ((system.serve word).setWaiting index pc) rest := by
  constructor
  · intro other member
    rw [State.setWaiting_waiting, Function.update_of_ne (ne_of_rest rest_eq first member)]
    exact queued.inside other (List.mem_cons_of_mem index member)
  · rw [State.setWaiting_word, State.serve_word, State.setWaiting_epochs, State.serve_epochs,
      count_eq, ← rest_eq]
    rfl

/-- What the compare-exchange of a deciding waiter finds. -/
theorem Counted.first (counted : Counted system specification) {index : ℕ}
    (tickets : TicketInvariant size system)
    (waiting : (system.waiting index).preWait = true)
    (tested : (system.waiting index).tested = some system.word)
    (bounded : system.epochs - system.preparedAt index < 2 ^ 31) :
    ∃ rest, specification.queue = index :: rest ∧ index ∉ rest ∧
      waiterField system.word ≠ 0 ∧ ∀ (word : Word) (pc : WaiterPc), waiterField word = waiterField system.word - 1 →
        Queued ((system.serve word).setWaiting index pc) rest := by
  have first := tickets.ticket_eq waiting tested bounded
  obtain ⟨rest, queue_eq, rest_eq⟩ := counted.queue.eq_cons tickets waiting first
  have queued := counted.queue
  rw [queue_eq] at queued
  exact ⟨rest, queue_eq, fun member => ne_of_rest rest_eq first member rfl,
    tickets.waiters_ne_zero waiting first, fun word pc => queued.decided rest_eq first⟩

variable [DecidableEq Thread]

/-- The compare-exchange of `commit_wait` puts the waiter to sleep. -/
theorem Counted.commit (counted : Counted system specification) {index : ℕ}
    (tickets : TicketInvariant size system) (size_lt : size < 65535)
    (at_exchange : system.waiting index = .commitExchange system.word)
    (bounded : system.epochs - system.preparedAt index < 2 ^ 31) :
    ∃ next, (EventCount.system ℕ Thread).Steps specification [] next ∧
      Counted
        ((system.serve (withStack (leavePreWait system.word) index)).setWaiting index
          (.parked false)) next := by
  have index_lt : index < size := tickets.index_lt (by simp [at_exchange])
  obtain ⟨rest, queue_eq, -, nonempty, queued⟩ := counted.first tickets
    (by simp [at_exchange, WaiterPc.preWait]) (by simp [at_exchange, WaiterPc.tested]) bounded
  have fields := fields_withStack (leavePreWait system.word) (by omega : index < 65536)
  have top_eq : stackTop (withStack (leavePreWait system.word) index) = some index := by
    rw [stackTop, fields.2.2, if_neg (by omega)]
  have count_eq : waiterField (withStack (leavePreWait system.word) index) =
      waiterField system.word - 1 := by
    rw [fields.2.1, (fields_leavePreWait nonempty).2.1]
  have phase_eq : specification.phases index = .committing := counted.phase_eq at_exchange
  have taken : (EventCount.system ℕ Thread).next specification (.decide index) =
      some
        { specification.setPhase index .asleep with
          queue := rest
          stack := index :: specification.stack } := by
    simp only [EventCount.system, EventCount.State.next, EventCount.State.decides, queue_eq,
      if_true, phase_eq]
  refine ⟨_, .one taken, ⟨?_, queued _ _ count_eq, ?_, counted.calls⟩⟩
  · rw [EventCount.State.setPhase, counted.phases, State.setWaiting_waiting]
    funext other
    dsimp only
    rcases eq_or_ne other index with rfl | elsewhere
    · rw [Function.update_self, Function.update_self]
      rfl
    · rw [Function.update_of_ne elsewhere, Function.update_of_ne elsewhere]
      rfl
  · exact counted.stack.commit at_exchange top_eq

/-- The compare-exchange of `cancel_wait` takes the waiter out of the queue. -/
theorem Counted.cancel (counted : Counted system specification) {index : ℕ}
    (tickets : TicketInvariant size system)
    (at_exchange : system.waiting index = .cancelExchange system.word)
    (bounded : system.epochs - system.preparedAt index < 2 ^ 31) :
    ∃ next, (EventCount.system ℕ Thread).Steps specification [.left index] next ∧
      Counted ((system.serve (leavePreWait system.word)).setWaiting index .idle) next := by
  obtain ⟨rest, queue_eq, absent, nonempty, queued⟩ := counted.first tickets
    (by simp [at_exchange, WaiterPc.preWait]) (by simp [at_exchange, WaiterPc.tested]) bounded
  have fields := fields_leavePreWait nonempty
  have phase_eq : specification.phases index = .cancelling := counted.phase_eq at_exchange
  have awake : index ∉ specification.stack := by
    rw [counted.stack.members, at_exchange]
    intro parked
    cases parked
  have taken : (EventCount.system ℕ Thread).next specification (.decide index) =
      some { specification with queue := rest } := by
    simp only [EventCount.system, EventCount.State.next, EventCount.State.decides, queue_eq,
      if_true, phase_eq]
  have left := @EventCount.steps_leave _ Thread _ _ { specification with queue := rest } index
    absent awake (.inr (.inl phase_eq))
  refine ⟨_, .step taken left, ⟨?_, queued _ _ fields.2.1, ?_, counted.calls⟩⟩
  · rw [EventCount.State.setPhase, counted.phases, State.setWaiting_waiting]
    funext other
    dsimp only
    rcases eq_or_ne other index with rfl | elsewhere
    · rw [Function.update_self, Function.update_self]
      rfl
    · rw [Function.update_of_ne elsewhere, Function.update_of_ne elsewhere]
      rfl
  · exact counted.stack.quiet (.cancel (stackTop_of_stackField fields.2.2) at_exchange)

omit [DecidableEq Thread] in
theorem abstract_notifyEffect (all : Bool) (state newstate : Word) (index : ℕ) :
    ((system.notifyEffect all state newstate).waiting index).abstract =
      (system.waiting index).abstract := by
  simp only [State.notifyEffect_waiting]
  split
  · rename_i parked
    rw [parked]
    rfl
  · rfl

omit [DecidableEq Thread] in
/-- Nobody is queued when the word counts nobody. -/
theorem Queued.eq_nil {queue : List ℕ} (queued : Queued system queue)
    (nobody : waiterField system.word = 0) : queue = [] := by
  have order := queued.tickets
  rw [nobody, List.range'_zero] at order
  exact List.map_eq_nil_iff.mp order

omit [DecidableEq Thread] in
/-- After the compare-exchange of `notify` the next waiters are queued no more. -/
theorem Queued.notified {queue : List ℕ} {all : Bool} {newstate : Word}
    (queued : Queued system queue) (serves : Serves all system.word newstate) :
    Queued (system.notifyEffect all system.word newstate)
      (queue.drop (notifyIncrements all system.word)) := by
  constructor
  · intro index member
    rw [preWait_notifyEffect]
    exact queued.inside index (List.mem_of_mem_drop member)
  · have tickets_eq : (system.notifyEffect all system.word newstate).ticket = system.ticket := rfl
    rw [tickets_eq, List.map_drop, queued.tickets, List.drop_range', Nat.mul_one,
      State.notifyEffect_word, State.notifyEffect_epochs, serves.waiters]

omit [DecidableEq Thread] in
/-- What the compare-exchange leaves of the queue and of the stack. -/
theorem Counted.notified (counted : Counted system specification) {all : Bool}
    {newstate : Word} (serves : Serves all system.word newstate) {stack : List ℕ}
    (left : StackInvariant (system.notifyEffect all system.word newstate) stack) :
    Counted (system.notifyEffect all system.word newstate)
      { specification with
        queue := specification.queue.drop (notifyIncrements all system.word)
        stack := stack } where
  phases := by
    rw [counted.phases]
    funext index
    exact (abstract_notifyEffect all system.word newstate index).symm
  queue := counted.queue.notified serves
  stack := left
  calls := counted.calls

omit [DecidableEq Thread] in
theorem Queued.length_eq {queue : List ℕ} (queued : Queued system queue) :
    queue.length = waiterField system.word := by
  have lengths := congrArg List.length queued.tickets
  rwa [List.length_map, List.length_range'] at lengths

omit [DecidableEq Thread] in
theorem link_notifyEffect (all : Bool) (state newstate : Word) :
    (system.notifyEffect all state newstate).link = system.link := by
  funext index
  rw [State.link, State.link, State.notifyEffect_waiters]

omit [DecidableEq Thread] in
/-- The compare-exchange of `notify` wakes the waiters that the event count wakes. -/
theorem Counted.wakes (counted : Counted system specification) {all : Bool} {newstate : Word}
    (installs : NotifyWord system specification.stack all newstate)
    (tickets : TicketInvariant size system) (size_lt : size < 65535) :
    Counted (system.notifyEffect all system.word newstate) (specification.wakes all).1 := by
  have serves := installs.serves tickets counted.stack size_lt
  obtain ⟨chain, left⟩ := installs.stack tickets counted.stack size_lt
  have notified := counted.notified serves left
  have links := left.links
  rw [link_notifyEffect] at links
  have length_eq := counted.queue.length_eq
  cases installs with
  | everybody =>
      obtain rfl : chain = [] := by
        rw [State.notifyEffect_word, (fields_releaseAll system.word).2.2] at links
        exact links.eq_nil
      have none : specification.queue.drop (notifyIncrements true system.word) = [] := by
        rw [List.drop_eq_nil_iff, length_eq, notifyIncrements, if_pos rfl]
      rw [none] at notified
      rw [EventCount.State.wakes, if_pos rfl]
      exact notified
  | preWait some =>
      obtain rfl : chain = specification.stack := by
        rw [State.notifyEffect_word,
          stackTop_of_stackField (fields_leavePreWait some).2.2] at links
        exact links.unique counted.stack.links
      have one : notifyIncrements false system.word = 1 := by
        rw [notifyIncrements, if_neg Bool.false_ne_true, if_pos some]
      rw [one] at notified
      have nonempty : 0 < specification.queue.length := by
        rw [length_eq]
        exact Nat.pos_of_ne_zero some
      obtain ⟨first, rest, queue_eq⟩ := List.exists_cons_of_length_pos nonempty
      rw [queue_eq, List.drop_one, List.tail_cons] at notified
      rw [EventCount.State.wakes, if_neg Bool.false_ne_true, queue_eq]
      exact notified
  | @pop top rest none split =>
      have member : top ∈ specification.stack := by
        rw [split]
        exact List.mem_cons_self
      obtain rfl : chain = rest := by
        rw [State.notifyEffect_word, (fields_popStack system.word
          (counted.stack.link_lt tickets size_lt member)).2.2] at links
        have others := counted.stack.links
        rw [split] at others
        exact links.unique others.2
      have queue_eq := counted.queue.eq_nil none
      rw [queue_eq, List.drop_nil] at notified
      rw [EventCount.State.wakes, if_neg Bool.false_ne_true, queue_eq, split]
      exact notified

omit [DecidableEq Thread] in
/-- What `notify` will return is what the event count returns. -/
theorem Counted.result (counted : Counted system specification) {all : Bool} {pc : NotifyPc}
    (won : NotifyWon system.word all pc) {newstate : Word}
    (installs : NotifyWord system specification.stack all newstate) :
    pc = .returned (specification.wakes all).2 ∨
      pc.abstract = .done (specification.wakes all).2 ∧ pc.outcome = none := by
  have links := counted.stack.links
  cases won with
  | preWait some =>
      obtain ⟨first, rest, queue_eq⟩ :=
        List.exists_cons_of_length_pos
          (by rw [counted.queue.length_eq]; omega : 0 < specification.queue.length)
      left
      rw [EventCount.State.wakes, if_neg Bool.false_ne_true, queue_eq]
  | nobodyParked empty =>
      rw [empty] at links
      have nobody := links.eq_nil
      left
      rw [EventCount.State.wakes, nobody]
      cases all
      · cases specification.queue <;> rfl
      · rfl
  | everybody first =>
      rw [first] at links
      obtain ⟨rest, split, -⟩ := links.eq_cons
      right
      rw [EventCount.State.wakes, if_pos rfl, split]
      exact ⟨rfl, rfl⟩
  | pop none first =>
      rw [first] at links
      obtain ⟨rest, split, -⟩ := links.eq_cons
      right
      rw [EventCount.State.wakes, if_neg Bool.false_ne_true, counted.queue.eq_nil none, split]
      exact ⟨rfl, rfl⟩

/-- A successful compare-exchange of `notify`. -/
theorem Counted.notifyExchange (counted : Counted system specification) {thread : Thread}
    {all : Bool} {newstate : Word} {loadedAt : ℕ} {pc : NotifyPc}
    (invariant : Invariant size system) (size_lt : size < 65535)
    (at_exchange : system.notifying thread = .exchange all system.word newstate loadedAt)
    (bounded : system.epochs - loadedAt < 2 ^ 31) (won : NotifyWon system.word all pc) :
    ∃ next,
      (EventCount.system ℕ Thread).Steps specification
        (pc.outcome.toList.map (.notified thread)) next ∧
      Counted ((system.notifyEffect all system.word newstate).setNotifying thread pc) next := by
  have installs := invariant.notifyWord counted.stack at_exchange bounded
  have woken := counted.wakes installs invariant.tickets size_lt
  have called := @Counted.caller _ (system.notifyEffect all system.word newstate) _ _ _ woken
    .of_notifying thread pc rfl rfl
  have calling : specification.calls thread = .calling all := counted.call_eq at_exchange
  rcases counted.result won installs with rfl | ⟨done, silent⟩
  · exact ⟨_, EventCount.steps_effect_finish calling, called⟩
  · rw [done] at called
    rw [silent]
    exact ⟨_, EventCount.steps_effect calling, called⟩

end Effects

/-! ## The simulation -/

section Simulation

variable [DecidableEq Thread] {size : ℕ} {system target : State Thread}
  {specification : EventCount.State ℕ Thread}

/-- A waiter that need not sleep returns. -/
theorem Counted.leave (counted : Counted system specification) {index : ℕ}
    (unserved : Unserved system target)
    (waiting_eq : target.waiting = Function.update system.waiting index .idle)
    (notifying_eq : target.notifying = system.notifying)
    (unqueued : index ∉ specification.queue) (awake : system.waiting index ≠ .parked false)
    (inside : (system.waiting index).abstract = .committing ∨
      (system.waiting index).abstract = .cancelling ∨
      (system.waiting index).abstract = .asleep) :
    ∃ next, (EventCount.system ℕ Thread).Steps specification [.left index] next ∧
      Counted target next := by
  have unstacked : index ∉ specification.stack := by
    rwa [counted.stack.members]
  rw [← counted.phase_eq rfl] at inside
  exact ⟨_, EventCount.steps_leave unqueued unstacked inside,
    counted.waiter unserved waiting_eq notifying_eq fun member => absurd member unqueued⟩

/-- A waiter reads the word again. -/
theorem Counted.retest (counted : Counted system specification)
    (tickets : TicketInvariant size system) (size_lt : size < 65535) {index : ℕ}
    {pc : WaiterPc}
    (tested : Retest (system.waiting index) (system.waiters index) system.word pc) :
    ∃ next,
      (EventCount.system ℕ Thread).Steps specification
        (if pc = .idle then [.left index] else []) next ∧
      Counted (system.setWaiting index pc) next := by
  have waiting := tested.preWait
  have unserved : Unserved system (system.setWaiting index pc) :=
    ⟨.retest tested, rfl, rfl, rfl⟩
  have awake : system.waiting index ≠ .parked false := by
    intro parked
    rw [parked] at waiting
    cases waiting
  have returns (passed : 0 < epochDistance system.word (system.waiters index).epoch) :
      index ∉ specification.queue := by
    intro member
    have called := tickets.called_of_passed size_lt waiting passed
    have ahead := ((counted.queue.mem_iff tickets).mp member).2
    omega
  have stays (abstract_eq : pc.abstract = (system.waiting index).abstract)
      (preWait_eq : pc.preWait = true) :
      Counted (system.setWaiting index pc) specification :=
    counted.stutter unserved rfl rfl (preWait_eq.trans waiting.symm) abstract_eq
  generalize place : system.waiting index = source at tested stays
  cases tested with
  | commitWaits inside =>
      refine ⟨specification, .done, stays ?_ rfl⟩
      rcases inside with rfl | ⟨state, rfl⟩ <;> rfl
  | commitLinks inside first =>
      refine ⟨specification, .done, stays ?_ rfl⟩
      rcases inside with rfl | ⟨state, rfl⟩ <;> rfl
  | commitReturns inside passed =>
      refine counted.leave unserved rfl rfl (returns passed) awake (.inl ?_)
      rcases inside with rfl | ⟨state, rfl⟩ <;> rw [place] <;> rfl
  | cancelWaits inside =>
      refine ⟨specification, .done, stays ?_ rfl⟩
      rcases inside with rfl | ⟨state, rfl⟩ <;> rfl
  | cancelTries inside first =>
      refine ⟨specification, .done, stays ?_ rfl⟩
      rcases inside with rfl | ⟨state, rfl⟩ <;> rfl
  | cancelReturns inside passed =>
      refine counted.leave unserved rfl rfl (returns passed) awake (.inr (.inl ?_))
      rcases inside with rfl | ⟨state, rfl⟩ <;> rw [place] <;> rfl

/-- A caller of `notify` reads the word. -/
theorem Counted.notifyLoad (counted : Counted system specification) {thread : Thread}
    {all : Bool} {pc : NotifyPc} (calling : specification.calls thread = .calling all)
    (tested : NotifyTest system.word system.epochs all pc) :
    ∃ next,
      (EventCount.system ℕ Thread).Steps specification
        (pc.outcome.toList.map (.notified thread)) next ∧
      Counted (system.setNotifying thread pc) next := by
  have called := @Counted.caller _ _ _ _ _ counted .of_notifying thread pc rfl rfl
  have stutters (abstract_eq : pc.abstract = .calling all) :
      Counted (system.setNotifying thread pc) specification := by
    have same : specification.setCall thread pc.abstract = specification := by
      rw [EventCount.State.setCall, abstract_eq, ← calling, Function.update_eq_self]
    rwa [same] at called
  cases tested with
  | nobody empty none =>
      have links := counted.stack.links
      rw [empty] at links
      have wakes_eq := EventCount.State.wakes_of_nobody (counted.queue.eq_nil none)
        links.eq_nil all
      have steps := EventCount.steps_effect_finish calling
      rw [wakes_eq] at steps
      exact ⟨_, steps, called⟩
  | everybody => exact ⟨specification, .done, stutters rfl⟩
  | preWait some => exact ⟨specification, .done, stutters rfl⟩
  | pop none nonempty => exact ⟨specification, .done, stutters rfl⟩

/-- What a waiter inside `commit_wait` or `cancel_wait` does is not seen until it returns. -/
theorem Counted.silent (counted : Counted system specification) {index : ℕ} {pc : WaiterPc}
    {spurious : Bool} (unserved : Unserved system target)
    (waiting_eq : target.waiting = Function.update system.waiting index pc)
    (notifying_eq : target.notifying = system.notifying) (busy : pc ≠ .idle)
    (preWait_eq : pc.preWait = (system.waiting index).preWait)
    (abstract_eq : pc.abstract = (system.waiting index).abstract) :
    ∃ next,
      (EventCount.system ℕ Thread).Steps specification
        ((observed Thread size).shows system (.waiter index spurious) target) next ∧
      Counted target next := by
  refine ⟨specification, ?_,
    counted.stutter unserved waiting_eq notifying_eq preWait_eq abstract_eq⟩
  simp only [observed, waiting_eq, Function.update_self, if_neg busy]
  exact .done

/-- What a thread inside `notify` does is not seen until it returns. -/
theorem Counted.unseen (counted : Counted system specification) {thread : Thread}
    {pc : NotifyPc} {spurious : Bool} (unserved : Unserved system target)
    (waiting_eq : target.waiting = system.waiting)
    (notifying_eq : target.notifying = Function.update system.notifying thread pc)
    (inside : pc.outcome = none) (abstract_eq : pc.abstract = (system.notifying thread).abstract) :
    ∃ next,
      (EventCount.system ℕ Thread).Steps specification
        ((observed Thread size).shows system (.notifier thread spurious) target) next ∧
      Counted target next := by
  refine ⟨specification, ?_,
    counted.caller_stutter unserved waiting_eq notifying_eq abstract_eq⟩
  simp only [observed, notifying_eq, Function.update_self, inside]
  exact .done

omit [DecidableEq Thread] in
/-- A prepared waiter calls `commit_wait` or `cancel_wait`. -/
theorem Counted.called (counted : Counted system specification) {index : ℕ} {pc : WaiterPc}
    (prepared : system.waiting index = .prepared) (preWait : pc.preWait = true)
    (unlinked : ∀ state, pc ≠ .commitExchange state) :
    Counted (system.setWaiting index pc) (specification.setPhase index pc.abstract) := by
  have after : pc ≠ .parked false := by
    rintro rfl
    cases preWait
  have before : system.waiting index ≠ .parked false := by
    rw [prepared]
    exact nofun
  exact counted.waiter (.of_waiting before after unlinked) rfl rfl fun _ => preWait

/-- A waiter that has been woken returns. -/
theorem Counted.wake (counted : Counted system specification)
    (invariant : Invariant size system) {index : ℕ} {popped : Bool}
    (parked : system.waiting index = .parked popped)
    (signaled : (system.waiters index).state = .kSignaled) :
    ∃ next, (EventCount.system ℕ Thread).Steps specification [.left index] next ∧
      Counted (system.setWaiting index .idle) next := by
  obtain ⟨claims, claimed⟩ := invariant.claims
  have awake : system.waiting index ≠ .parked false := by
    intro committed
    exact claimed.armed index (by rw [committed]; rfl) signaled
  have unqueued : index ∉ specification.queue := by
    intro member
    have waiting := counted.queue.inside index member
    rw [parked] at waiting
    cases waiting
  refine counted.leave (.of_waiting awake nofun nofun) rfl rfl unqueued awake ?_
  rw [parked]
  exact .inr (.inr rfl)

/-- A thread inside `_unpark` stores a signal. -/
theorem Counted.unparkSignal (counted : Counted system specification) {thread : Thread}
    {first index : ℕ} {following : Option ℕ}
    (at_signal : system.notifying thread = .unparkSignal first index following) :
    ∃ next,
      (EventCount.system ℕ Thread).Steps specification
        ((unparkNext first following).outcome.toList.map (.notified thread)) next ∧
      Counted
        ((system.setWaiter index
          { system.waiters index with state := .kSignaled }).setNotifying thread
            (unparkNext first following)) next := by
  have unserved : Unserved system
      ((system.setWaiter index
        { system.waiters index with state := .kSignaled }).setNotifying thread
          (unparkNext first following)) :=
    .of_write (.of_write rfl rfl rfl rfl (.inl rfl)) rfl rfl rfl rfl rfl
  have done : specification.calls thread = .done (some first) := counted.call_eq at_signal
  cases following with
  | none => exact ⟨_, EventCount.steps_finish done, counted.caller unserved rfl rfl⟩
  | some following =>
      refine ⟨specification, .done, counted.caller_stutter unserved rfl rfl ?_⟩
      rw [at_signal]
      rfl

/-- The steps of a waiter are answered. -/
theorem Step.counted_waiter {index : ℕ} {spurious : Bool}
    (step : Step size system (.waiter index spurious) target)
    (invariant : Invariant size system) (size_lt : size < 65535)
    (bounded : epochsBounded system (.waiter index spurious))
    (counted : Counted system specification) :
    ∃ next,
      (EventCount.system ℕ Thread).Steps specification
        ((observed Thread size).shows system (.waiter index spurious) target) next ∧
      Counted target next := by
  have tickets := invariant.tickets
  cases step with
  | reset at_reset =>
      have quiet : Quiet system
          ((system.setWaiter index
            { system.waiters index with state := .kNotSignaled }).setWaiting index
              .commitLoad) := by
        refine .of_waiter le_rfl rfl rfl rfl ?_ ?_ ?_ <;> simp [at_reset]
      refine counted.silent (.of_write quiet rfl rfl rfl rfl rfl) rfl rfl nofun ?_ ?_
      · rw [at_reset]
        rfl
      · rw [at_reset]
        rfl
  | @retest _ _ pc tested =>
      have retested := counted.retest tickets size_lt tested
      simpa only [observed, State.setWaiting_waiting, Function.update_self] using retested
  | @link _ _ state at_link =>
      have quiet : Quiet system
          ((system.setWaiter index
            { system.waiters index with next := stackTop state }).setWaiting index
              (.commitExchange state)) := by
        refine .of_waiter le_rfl rfl rfl rfl ?_ ?_ ?_ <;> simp [at_link]
      refine counted.silent (.of_write quiet rfl rfl rfl rfl rfl) rfl rfl nofun ?_ ?_
      · rw [at_link]
        rfl
      · rw [at_link]
        rfl
  | commit at_exchange =>
      obtain ⟨next, steps, follows⟩ := counted.commit tickets size_lt at_exchange
        (bounded (by rw [at_exchange]; rfl))
      refine ⟨next, ?_, follows⟩
      simpa only [observed, State.setWaiting_waiting, Function.update_self, reduceCtorEq,
        if_false] using steps
  | wake parked signaled =>
      have left := counted.wake invariant parked signaled
      simpa only [observed, State.setWaiting_waiting, Function.update_self, if_true] using left
  | @sleep _ _ popped parked unsignaled =>
      have stays : Function.update system.waiting index (.parked popped) = system.waiting := by
        rw [← parked, Function.update_eq_self]
      have quiet : Quiet system
          ((system.setWaiter index
            { system.waiters index with state := .kWaiting }).setWaiting index
              (.parked popped)) :=
        .of_write rfl rfl stays rfl (.inl rfl)
      refine counted.silent (.of_write quiet rfl rfl rfl rfl rfl) rfl rfl nofun ?_ ?_
      · rw [parked]
      · rw [parked]
  | cancel at_exchange =>
      have left := counted.cancel tickets at_exchange (bounded (by rw [at_exchange]; rfl))
      simpa only [observed, State.setWaiting_waiting, Function.update_self, if_true] using left

/-- The steps of a thread inside `notify` are answered. -/
theorem Step.counted_notifier {thread : Thread} {spurious : Bool}
    (step : Step size system (.notifier thread spurious) target)
    (invariant : Invariant size system) (size_lt : size < 65535)
    (bounded : epochsBounded system (.notifier thread spurious))
    (counted : Counted system specification) :
    ∃ next,
      (EventCount.system ℕ Thread).Steps specification
        ((observed Thread size).shows system (.notifier thread spurious) target) next ∧
      Counted target next := by
  cases step with
  | @notifyLoad _ _ all pc inside tested =>
      have calling : specification.calls thread = .calling all := by
        rcases inside with load | ⟨state, newstate, loadedAt, exchange⟩
        · exact counted.call_eq load
        · exact counted.call_eq exchange
      have loaded := counted.notifyLoad calling tested
      simpa only [observed, State.setNotifying_notifying, Function.update_self] using loaded
  | notifyLoadNext at_next =>
      exact counted.unseen .of_notifying rfl rfl rfl (by rw [at_next]; rfl)
  | @notifyExchange _ _ all newstate loadedAt pc at_exchange won =>
      have exchanged := counted.notifyExchange invariant size_lt at_exchange
        (bounded loadedAt (by rw [at_exchange]; rfl)) won
      simpa only [observed, State.setNotifying_notifying, Function.update_self] using exchanged
  | @unlink _ _ index at_unlink =>
      obtain ⟨claims, claimed⟩ := invariant.claims
      have popped := (claimed.unwoken_of_unlink at_unlink).1
      refine counted.unseen (.of_write ?_ rfl rfl rfl rfl rfl) rfl rfl rfl ?_
      · exact .of_write rfl rfl rfl rfl (.inr popped)
      · rw [at_unlink]
        rfl
  | unparkLoad at_load =>
      exact counted.unseen .of_notifying rfl rfl rfl (by rw [at_load]; rfl)
  | unparkSignal at_signal =>
      have signaled := counted.unparkSignal at_signal
      simpa only [observed, State.setNotifying_notifying, Function.update_self] using signaled

/-- Every step of the event count is answered. -/
theorem Step.counted {action : Action Thread} (step : Step size system action target)
    (invariant : Invariant size system) (size_lt : size < 65535)
    (bounded : epochsBounded system action) (counted : Counted system specification) :
    ∃ next,
      (EventCount.system ℕ Thread).Steps specification
        ((observed Thread size).shows system action target) next ∧
      Counted target next := by
  cases action with
  | prepareWait index =>
      cases step with
      | prepareWait index_lt idle =>
          have count_le := invariant.tickets.count_le
          have fields := fields_add_waiterInc (by omega : waiterField system.word < 65535)
          have outside : specification.phases index = .outside := counted.phase_eq idle
          have taken : (EventCount.system ℕ Thread).next specification (.prepare index) =
              some
                { specification.setPhase index .prepared with
                  queue := specification.queue ++ [index] } := by
            simp only [EventCount.system, EventCount.State.next, outside]
          exact ⟨_, .one taken,
            counted.prepareWait idle fields.2.1 (stackTop_of_stackField fields.2.2)⟩
  | commitWait index =>
      cases step with
      | commitWait prepared =>
          have ready : specification.phases index = .prepared := counted.phase_eq prepared
          have taken : (EventCount.system ℕ Thread).next specification (.commit index) =
              some (specification.setPhase index .committing) := by
            simp only [EventCount.system, EventCount.State.next, ready]
          have moved : Counted (system.setWaiting index .commitReset) _ :=
            counted.called prepared rfl fun _ same => by cases same
          exact ⟨_, .one taken, moved⟩
  | cancelWait index =>
      cases step with
      | cancelWait prepared =>
          have ready : specification.phases index = .prepared := counted.phase_eq prepared
          have taken : (EventCount.system ℕ Thread).next specification (.cancel index) =
              some (specification.setPhase index .cancelling) := by
            simp only [EventCount.system, EventCount.State.next, ready]
          have moved : Counted (system.setWaiting index .cancelLoad) _ :=
            counted.called prepared rfl fun _ same => by cases same
          exact ⟨_, .one taken, moved⟩
  | waiter index spurious => exact step.counted_waiter invariant size_lt bounded counted
  | notify thread all =>
      cases step with
      | notify outside =>
          have idle := counted.call_eq outside
          have taken : (EventCount.system ℕ Thread).next specification (.notify thread all) =
              some (specification.setCall thread (.calling all)) := by
            simp only [EventCount.system, EventCount.State.next, idle, NotifyPc.abstract]
          exact ⟨_, .one taken, counted.caller .of_notifying rfl rfl⟩
  | notifier thread spurious => exact step.counted_notifier invariant size_lt bounded counted

end Simulation

/-- The event count with its word and its links behaves like the atomic one. -/
def simulation (Thread : Type u) [DecidableEq Thread] {size : ℕ} (size_lt : size < 65535) :
    ObservedSystem.Simulation (observed Thread size) epochsBounded
      (EventCount.system ℕ Thread) where
  relation := Counted
  start := by
    rintro _ ⟨waiters, rfl⟩
    have empty : stackTop (initialWord size) = none := by
      rw [stackTop, (fields_initialWord size_lt).2.2, if_pos rfl]
    refine ⟨_, rfl, rfl, ⟨nofun, ?_⟩, ⟨empty, ?_, nofun⟩, rfl⟩
    · rw [State.initial, (fields_initialWord size_lt).2.1]
      rfl
    · intro index
      exact iff_of_false List.not_mem_nil nofun
  step := by
    intro source action target specification reachable bounded taken counted
    have invariant := invariant_of_reachable size_lt reachable
    exact (step_of_next taken).counted invariant size_lt bounded counted

/--
Within the epoch bounds, whatever the waiters and the notifying threads do in any order
of their atomic steps, the calls and their results are a history of the event count
whose operations take effect one at a time: the undecided waiters in the order of their
`prepare_wait` first, and then the sleeping ones, the last one first.
-/
theorem refines_eventCount (Thread : Type u) [DecidableEq Thread] (size : ℕ)
    (size_lt : size < 2 ^ 16 - 1) :
    (observed Thread size).Refines epochsBounded (EventCount.system ℕ Thread) :=
  (simulation Thread size_lt).refines

/-- The event count of two waiters and one notifying thread. -/
theorem refines_eventCount_two :
    (observed Unit 2).Refines epochsBounded (EventCount.system ℕ Unit) :=
  refines_eventCount Unit 2 (by decide)

end AsyncRuntime.WorkNotifier
