import AsyncRuntime.WorkNotifier.Stack

/-!
# Consistency of the packed state word

The invariants of the tickets, of the stack, of the pending wake-ups and of the
loop of `notify` depend on each other only at the two compare-exchanges that
move the stack, so one step is proved by cases: it is quiet, a commit, or a
successful exchange of `notify`.
-/

namespace AsyncRuntime.WorkNotifier

open AsyncRuntime.Foundation

universe u

variable {Thread : Type u}

/-- Everything the event count maintains. -/
structure Invariant (size : ℕ) (system : State Thread) : Prop where
  tickets : TicketInvariant size system
  stack : ∃ chain, StackInvariant system chain
  claims : ∃ claims, ClaimInvariant system claims
  loops : ∀ thread, LoopInvariant size system (system.notifying thread)

variable {size : ℕ} {system target : State Thread}

theorem stackTop_of_stackField {left right : Word}
    (same : stackField left = stackField right) :
    stackTop left = stackTop right := by
  unfold stackTop
  rw [same]

/-- A successful exchange of `notify` installs one of the three words. -/
theorem Invariant.notifyWord (invariant : Invariant size system)
    {chain : List ℕ} (stack : StackInvariant system chain) {thread : Thread}
    {all : Bool} {newstate : Word} {loadedAt : ℕ}
    (at_exchange :
      system.notifying thread = .exchange all system.word newstate loadedAt)
    (bounded : system.epochs - loadedAt < 2 ^ 31) :
    NotifyWord system chain all newstate := by
  have ready := invariant.loops thread
  rw [at_exchange] at ready
  exact ready.notifyWord invariant.tickets stack bounded

theorem Invariant.initial (size_lt : size < 65535) (waiters : ℕ → Waiter) :
    Invariant size (State.initial size waiters : State Thread) where
  tickets := .initial size_lt waiters
  stack := by
    have empty : stackTop (initialWord size) = none := by
      rw [stackTop, (fields_initialWord size_lt).2.2, if_pos rfl]
    refine ⟨[], empty, ?_, ?_⟩
    · simp [State.initial]
    · simp [State.initial]
  claims := ⟨_, .initial size waiters⟩
  loops := fun _ => trivial

/-! ## What the invariant says about the word -/

/-- The waiter prepared and has neither decided nor been notified. -/
def State.undecided (system : State Thread) (index : ℕ) : Prop :=
  (system.waiting index).preWait = true ∧ system.notified index = false

/-- The epoch both loops wait for. -/
def State.ticketEpoch (system : State Thread) (index : ℕ) : ℕ :=
  epochField (modificationEpoch (system.waiters index).epoch)

/-- The three fields of the state word agree with the waiters. -/
structure Consistent (size : ℕ) (system : State Thread) : Prop where
  /-- The pre-wait count does not exceed the number of waiters. -/
  count_le : waiterField system.word ≤ size
  /-- Each of the next epochs is the ticket of exactly one undecided waiter. -/
  held :
    ∀ offset, offset < waiterField system.word →
      ∃! index,
        system.undecided index ∧
          system.ticketEpoch index =
            (epochField system.word + offset) % 2 ^ 32
  /-- Undecided waiters hold no other tickets. -/
  consecutive :
    ∀ index, system.undecided index →
      ∃ offset, offset < waiterField system.word ∧
        system.ticketEpoch index = (epochField system.word + offset) % 2 ^ 32
  /-- The assertion of both loops, for a word that is still current. -/
  counted :
    ∀ index, (system.waiting index).tested = some system.word →
      system.epochs - system.preparedAt index < 2 ^ 31 →
      waiterField system.word ≠ 0
  /-- The links from the stack field run through the committed waiters. -/
  chain :
    ∃ nodes,
      LinksTo system.link (stackTop system.word) nodes ∧
        nodes.Nodup ∧
        (∀ index ∈ nodes, index < size) ∧
        ∀ index, index ∈ nodes ↔ system.waiting index = .parked false

theorem TicketInvariant.undecided_iff (tickets : TicketInvariant size system)
    {index : ℕ} :
    system.undecided index ↔
      (system.waiting index).preWait = true ∧
        system.epochs ≤ system.ticket index := by
  unfold State.undecided
  constructor
  · rintro ⟨waiting, unmarked⟩
    refine ⟨waiting, ?_⟩
    by_contra called
    have marked := (tickets.marked index waiting).mpr (by omega)
    simp [marked] at unmarked
  · rintro ⟨waiting, ahead⟩
    refine ⟨waiting, ?_⟩
    by_contra marked
    have called :=
      (tickets.marked index waiting).mp (by simpa using marked)
    omega

theorem TicketInvariant.ticketEpoch_eq (tickets : TicketInvariant size system)
    {index : ℕ} (waiting : (system.waiting index).preWait = true) :
    system.ticketEpoch index =
      (initialEpoch size + system.ticket index) % 2 ^ 32 := by
  rw [State.ticketEpoch, epochField_modificationEpoch,
    tickets.ticket_mod waiting]

theorem Invariant.consistent (invariant : Invariant size system)
    (size_lt : size < 65535) : Consistent size system := by
  have tickets := invariant.tickets
  have count_le := tickets.count_le
  have epoch_eq := tickets.epoch
  constructor
  case count_le => exact count_le
  case held =>
    intro offset offset_lt
    rcases tickets.line.existsUnique (Nat.le_add_right system.epochs offset)
      (by omega) with ⟨holder, ⟨waiting, number⟩, unique⟩
    refine ⟨holder, ⟨tickets.undecided_iff.mpr ⟨waiting, by omega⟩, ?_⟩, ?_⟩
    · rw [tickets.ticketEpoch_eq waiting]
      omega
    · rintro other ⟨undecided, same⟩
      rcases tickets.undecided_iff.mp undecided with ⟨otherWaiting, ahead⟩
      have issued := tickets.line.issued other otherWaiting
      rw [tickets.ticketEpoch_eq otherWaiting] at same
      -- both numbers lie in a window far shorter than the wrap-around
      exact unique other ⟨otherWaiting, by omega⟩
  case consecutive =>
    intro index undecided
    rcases tickets.undecided_iff.mp undecided with ⟨waiting, ahead⟩
    have issued := tickets.line.issued index waiting
    refine ⟨system.ticket index - system.epochs, by omega, ?_⟩
    rw [tickets.ticketEpoch_eq waiting]
    omega
  case counted =>
    intro index tested bounded
    have waiting : (system.waiting index).preWait = true := by
      cases place : system.waiting index <;>
        simp [place, WaiterPc.tested, WaiterPc.preWait] at tested ⊢
    exact
      tickets.waiters_ne_zero waiting
        (tickets.ticket_eq waiting tested bounded)
  case chain =>
    rcases invariant.stack with ⟨chain, stack⟩
    refine ⟨chain, stack.links, stack.links.nodup, ?_, stack.members⟩
    intro index member
    rw [stack.members] at member
    exact tickets.index_lt (by simp [member])

variable [DecidableEq Thread]

/-- The steps that move the stack, and the rest. -/
inductive Move (system : State Thread) : State Thread → Prop where
  | quiet {target : State Thread} (quiet : Quiet system target) :
      Move system target
  | push {index : ℕ} {word : Word}
      (at_exchange : system.waiting index = .commitExchange system.word)
      (top_eq : stackTop word = some index) :
      Move system ((system.serve word).setWaiting index (.parked false))
  | exchange {thread : Thread} {all : Bool} {newstate : Word} {loadedAt : ℕ}
      {pc : NotifyPc}
      (at_exchange :
        system.notifying thread = .exchange all system.word newstate loadedAt)
      (won : NotifyWon system.word all pc)
      (bounded : system.epochs - loadedAt < 2 ^ 31) :
      Move system
        ((system.notifyEffect all system.word newstate).setNotifying thread pc)

theorem Quiet.of_notifying {thread : Thread} {pc : NotifyPc} :
    Quiet system (system.setNotifying thread pc) where
  epochs_le := le_rfl
  top_eq := rfl
  parked_iff := fun _ => Iff.rfl
  link_eq := fun _ _ => rfl
  linked := fun _ _ linking => .inr ⟨linking, rfl⟩

theorem Step.move {action : Action Thread}
    (step : Step size system action target) (invariant : Invariant size system)
    (size_lt : size < 65535) (bounded : epochsBounded system action) :
    Move system target := by
  rcases invariant.claims with ⟨claims, claimed⟩
  cases step with
  | prepareWait index_lt idle =>
      have count_le := invariant.tickets.count_le
      have room : waiterField system.word < 65535 := by omega
      have top_eq := stackTop_of_stackField (fields_add_waiterInc room).2.2
      exact .quiet (.prepareWait top_eq idle)
  | commitWait prepared =>
      refine .quiet (.of_waiting le_rfl rfl rfl rfl ?_ ?_ ?_) <;> simp [prepared]
  | cancelWait prepared =>
      refine .quiet (.of_waiting le_rfl rfl rfl rfl ?_ ?_ ?_) <;> simp [prepared]
  | reset at_reset =>
      refine .quiet (.of_waiter le_rfl rfl rfl rfl ?_ ?_ ?_) <;> simp [at_reset]
  | retest tested => exact .quiet (.retest tested)
  | link at_link =>
      refine .quiet (.of_waiter le_rfl rfl rfl rfl ?_ ?_ ?_) <;> simp [at_link]
  | @commit index _ at_exchange =>
      have index_lt : index < size :=
        invariant.tickets.index_lt (by simp [at_exchange])
      have pushed :=
        fields_withStack (leavePreWait system.word)
          (by omega : index < 65536)
      have top_eq :
          stackTop (withStack (leavePreWait system.word) index) = some index := by
        rw [stackTop, pushed.2.2, if_neg (by omega)]
      exact .push at_exchange top_eq
  | @wake index _ wasPopped parked signaled =>
      refine .quiet (.of_waiting le_rfl rfl rfl rfl ?_ ?_ ?_)
      · intro committed
        exact
          claimed.armed index (by simp [committed, WaiterPc.armed]) signaled
      · simp
      · simp
  | @sleep index _ wasPopped parked unsignaled =>
      have stays :
          Function.update system.waiting index (.parked wasPopped) =
            system.waiting := by
        rw [← parked, Function.update_eq_self]
      exact .quiet (.of_write rfl rfl stays rfl (.inl rfl))
  | @cancel index _ at_exchange =>
      have bounded := bounded (by simp [at_exchange, WaiterPc.decides])
      have waiting : (system.waiting index).preWait = true := by
        simp [at_exchange, WaiterPc.preWait]
      have first :=
        invariant.tickets.ticket_eq waiting
          (by simp [at_exchange, WaiterPc.tested]) bounded
      have nonempty := invariant.tickets.waiters_ne_zero waiting first
      have top_eq := stackTop_of_stackField (fields_leavePreWait nonempty).2.2
      exact .quiet (.cancel top_eq at_exchange)
  | notify _ => exact .quiet .of_notifying
  | notifyLoad _ _ => exact .quiet .of_notifying
  | notifyLoadNext _ => exact .quiet .of_notifying
  | @notifyExchange thread spurious all newstate loadedAt pc at_exchange won =>
      have bounded := bounded loadedAt (by simp [at_exchange, NotifyPc.loadedAt])
      exact .exchange at_exchange won bounded
  | unlink at_unlink =>
      have popped := (claimed.unwoken_of_unlink at_unlink).1
      exact .quiet (.of_write rfl rfl rfl rfl (.inr popped))
  | unparkLoad _ => exact .quiet .of_notifying
  | unparkSignal _ => exact .quiet (.of_write rfl rfl rfl rfl (.inl rfl))

/-! ## One step -/

theorem Move.stack (move : Move system target)
    (invariant : Invariant size system) (size_lt : size < 65535) :
    ∃ chain, StackInvariant target chain := by
  rcases invariant.stack with ⟨chain, stack⟩
  cases move with
  | quiet quiet => exact ⟨chain, stack.quiet quiet⟩
  | push at_exchange top_eq => exact ⟨_, stack.commit at_exchange top_eq⟩
  | exchange at_exchange won bounded =>
      have installs := invariant.notifyWord stack at_exchange bounded
      rcases installs.stack invariant.tickets stack size_lt with ⟨rest, left⟩
      exact ⟨rest, left.quiet .of_notifying⟩

theorem Move.loop (move : Move system target)
    (invariant : Invariant size system) {pc : NotifyPc}
    (ready : LoopInvariant size system pc) : LoopInvariant size target pc := by
  cases move with
  | quiet quiet => exact ready.quiet quiet
  | push at_exchange top_eq =>
      apply ready.mono (Nat.le_succ _)
      intro unchanged
      simp at unchanged
  | exchange at_exchange won bounded =>
      rcases invariant.stack with ⟨chain, stack⟩
      have installs := invariant.notifyWord stack at_exchange bounded
      exact (ready.notifyExchange installs).quiet .of_notifying

/-- The thread that moves knows what it has just read. -/
theorem Step.loop {action : Action Thread}
    (step : Step size system action target) (invariant : Invariant size system)
    (thread : Thread) : LoopInvariant size system (target.notifying thread) := by
  have others {moving : Thread} {pc : NotifyPc}
      (ready : LoopInvariant size system pc) :
      LoopInvariant size system
        (Function.update system.notifying moving pc thread) := by
    by_cases same : thread = moving
    · subst same
      rw [Function.update_self]
      exact ready
    · rw [Function.update_of_ne same]
      exact invariant.loops thread
  cases step with
  | notify _ => exact others trivial
  | notifyLoad _ tested => exact others (.load invariant.tickets tested)
  | @notifyLoadNext moving _ state loadedAt at_next =>
      have ready := invariant.loops moving
      rw [at_next] at ready
      exact others ready.loadNext
  | notifyExchange _ won => cases won <;> exact others trivial
  | unlink _ => exact others trivial
  | unparkLoad _ => exact others trivial
  | @unparkSignal _ _ _ _ following _ => cases following <;> exact others trivial
  | _ => exact invariant.loops thread

theorem Invariant.step (invariant : Invariant size system)
    (size_lt : size < 65535) {action : Action Thread}
    (bounded : epochsBounded system action)
    (taken : next size system action = some target) :
    Invariant size target := by
  have step := step_of_next taken
  have move := step.move invariant size_lt bounded
  rcases invariant.stack with ⟨chain, stack⟩
  rcases invariant.claims with ⟨claims, claimed⟩
  constructor
  case tickets =>
    apply invariant.tickets.step size_lt step bounded
    rintro thread spurious all newstate loadedAt rfl at_exchange
    have bounded := bounded loadedAt (by simp [at_exchange, NotifyPc.loadedAt])
    have installs := invariant.notifyWord stack at_exchange bounded
    exact installs.serves invariant.tickets stack size_lt
  case stack => exact move.stack invariant size_lt
  case claims =>
    apply claimed.step step
    intro thread spurious all newstate loadedAt pc _ _ won
    exact stack.popped won
  case loops =>
    intro thread
    exact move.loop invariant (step.loop invariant thread)

/-- The invariant of every run in which epochs stay close. -/
theorem invariant_of_reachable (size_lt : size < 65535)
    (reachable :
      (WorkNotifier.system Thread size).ReachableUnder epochsBounded system) :
    Invariant size system := by
  refine reachable.invariant ?_ ?_
  · rintro state ⟨waiters, rfl⟩
    exact .initial size_lt waiters
  · intro source action target _ bounded taken invariant
    exact invariant.step size_lt bounded taken

/--
In every state of every run with fewer than `2 ^ 31` epochs between a
`prepare_wait` and its decision, and between a load and its compare-exchange,
the state word is consistent with the waiters.
-/
theorem reachable_consistent {size : ℕ} {state : State Thread}
    (size_lt : size < 2 ^ 16 - 1)
    (reachable :
      (WorkNotifier.system Thread size).ReachableUnder epochsBounded state) :
    Consistent size state :=
  (invariant_of_reachable size_lt reachable).consistent size_lt

/-- Two waiters prepare, one commits, and a notify releases the other. -/
theorem reachable_consistent_releasedAndParked :
    ∃ state : State Unit,
      (WorkNotifier.system Unit 2).ReachableUnder epochsBounded state ∧
        state.waiting 0 = .parked false ∧ state.notified 1 = true ∧
        Consistent 2 state := by
  rcases TransitionSystem.exists_reachableUnder_of_run
      (WorkNotifier.system Unit 2) epochsBounded
      ⟨fun _ => ⟨none, 0, .kNotSignaled⟩, rfl⟩
      [.prepareWait 0, .prepareWait 1, .commitWait 0, .waiter 0 false,
        .waiter 0 false, .waiter 0 false, .waiter 0 false,
        .notify () false, .notifier () false, .notifier () false]
      (fun state =>
        decide (state.waiting 0 = .parked false) && state.notified 1)
      (by decide +kernel) with ⟨state, reachable, facts⟩
  rw [Bool.and_eq_true, decide_eq_true_eq] at facts
  exact
    ⟨state, reachable, facts.1, facts.2,
      reachable_consistent (by decide) reachable⟩

end AsyncRuntime.WorkNotifier
