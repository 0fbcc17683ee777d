import AsyncRuntime.WorkNotifier.Tickets
import AsyncRuntime.WorkNotifier.Wakeup

/-!
# The stack of committed waiters

The stack field and the links form a chain of the waiters that committed and
were not popped.  A `notify` that pops reads the link of the top before its
compare-exchange, without a tag on the pointer.  The epoch is the tag: a waiter
comes back onto the stack only by a commit, which increments the epoch, and
with the epoch unchanged a waiter that is still on the stack is still its top.
-/

namespace AsyncRuntime.WorkNotifier

open AsyncRuntime.Foundation

universe u

variable {Thread : Type u}

/-- The chain from the stack field through the links. -/
structure StackInvariant (system : State Thread) (chain : List ℕ) : Prop where
  links : LinksTo system.link (stackTop system.word) chain
  members : ∀ index, index ∈ chain ↔ system.waiting index = .parked false
  linked :
    ∀ index state, system.waiting index = .commitExchange state →
      system.link index = stackTop state

/-- `top` is unchanged at the top of the stack as long as the epoch is. -/
def State.stillTop (system : State Thread) (loadedAt top : ℕ)
    (linked : ℕ → Prop) : Prop :=
  system.epochs = loadedAt → system.waiting top = .parked false →
    stackTop system.word = some top ∧ linked top

/-- What a thread in the loop of `notify` knows of the word it loaded. -/
def LoopInvariant (size : ℕ) (system : State Thread) : NotifyPc → Prop
  | .loadNext state loadedAt =>
      loadedAt ≤ system.epochs ∧
        epochField state = (initialEpoch size + loadedAt) % 2 ^ 32 ∧
        waiterField state = 0 ∧
        ∃ top,
          stackTop state = some top ∧
            system.stillTop loadedAt top fun _ => True
  | .exchange true state newstate _ => newstate = releaseAll state
  | .exchange false state newstate loadedAt =>
      loadedAt ≤ system.epochs ∧
        epochField state = (initialEpoch size + loadedAt) % 2 ^ 32 ∧
        ((waiterField state ≠ 0 ∧ newstate = leavePreWait state) ∨
          (waiterField state = 0 ∧
            ∃ top following,
              stackTop state = some top ∧
                newstate = popStack state following ∧
                system.stillTop loadedAt top fun index =>
                  system.link index = following))
  | _ => True

variable {size : ℕ} {system target : State Thread} {chain : List ℕ}

/-- The links of the chain stay inside it. -/
theorem StackInvariant.link_lt (stack : StackInvariant system chain)
    (tickets : TicketInvariant size system) (size_lt : size < 65535) {top : ℕ}
    (member : top ∈ chain) :
    ∀ index, system.link top = some index → index < 65535 := by
  intro index linked
  rcases stack.links.suffix member with ⟨before, after, split, tail⟩
  rw [linked] at tail
  rcases tail.eq_cons with ⟨rest, rfl, -⟩
  have parked : system.waiting index = .parked false := by
    rw [← stack.members, split]
    simp
  have index_lt := tickets.index_lt (by simp [parked] : system.waiting index ≠ .idle)
  omega

/-! ## What the compare-exchange of `notify` installs -/

/-- The three words `notify` can install, with the chain that is left. -/
inductive NotifyWord (system : State Thread) (chain : List ℕ) :
    Bool → Word → Prop where
  | everybody : NotifyWord system chain true (releaseAll system.word)
  | preWait (some : waiterField system.word ≠ 0) :
      NotifyWord system chain false (leavePreWait system.word)
  | pop {top : ℕ} {rest : List ℕ} (none : waiterField system.word = 0)
      (split : chain = top :: rest) :
      NotifyWord system chain false (popStack system.word (system.link top))

/-- At a successful compare-exchange the loaded link is still the current one. -/
theorem LoopInvariant.notifyWord {all : Bool} {newstate : Word} {loadedAt : ℕ}
    (ready :
      LoopInvariant size system (.exchange all system.word newstate loadedAt))
    (tickets : TicketInvariant size system)
    (stack : StackInvariant system chain)
    (bounded : system.epochs - loadedAt < 2 ^ 31) :
    NotifyWord system chain all newstate := by
  cases all with
  | true =>
      have ready : newstate = releaseAll system.word := ready
      rw [ready]
      exact .everybody
  | false =>
      rcases ready with ⟨loaded_le, epoch_eq, preWait | pop⟩
      · rw [preWait.2]
        exact .preWait preWait.1
      · rcases pop with ⟨nobody, top, following, first, rfl, still⟩
        have unchanged : system.epochs = loadedAt := by
          have current := tickets.epoch
          omega
        have links := stack.links
        rw [first] at links
        rcases links.eq_cons with ⟨rest, split, -⟩
        have parked : system.waiting top = .parked false := by
          rw [← stack.members, split]
          exact List.mem_cons_self
        rw [← (still unchanged parked).2]
        exact .pop nobody split

/-- The effect of the three words on the counters. -/
theorem NotifyWord.serves {all : Bool} {newstate : Word}
    (installs : NotifyWord system chain all newstate)
    (tickets : TicketInvariant size system)
    (stack : StackInvariant system chain) (size_lt : size < 65535) :
    Serves all system.word newstate := by
  cases installs with
  | everybody =>
      rcases fields_releaseAll system.word with ⟨epoch_eq, waiter_eq, -⟩
      constructor
      · simpa [notifyIncrements] using epoch_eq
      · simp [notifyIncrements, waiter_eq]
  | preWait some =>
      rcases fields_leavePreWait some with ⟨epoch_eq, waiter_eq, -⟩
      constructor
      · simpa [notifyIncrements, some] using epoch_eq
      · simpa [notifyIncrements, some] using waiter_eq
  | @pop top rest none split =>
      rcases fields_popStack system.word
        (stack.link_lt tickets size_lt (by simp [split] : top ∈ chain)) with
        ⟨epoch_eq, waiter_eq, -⟩
      have epoch_lt := epochField_lt system.word
      constructor
      · simp only [notifyIncrements, none]
        simp only [Bool.false_eq_true, if_false, ne_eq, not_true_eq_false,
          Nat.add_zero]
        omega
      · simp [notifyIncrements, none, waiter_eq]

/-- The waiters a successful compare-exchange pops are what is claimed next. -/
theorem StackInvariant.popped (stack : StackInvariant system chain)
    {all : Bool} {pc : NotifyPc} (won : NotifyWon system.word all pc) :
    ∃ nodes,
      Claimed system.link pc nodes ∧
        ∀ index, index ∈ nodes ↔
          system.waiting index = .parked false ∧
            poppedBy all system.word index = true := by
  cases won with
  | preWait some =>
      exact ⟨[], rfl, fun index => by simp [poppedBy, some]⟩
  | nobodyParked empty =>
      have links := stack.links
      rw [empty] at links
      refine ⟨[], rfl, fun index => ?_⟩
      rw [← stack.members, links.eq_nil]
      simp
  | @everybody top first =>
      have links := stack.links
      rw [first] at links
      refine ⟨chain, links, fun index => ?_⟩
      rw [stack.members]
      simp [poppedBy]
  | @pop top none first =>
      have links := stack.links
      rw [first] at links
      rcases links.eq_cons with ⟨rest, split, -⟩
      refine ⟨[top], rfl, fun index => ?_⟩
      rw [← stack.members, split, List.mem_singleton, List.mem_cons]
      simp only [poppedBy, none, first, decide_true, Bool.false_or,
        Bool.true_and, decide_eq_true_eq, Option.some.injEq]
      constructor
      · rintro rfl
        exact ⟨.inl rfl, rfl⟩
      · rintro ⟨-, rfl⟩
        rfl

theorem waiting_notifyEffect_eq_parked_iff {all : Bool} {state newstate : Word}
    {index : ℕ} :
    (system.notifyEffect all state newstate).waiting index = .parked false ↔
      system.waiting index = .parked false ∧
        poppedBy all state index = false := by
  cases place : system.waiting index with
  | parked wasPopped => cases wasPopped <;> simp [place]
  | _ => simp [place]

theorem waiting_notifyEffect_eq_commitExchange_iff {all : Bool}
    {state newstate loaded : Word} {index : ℕ} :
    (system.notifyEffect all state newstate).waiting index =
        .commitExchange loaded ↔
      system.waiting index = .commitExchange loaded := by
  cases place : system.waiting index with
  | parked wasPopped => cases wasPopped <;> simp [place]
  | _ => simp [place]

/-- A successful compare-exchange of `notify` cuts the popped waiters off. -/
theorem StackInvariant.notifyExchange (stack : StackInvariant system chain)
    {all : Bool} {newstate : Word} {rest : List ℕ}
    (links : LinksTo system.link (stackTop newstate) rest)
    (kept :
      ∀ index, index ∈ rest ↔
        index ∈ chain ∧ poppedBy all system.word index = false) :
    StackInvariant (system.notifyEffect all system.word newstate) rest where
  links := links
  members := by
    intro index
    rw [kept, stack.members, waiting_notifyEffect_eq_parked_iff]
  linked := by
    intro index state linking
    rw [waiting_notifyEffect_eq_commitExchange_iff] at linking
    exact stack.linked index state linking

theorem NotifyWord.stack {all : Bool} {newstate : Word}
    (installs : NotifyWord system chain all newstate)
    (tickets : TicketInvariant size system)
    (stack : StackInvariant system chain) (size_lt : size < 65535) :
    ∃ rest,
      StackInvariant (system.notifyEffect all system.word newstate) rest := by
  cases installs with
  | everybody =>
      refine ⟨[], stack.notifyExchange (fields_releaseAll system.word).2.2 ?_⟩
      simp [poppedBy]
  | preWait some =>
      refine ⟨chain, stack.notifyExchange ?_ ?_⟩
      · rw [stackTop, (fields_leavePreWait some).2.2]
        exact stack.links
      · simp [poppedBy, some]
  | @pop top rest none split =>
      have member : top ∈ chain := by simp [split]
      have nodup := stack.links.nodup
      have links := stack.links
      rw [split] at links
      rw [split, List.nodup_cons] at nodup
      refine ⟨rest, stack.notifyExchange ?_ ?_⟩
      · rw [(fields_popStack system.word
          (stack.link_lt tickets size_lt member)).2.2]
        exact links.2
      · intro index
        simp only [split, List.mem_cons, poppedBy, none, links.1,
          decide_true, Bool.false_or, Bool.true_and, decide_eq_false_iff_not,
          Option.some.injEq]
        constructor
        · intro inside
          refine ⟨.inr inside, ?_⟩
          rintro rfl
          exact nodup.1 inside
        · rintro ⟨rfl | inside, different⟩
          · exact absurd rfl different
          · exact inside

/-! ## Quiet steps -/

/-- A step that neither pushes nor pops. -/
structure Quiet (system target : State Thread) : Prop where
  epochs_le : system.epochs ≤ target.epochs
  top_eq : stackTop target.word = stackTop system.word
  parked_iff :
    ∀ index, target.waiting index = .parked false ↔
      system.waiting index = .parked false
  link_eq :
    ∀ index, system.waiting index = .parked false →
      target.link index = system.link index
  linked :
    ∀ index state, target.waiting index = .commitExchange state →
      target.link index = stackTop state ∨
        (system.waiting index = .commitExchange state ∧
          target.link index = system.link index)

/-- A waiter off the stack moves to a place off the stack. -/
theorem Quiet.of_waiter {index : ℕ} {waiter : Waiter} {pc : WaiterPc}
    (epochs_le : system.epochs ≤ target.epochs)
    (top_eq : stackTop target.word = stackTop system.word)
    (waiters_eq : target.waiters = Function.update system.waiters index waiter)
    (waiting_eq : target.waiting = Function.update system.waiting index pc)
    (before : system.waiting index ≠ .parked false) (after : pc ≠ .parked false)
    (linked :
      ∀ state, pc = .commitExchange state → waiter.next = stackTop state) :
    Quiet system target := by
  refine ⟨epochs_le, top_eq, ?_, ?_, ?_⟩
  · intro other
    by_cases same : other = index
    · subst same
      simp [waiting_eq, before, after]
    · simp [waiting_eq, same]
  · intro other parked
    have different : other ≠ index := by
      rintro rfl
      exact before parked
    simp [State.link, waiters_eq, different]
  · intro other state linking
    by_cases same : other = index
    · subst same
      simp only [waiting_eq, Function.update_self] at linking
      left
      simpa [State.link, waiters_eq] using linked state linking
    · simp only [waiting_eq, ne_eq, same, not_false_eq_true,
        Function.update_of_ne] at linking
      right
      exact ⟨linking, by simp [State.link, waiters_eq, same]⟩

/-- A waiter off the stack moves and writes nothing. -/
theorem Quiet.of_waiting {index : ℕ} {pc : WaiterPc}
    (epochs_le : system.epochs ≤ target.epochs)
    (top_eq : stackTop target.word = stackTop system.word)
    (waiters_eq : target.waiters = system.waiters)
    (waiting_eq : target.waiting = Function.update system.waiting index pc)
    (before : system.waiting index ≠ .parked false) (after : pc ≠ .parked false)
    (unlinked : ∀ state, pc ≠ .commitExchange state) :
    Quiet system target := by
  have unwritten :
      target.waiters =
        Function.update system.waiters index (system.waiters index) := by
    rw [waiters_eq, Function.update_eq_self]
  apply Quiet.of_waiter epochs_le top_eq unwritten waiting_eq before after
  exact fun state linking => absurd linking (unlinked state)

/-- Only the fields of one waiter are written, and no link of the stack. -/
theorem Quiet.of_write {index : ℕ} {waiter : Waiter}
    (epochs_eq : target.epochs = system.epochs)
    (word_eq : target.word = system.word)
    (waiting_eq : target.waiting = system.waiting)
    (waiters_eq : target.waiters = Function.update system.waiters index waiter)
    (next_eq :
      waiter.next = system.link index ∨ system.waiting index = .parked true) :
    Quiet system target := by
  have link_eq (other : ℕ) (elsewhere : system.waiting other ≠ .parked true) :
      target.link other = system.link other := by
    by_cases same : other = index
    · subst same
      simpa [State.link, waiters_eq] using next_eq.resolve_right elsewhere
    · simp [State.link, waiters_eq, same]
  refine ⟨epochs_eq.ge, by rw [word_eq], ?_, ?_, ?_⟩
  · intro other
    rw [waiting_eq]
  · intro other parked
    exact link_eq other (by simp [parked])
  · intro other state linking
    rw [waiting_eq] at linking
    exact .inr ⟨linking, link_eq other (by simp [linking])⟩

theorem Quiet.prepareWait {index : ℕ} {word : Word}
    (top_eq : stackTop word = stackTop system.word)
    (idle : system.waiting index = .idle) :
    Quiet system (system.prepare index word) := by
  refine Quiet.of_waiter le_rfl top_eq rfl rfl ?_ ?_ ?_ <;> simp [idle]

theorem Quiet.cancel {index : ℕ} {word state : Word}
    (top_eq : stackTop word = stackTop system.word)
    (at_exchange : system.waiting index = .cancelExchange state) :
    Quiet system ((system.serve word).setWaiting index .idle) := by
  refine Quiet.of_waiting (Nat.le_succ _) top_eq rfl rfl ?_ ?_ ?_ <;>
    simp [at_exchange]

theorem Quiet.retest {index : ℕ} {pc : WaiterPc}
    (tested :
      Retest (system.waiting index) (system.waiters index) system.word pc) :
    Quiet system (system.setWaiting index pc) := by
  have inside := tested.preWait
  refine Quiet.of_waiting le_rfl rfl rfl rfl ?_ ?_ ?_
  · intro parked
    simp [parked, WaiterPc.preWait] at inside
  · rintro rfl
    cases tested
  · rintro state rfl
    cases tested

theorem StackInvariant.quiet (stack : StackInvariant system chain)
    (quiet : Quiet system target) : StackInvariant target chain where
  links := by
    rw [quiet.top_eq]
    apply stack.links.congr
    intro index member
    exact quiet.link_eq index ((stack.members index).mp member)
  members := by
    intro index
    rw [quiet.parked_iff, stack.members]
  linked := by
    intro index state linking
    rcases quiet.linked index state linking with linked | ⟨before, link_eq⟩
    · exact linked
    · rw [link_eq]
      exact stack.linked index state before

/-! ## Pushing -/

/-- A commit pushes the waiter. -/
theorem StackInvariant.commit (stack : StackInvariant system chain)
    {index : ℕ} {word : Word}
    (at_exchange : system.waiting index = .commitExchange system.word)
    (top_eq : stackTop word = some index) :
    StackInvariant ((system.serve word).setWaiting index (.parked false))
      (index :: chain) where
  links := by
    refine ⟨top_eq, ?_⟩
    show LinksTo system.link (system.link index) chain
    rw [stack.linked index system.word at_exchange]
    exact stack.links
  members := by
    intro other
    by_cases same : other = index
    · simp [same]
    · simp [same, stack.members]
  linked := by
    intro other state linking
    by_cases same : other = index
    · simp [same] at linking
    · simp only [State.setWaiting_waiting, State.serve_waiting, ne_eq, same,
        not_false_eq_true, Function.update_of_ne] at linking
      exact stack.linked other state linking

/-! ## The loop of `notify` -/

/--
The knowledge of a thread in the loop survives every step of the others: unless
the epoch moves, waiters only leave the stack, from its top.
-/
theorem LoopInvariant.mono {pc : NotifyPc}
    (ready : LoopInvariant size system pc)
    (epochs_le : system.epochs ≤ target.epochs)
    (steady :
      target.epochs = system.epochs →
        ∀ top, target.waiting top = .parked false →
          system.waiting top = .parked false ∧
            (stackTop system.word = some top →
              stackTop target.word = some top) ∧
            target.link top = system.link top) :
    LoopInvariant size target pc := by
  have still {loadedAt top : ℕ} {before after : ℕ → Prop}
      (loaded_le : loadedAt ≤ system.epochs)
      (known : system.stillTop loadedAt top before)
      (carry :
        target.link top = system.link top → before top → after top) :
      target.stillTop loadedAt top after := by
    intro unchanged parked
    rcases steady (by omega) top parked with ⟨wasParked, top_kept, link_eq⟩
    rcases known (by omega) wasParked with ⟨first, linked⟩
    exact ⟨top_kept first, carry link_eq linked⟩
  cases pc with
  | loadNext state loadedAt =>
      rcases ready with ⟨loaded_le, epoch_eq, nobody, top, first, known⟩
      exact
        ⟨loaded_le.trans epochs_le, epoch_eq, nobody, top, first,
          still loaded_le known fun _ _ => trivial⟩
  | exchange all state newstate loadedAt =>
      cases all with
      | true => exact ready
      | false =>
          rcases ready with ⟨loaded_le, epoch_eq, preWait | pop⟩
          · exact ⟨loaded_le.trans epochs_le, epoch_eq, .inl preWait⟩
          · rcases pop with ⟨nobody, top, following, first, word_eq, known⟩
            refine
              ⟨loaded_le.trans epochs_le, epoch_eq,
                .inr ⟨nobody, top, following, first, word_eq, ?_⟩⟩
            exact still loaded_le known fun link_eq linked => link_eq.trans linked
  | returned result => trivial
  | load all => trivial
  | unlink index => trivial
  | unparkLoad first index => trivial
  | unparkSignal first index following => trivial

/-- A freshly loaded word. -/
theorem LoopInvariant.load (tickets : TicketInvariant size system)
    {all : Bool} {pc : NotifyPc}
    (tested : NotifyTest system.word system.epochs all pc) :
    LoopInvariant size system pc := by
  cases tested with
  | nobody empty none => trivial
  | everybody => exact rfl
  | preWait some => exact ⟨le_rfl, tickets.epoch, .inl ⟨some, rfl⟩⟩
  | pop none nonempty =>
      rcases Option.ne_none_iff_exists'.mp nonempty with ⟨top, first⟩
      exact
        ⟨le_rfl, tickets.epoch, none, top, first,
          fun _ _ => ⟨first, trivial⟩⟩

/-- The link of the top is read. -/
theorem LoopInvariant.loadNext {state : Word} {loadedAt : ℕ}
    (ready : LoopInvariant size system (.loadNext state loadedAt)) :
    LoopInvariant size system
      (.exchange false state
        (popStack state (system.waiters (stackField state)).next) loadedAt) := by
  rcases ready with ⟨loaded_le, epoch_eq, nobody, top, first, known⟩
  have top_eq : stackField state = top := by
    unfold stackTop at first
    split at first
    · simp at first
    · exact Option.some.inj first
  refine
    ⟨loaded_le, epoch_eq,
      .inr ⟨nobody, top, system.link top, first, ?_, ?_⟩⟩
  · rw [top_eq]
    rfl
  · intro unchanged parked
    exact ⟨(known unchanged parked).1, rfl⟩

theorem LoopInvariant.quiet {pc : NotifyPc}
    (ready : LoopInvariant size system pc) (quiet : Quiet system target) :
    LoopInvariant size target pc := by
  apply ready.mono quiet.epochs_le
  intro _ top parked
  rw [quiet.parked_iff] at parked
  refine ⟨parked, ?_, quiet.link_eq top parked⟩
  rw [quiet.top_eq]
  exact id

/-- The compare-exchange of another thread, seen from the loop. -/
theorem LoopInvariant.notifyExchange {pc : NotifyPc} {all : Bool}
    {newstate : Word} (ready : LoopInvariant size system pc)
    (installs : NotifyWord system chain all newstate) :
    LoopInvariant size (system.notifyEffect all system.word newstate) pc := by
  apply ready.mono (Nat.le_add_right _ _)
  intro unchanged top parked
  rw [waiting_notifyEffect_eq_parked_iff] at parked
  refine ⟨parked.1, ?_, rfl⟩
  intro first
  -- with the epoch unchanged the exchange took the top, or everything
  exfalso
  have increments : notifyIncrements all system.word = 0 := by
    simpa using unchanged
  cases installs with
  | everybody => simp [poppedBy] at parked
  | preWait some => simp [notifyIncrements, some] at increments
  | pop none split => simp [poppedBy, none, first] at parked

end AsyncRuntime.WorkNotifier
