import AsyncRuntime.Foundation.LinkedChain
import AsyncRuntime.WorkNotifier.Step

/-!
# Who wakes a popped waiter

A waiter that was popped from the stack and not yet signalled sleeps in
`_park`; exactly one thread inside `notify` is about to signal it.  The waiters
a thread still has to signal are its claims: the one it popped, or the chain of
links that `_unpark` walks.  Links of claimed waiters are written only by the
claiming thread, so the walk visits exactly the claims.
-/

namespace AsyncRuntime.WorkNotifier

open AsyncRuntime.Foundation

universe u

variable {Thread : Type u}

/-- The `next` links. -/
def State.link (system : State Thread) (index : ℕ) : Option ℕ :=
  (system.waiters index).next

/-- The waiter was popped and its signal has not been stored yet. -/
def State.unwoken (system : State Thread) (index : ℕ) : Prop :=
  system.waiting index = .parked true ∧
    (system.waiters index).state ≠ .kSignaled

/-- The waiter reset its signal and no notify has popped it since. -/
def WaiterPc.armed : WaiterPc → Bool
  | .commitLoad => true
  | .commitLink _ => true
  | .commitExchange _ => true
  | .parked popped => !popped
  | _ => false

/-- The waiters a thread inside `notify` has yet to signal. -/
def Claimed (link : ℕ → Option ℕ) : NotifyPc → List ℕ → Prop
  | .unlink index, nodes => nodes = [index]
  | .unparkLoad _ index, nodes => LinksTo link (some index) nodes
  | .unparkSignal _ index following, nodes =>
      ∃ rest, nodes = index :: rest ∧ index ∉ rest ∧ LinksTo link following rest
  | _, nodes => nodes = []

/-- The thread is in the part of `notify` after its compare-exchange. -/
def NotifyPc.unparks : NotifyPc → Bool
  | .unlink _ => true
  | .unparkLoad _ _ => true
  | .unparkSignal _ _ _ => true
  | _ => false

theorem claimed_iff_eq_nil {link : ℕ → Option ℕ} {pc : NotifyPc}
    {nodes : List ℕ} (outside : pc.unparks = false) :
    Claimed link pc nodes ↔ nodes = [] := by
  cases pc with
  | unlink index => simp [NotifyPc.unparks] at outside
  | unparkLoad first index => simp [NotifyPc.unparks] at outside
  | unparkSignal first index following => simp [NotifyPc.unparks] at outside
  | returned result => rfl
  | load all => rfl
  | loadNext state loadedAt => rfl
  | exchange all state newstate loadedAt => rfl

theorem Claimed.congr {link other : ℕ → Option ℕ} {pc : NotifyPc}
    {nodes : List ℕ} (claimed : Claimed link pc nodes)
    (agree : ∀ node ∈ nodes, other node = link node) :
    Claimed other pc nodes := by
  cases pc with
  | unparkLoad first index => exact LinksTo.congr claimed agree
  | unparkSignal first index following =>
      rcases claimed with ⟨rest, rfl, fresh, links⟩
      refine ⟨rest, rfl, fresh, links.congr ?_⟩
      exact fun node member => agree node (List.mem_cons_of_mem index member)
  | returned result => exact claimed
  | load all => exact claimed
  | loadNext state loadedAt => exact claimed
  | exchange all state newstate loadedAt => exact claimed
  | unlink index => exact claimed

/-- The claims of the notifying threads are the popped waiters, each once. -/
structure ClaimInvariant (system : State Thread) (claims : Thread → List ℕ) :
    Prop where
  shape :
    ∀ thread, Claimed system.link (system.notifying thread) (claims thread)
  claimed :
    ∀ index, (∃ thread, index ∈ claims thread) ↔ system.unwoken index
  disjoint :
    ∀ left right index, index ∈ claims left → index ∈ claims right →
      left = right
  armed :
    ∀ index, (system.waiting index).armed = true →
      (system.waiters index).state ≠ .kSignaled

variable {system target : State Thread} {claims : Thread → List ℕ}

theorem ClaimInvariant.unwoken (invariant : ClaimInvariant system claims)
    {thread : Thread} {index : ℕ} (member : index ∈ claims thread) :
    system.unwoken index :=
  (invariant.claimed index).mp ⟨thread, member⟩

theorem ClaimInvariant.unwoken_of_unlink
    (invariant : ClaimInvariant system claims) {thread : Thread} {index : ℕ}
    (at_unlink : system.notifying thread = .unlink index) :
    system.unwoken index := by
  have shape := invariant.shape thread
  rw [at_unlink] at shape
  have member : index ∈ claims thread := by
    rw [shape]
    exact List.mem_singleton_self index
  exact invariant.unwoken member

/-! ## Steps of waiters -/

/-- A waiter moves and writes its own fields; the notifying threads stay. -/
theorem ClaimInvariant.frame_waiter (invariant : ClaimInvariant system claims)
    {index : ℕ} {waiter : Waiter} {pc : WaiterPc}
    (notifying_eq : target.notifying = system.notifying)
    (waiters_eq : target.waiters = Function.update system.waiters index waiter)
    (waiting_eq : target.waiting = Function.update system.waiting index pc)
    (next_eq :
      system.waiting index = .parked true → waiter.next = system.link index)
    (unwoken_iff :
      (pc = .parked true ∧ waiter.state ≠ .kSignaled) ↔ system.unwoken index)
    (armed : pc.armed = true → waiter.state ≠ .kSignaled) :
    ClaimInvariant target claims := by
  constructor
  case shape =>
    intro thread
    rw [notifying_eq]
    apply (invariant.shape thread).congr
    intro node member
    by_cases same : node = index
    · subst same
      simpa [State.link, waiters_eq] using next_eq (invariant.unwoken member).1
    · simp [State.link, waiters_eq, same]
  case claimed =>
    intro other
    rw [invariant.claimed other]
    by_cases same : other = index
    · subst same
      simpa [State.unwoken, waiters_eq, waiting_eq] using unwoken_iff.symm
    · simp [State.unwoken, waiters_eq, waiting_eq, same]
  case disjoint => exact invariant.disjoint
  case armed =>
    intro other
    by_cases same : other = index
    · subst same
      simpa [waiters_eq, waiting_eq] using armed
    · simpa [waiters_eq, waiting_eq, same] using invariant.armed other

/-- A waiter outside `_park` moves to a place outside `_park`. -/
theorem ClaimInvariant.frame_unparked (invariant : ClaimInvariant system claims)
    {index : ℕ} {pc : WaiterPc}
    (notifying_eq : target.notifying = system.notifying)
    (waiters_eq : target.waiters = system.waiters)
    (waiting_eq : target.waiting = Function.update system.waiting index pc)
    (before : system.waiting index ≠ .parked true) (after : pc ≠ .parked true)
    (armed : pc.armed = true → (system.waiting index).armed = true) :
    ClaimInvariant target claims := by
  have unwritten :
      target.waiters =
        Function.update system.waiters index (system.waiters index) := by
    rw [waiters_eq, Function.update_eq_self]
  apply invariant.frame_waiter notifying_eq unwritten waiting_eq
  · exact fun parked => absurd parked before
  · simp [State.unwoken, before, after]
  · exact fun inside => invariant.armed index (armed inside)

theorem ClaimInvariant.prepareWait (invariant : ClaimInvariant system claims)
    {index : ℕ} {word : Word} (idle : system.waiting index = .idle) :
    ClaimInvariant (system.prepare index word) claims := by
  refine invariant.frame_waiter rfl rfl rfl ?_ ?_ ?_
  · simp [idle]
  · simp [State.unwoken, idle]
  · simp [WaiterPc.armed]

/-- A waiter in pre-wait decides. -/
theorem ClaimInvariant.decided (invariant : ClaimInvariant system claims)
    {index : ℕ} {word : Word} {pc : WaiterPc}
    (before : system.waiting index ≠ .parked true) (after : pc ≠ .parked true)
    (armed : pc.armed = true → (system.waiting index).armed = true) :
    ClaimInvariant ((system.serve word).setWaiting index pc) claims :=
  invariant.frame_unparked rfl rfl rfl before after armed

/-- A waiter that reads the state word again. -/
theorem ClaimInvariant.retest (invariant : ClaimInvariant system claims)
    {index : ℕ} {pc : WaiterPc}
    (tested :
      Retest (system.waiting index) (system.waiters index) system.word pc) :
    ClaimInvariant (system.setWaiting index pc) claims := by
  have before : system.waiting index ≠ .parked true := by
    intro parked
    have inside := tested.preWait
    simp [parked, WaiterPc.preWait] at inside
  refine invariant.frame_unparked rfl rfl rfl before ?_ ?_
  · rintro rfl
    cases tested
  · intro armed
    cases tested with
    | commitWaits inside =>
        rcases inside with at_load | ⟨state, at_exchange⟩ <;>
          simp [*, WaiterPc.armed]
    | commitLinks inside _ =>
        rcases inside with at_load | ⟨state, at_exchange⟩ <;>
          simp [*, WaiterPc.armed]
    | commitReturns _ _ => simp [WaiterPc.armed] at armed
    | cancelWaits _ => simp [WaiterPc.armed] at armed
    | cancelTries _ _ => simp [WaiterPc.armed] at armed
    | cancelReturns _ _ => simp [WaiterPc.armed] at armed

theorem ClaimInvariant.initial (size : ℕ) (waiters : ℕ → Waiter) :
    ClaimInvariant (State.initial size waiters : State Thread)
      (fun _ => []) where
  shape := fun _ => rfl
  claimed := fun index => by simp [State.unwoken, State.initial]
  disjoint := fun left right index member => by simp at member
  armed := fun index armed => by simp [State.initial, WaiterPc.armed] at armed

/-! ## Steps of notifying threads -/

variable [DecidableEq Thread]

/-- A thread moves inside the loop of `notify`, where it has no claims. -/
theorem ClaimInvariant.frame_notifying
    (invariant : ClaimInvariant system claims) {thread : Thread}
    {pc : NotifyPc} (before : (system.notifying thread).unparks = false)
    (after : pc.unparks = false) :
    ClaimInvariant (system.setNotifying thread pc) claims := by
  constructor
  case shape =>
    intro other
    by_cases same : other = thread
    · subst same
      have unclaimed := (claimed_iff_eq_nil before).mp (invariant.shape other)
      rw [State.setNotifying_notifying, Function.update_self]
      exact (claimed_iff_eq_nil after).mpr unclaimed
    · rw [State.setNotifying_notifying, Function.update_of_ne same]
      exact invariant.shape other
  case claimed => exact invariant.claimed
  case disjoint => exact invariant.disjoint
  case armed => exact invariant.armed

/-- The waiters popped by a successful compare-exchange become claims. -/
theorem ClaimInvariant.notifyExchange
    (invariant : ClaimInvariant system claims) {thread : Thread} {all : Bool}
    {newstate : Word} {pc : NotifyPc} {nodes : List ℕ}
    (before : (system.notifying thread).unparks = false)
    (shape : Claimed system.link pc nodes)
    (popped :
      ∀ index, index ∈ nodes ↔
        system.waiting index = .parked false ∧
          poppedBy all system.word index = true) :
    ClaimInvariant
      ((system.notifyEffect all system.word newstate).setNotifying thread pc)
      (Function.update claims thread nodes) := by
  have unclaimed := (claimed_iff_eq_nil before).mp (invariant.shape thread)
  have claimed_iff (index : ℕ) :
      (∃ other, index ∈ Function.update claims thread nodes other) ↔
        index ∈ nodes ∨ ∃ other, index ∈ claims other := by
    constructor
    · rintro ⟨other, member⟩
      by_cases same : other = thread
      · subst same
        exact .inl (by simpa using member)
      · exact .inr ⟨other, by simpa [same] using member⟩
    · rintro (member | ⟨other, member⟩)
      · exact ⟨thread, by simpa using member⟩
      · have different : other ≠ thread := by
          rintro rfl
          simp [unclaimed] at member
        exact ⟨other, by simpa [different] using member⟩
  constructor
  case shape =>
    intro other
    by_cases same : other = thread
    · subst same
      rw [State.setNotifying_notifying, Function.update_self,
        Function.update_self]
      exact shape
    · rw [State.setNotifying_notifying, Function.update_of_ne same,
        Function.update_of_ne same]
      exact invariant.shape other
  case claimed =>
    intro index
    rw [claimed_iff, popped, invariant.claimed]
    cases place : system.waiting index with
    | parked wasPopped =>
        cases wasPopped with
        | false =>
            have unsignaled :=
              invariant.armed index (by simp [place, WaiterPc.armed])
            simp [State.unwoken, place, unsignaled]
        | true => simp [State.unwoken, place]
    | _ => simp [State.unwoken, place]
  case disjoint =>
    intro left right index leftMember rightMember
    -- a freshly popped waiter was on the stack, so nobody had claimed it
    have fresh (other : Thread) (member : index ∈ nodes) :
        index ∉ claims other := by
      intro claimed
      have parked := ((popped index).mp member).1
      have unwoken := (invariant.unwoken claimed).1
      simp [parked] at unwoken
    by_cases leftSame : left = thread <;> by_cases rightSame : right = thread
    · rw [leftSame, rightSame]
    · simp only [leftSame, Function.update_self] at leftMember
      simp only [ne_eq, rightSame, not_false_eq_true, Function.update_of_ne]
        at rightMember
      exact absurd rightMember (fresh right leftMember)
    · simp only [rightSame, Function.update_self] at rightMember
      simp only [ne_eq, leftSame, not_false_eq_true, Function.update_of_ne]
        at leftMember
      exact absurd leftMember (fresh left rightMember)
    · simp only [ne_eq, leftSame, rightSame, not_false_eq_true,
        Function.update_of_ne] at leftMember rightMember
      exact invariant.disjoint left right index leftMember rightMember
  case armed =>
    intro index armed
    apply invariant.armed index
    cases place : system.waiting index with
    | parked wasPopped =>
        cases wasPopped with
        | false => rfl
        | true => simp [place, WaiterPc.armed] at armed
    | _ => simpa [place] using armed

/-- The popped waiter is cut off from the stack before it is unparked. -/
theorem ClaimInvariant.unlink (invariant : ClaimInvariant system claims)
    {thread : Thread} {index : ℕ}
    (at_unlink : system.notifying thread = .unlink index) :
    ClaimInvariant
      ((system.setWaiter index
          { system.waiters index with next := none }).setNotifying thread
        (.unparkLoad index index))
      claims := by
  have own := invariant.shape thread
  rw [at_unlink] at own
  have own : claims thread = [index] := own
  constructor
  case shape =>
    intro other
    by_cases same : other = thread
    · subst same
      rw [State.setNotifying_notifying, Function.update_self, own]
      exact ⟨rfl, by simp [State.link]⟩
    · rw [State.setNotifying_notifying, Function.update_of_ne same]
      apply (invariant.shape other).congr
      intro node member
      have different : node ≠ index := by
        rintro rfl
        exact same (invariant.disjoint other thread node member (by simp [own]))
      simp [State.link, different]
  case claimed =>
    intro other
    rw [invariant.claimed other]
    by_cases same : other = index
    · subst same
      simp [State.unwoken]
    · simp [State.unwoken, same]
  case disjoint => exact invariant.disjoint
  case armed =>
    intro other
    by_cases same : other = index
    · subst same
      simpa using invariant.armed other
    · simpa [same] using invariant.armed other

/-- `_unpark` reads the link before it signals. -/
theorem ClaimInvariant.unparkLoad (invariant : ClaimInvariant system claims)
    {thread : Thread} {first index : ℕ}
    (at_load : system.notifying thread = .unparkLoad first index) :
    ClaimInvariant
      (system.setNotifying thread
        (.unparkSignal first index (system.waiters index).next))
      claims := by
  have own := invariant.shape thread
  rw [at_load] at own
  have own : LinksTo system.link (some index) (claims thread) := own
  constructor
  case shape =>
    intro other
    by_cases same : other = thread
    · subst same
      rw [State.setNotifying_notifying, Function.update_self]
      rcases own.eq_cons with ⟨rest, split, tail⟩
      have nodup := own.nodup
      rw [split, List.nodup_cons] at nodup
      exact ⟨rest, split, nodup.1, tail⟩
    · rw [State.setNotifying_notifying, Function.update_of_ne same]
      exact invariant.shape other
  case claimed => exact invariant.claimed
  case disjoint => exact invariant.disjoint
  case armed => exact invariant.armed

/-- The signal settles the first claim. -/
theorem ClaimInvariant.unparkSignal (invariant : ClaimInvariant system claims)
    {thread : Thread} {first index : ℕ} {following : Option ℕ}
    (at_signal :
      system.notifying thread = .unparkSignal first index following) :
    ∃ rest,
      ClaimInvariant
        ((system.setWaiter index
            { system.waiters index with state := .kSignaled }).setNotifying
          thread (unparkNext first following))
        (Function.update claims thread rest) := by
  have own := invariant.shape thread
  rw [at_signal] at own
  rcases own with ⟨rest, split, fresh, links⟩
  have links_eq (node : ℕ) :
      ((system.setWaiter index
          { system.waiters index with state := .kSignaled }).setNotifying
        thread (unparkNext first following)).link node = system.link node := by
    by_cases same : node = index
    · subst same
      simp [State.link]
    · simp [State.link, same]
  -- the other threads have no claim on the signalled waiter
  have others (other : Thread) (different : other ≠ thread) :
      index ∉ claims other := by
    intro member
    exact different
      (invariant.disjoint other thread index member (by simp [split]))
  have subset (other : Thread) (node : ℕ)
      (member : node ∈ Function.update claims thread rest other) :
      node ≠ index ∧ node ∈ claims other := by
    by_cases same : other = thread
    · subst same
      rw [Function.update_self] at member
      constructor
      · rintro rfl
        exact fresh member
      · rw [split]
        exact List.mem_cons_of_mem index member
    · rw [Function.update_of_ne same] at member
      constructor
      · rintro rfl
        exact others other same member
      · exact member
  refine ⟨rest, ?_⟩
  constructor
  case shape =>
    intro other
    by_cases same : other = thread
    · subst same
      rw [State.setNotifying_notifying, Function.update_self,
        Function.update_self]
      cases following with
      | none => exact links.eq_nil
      | some later => exact links.congr fun node _ => links_eq node
    · rw [State.setNotifying_notifying, Function.update_of_ne same,
        Function.update_of_ne same]
      exact (invariant.shape other).congr fun node _ => links_eq node
  case claimed =>
    intro node
    by_cases same : node = index
    · subst same
      constructor
      · rintro ⟨other, member⟩
        exact absurd rfl (subset other node member).1
      · intro unwoken
        simp [State.unwoken] at unwoken
    · have unwoken_iff :
          ((system.setWaiter index
              { system.waiters index with state := .kSignaled }).setNotifying
            thread (unparkNext first following)).unwoken node ↔
          system.unwoken node := by
        simp [State.unwoken, same]
      rw [unwoken_iff, ← invariant.claimed node]
      constructor
      · rintro ⟨other, member⟩
        exact ⟨other, (subset other node member).2⟩
      · rintro ⟨other, member⟩
        refine ⟨other, ?_⟩
        by_cases own : other = thread
        · subst own
          rw [split, List.mem_cons] at member
          simpa using member.resolve_left same
        · simpa [own] using member
  case disjoint =>
    intro left right node leftMember rightMember
    exact
      invariant.disjoint left right node (subset left node leftMember).2
        (subset right node rightMember).2
  case armed =>
    intro other armed
    have different : other ≠ index := by
      rintro rfl
      have parked : system.waiting other = .parked true :=
        (invariant.unwoken (by simp [split] : other ∈ claims thread)).1
      simp [parked, WaiterPc.armed] at armed
    simpa [different] using invariant.armed other armed

/--
Every step keeps the claims; that the waiters popped by a compare-exchange are
a chain is the business of the stack invariant.
-/
theorem ClaimInvariant.step (invariant : ClaimInvariant system claims)
    {size : ℕ} {action : Action Thread} (step : Step size system action target)
    (popped :
      ∀ thread spurious all newstate loadedAt pc,
        action = .notifier thread spurious →
        system.notifying thread = .exchange all system.word newstate loadedAt →
        NotifyWon system.word all pc →
        ∃ nodes,
          Claimed system.link pc nodes ∧
            ∀ index, index ∈ nodes ↔
              system.waiting index = .parked false ∧
                poppedBy all system.word index = true) :
    ∃ claims', ClaimInvariant target claims' := by
  cases step with
  | prepareWait index_lt idle => exact ⟨claims, invariant.prepareWait idle⟩
  | commitWait prepared =>
      refine ⟨claims, invariant.frame_unparked rfl rfl rfl ?_ ?_ ?_⟩ <;>
        simp [prepared, WaiterPc.armed]
  | cancelWait prepared =>
      refine ⟨claims, invariant.frame_unparked rfl rfl rfl ?_ ?_ ?_⟩ <;>
        simp [prepared, WaiterPc.armed]
  | reset at_reset =>
      refine ⟨claims, invariant.frame_waiter rfl rfl rfl ?_ ?_ ?_⟩
      · simp [at_reset]
      · simp [State.unwoken, at_reset]
      · simp
  | retest tested => exact ⟨claims, invariant.retest tested⟩
  | @link index _ state at_link =>
      refine ⟨claims, invariant.frame_waiter rfl rfl rfl ?_ ?_ ?_⟩
      · simp [at_link]
      · simp [State.unwoken, at_link]
      · intro _
        exact invariant.armed index (by simp [at_link, WaiterPc.armed])
  | commit at_exchange =>
      refine ⟨claims, invariant.decided ?_ ?_ ?_⟩ <;>
        simp [at_exchange, WaiterPc.armed]
  | @wake index _ wasPopped parked signaled =>
      have unwritten :
          system.waiters =
            Function.update system.waiters index (system.waiters index) := by
        rw [Function.update_eq_self]
      refine ⟨claims, invariant.frame_waiter rfl unwritten rfl ?_ ?_ ?_⟩
      · exact fun _ => rfl
      · simp [State.unwoken, signaled]
      · simp [WaiterPc.armed]
  | @sleep index _ wasPopped parked unsignaled =>
      refine ⟨claims, invariant.frame_waiter rfl rfl rfl ?_ ?_ ?_⟩
      · exact fun _ => rfl
      · simp [State.unwoken, parked, unsignaled]
      · simp
  | cancel at_exchange =>
      refine ⟨claims, invariant.decided ?_ ?_ ?_⟩ <;>
        simp [at_exchange, WaiterPc.armed]
  | notify outside =>
      refine ⟨claims, invariant.frame_notifying ?_ rfl⟩
      rw [outside]
      rfl
  | notifyLoad inside tested =>
      refine ⟨claims, invariant.frame_notifying ?_ ?_⟩
      · rcases inside with at_load | ⟨_, _, _, at_exchange⟩
        · simp [at_load, NotifyPc.unparks]
        · simp [at_exchange, NotifyPc.unparks]
      · cases tested <;> rfl
  | notifyLoadNext at_next =>
      refine ⟨claims, invariant.frame_notifying ?_ rfl⟩
      rw [at_next]
      rfl
  | notifyExchange at_exchange won =>
      rcases popped _ _ _ _ _ _ rfl at_exchange won with ⟨nodes, shape, members⟩
      refine ⟨_, invariant.notifyExchange ?_ shape members⟩
      rw [at_exchange]
      rfl
  | unlink at_unlink => exact ⟨claims, invariant.unlink at_unlink⟩
  | unparkLoad at_load => exact ⟨claims, invariant.unparkLoad at_load⟩
  | unparkSignal at_signal =>
      rcases invariant.unparkSignal at_signal with ⟨rest, settled⟩
      exact ⟨_, settled⟩

end AsyncRuntime.WorkNotifier
