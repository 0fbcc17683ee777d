import AsyncRuntime.WorkNotifier.Consistency

/-!
# Who may be asleep

A waiter may be asleep when it is in pre-wait and not notified, or committed and
not popped.  It gets there only by its own `prepare_wait`.  A `notify(true)`
leaves nobody asleep at the moment it takes effect, and a `notify(false)` leaves
at least one waiter awake; this is what the users of the event count rely on.
-/

namespace AsyncRuntime.WorkNotifier

open AsyncRuntime.Foundation

universe u

variable {Thread : Type u}

/-- The waiter sleeps, or may go to sleep without being notified again. -/
def State.asleep (system : State Thread) (index : ℕ) : Prop :=
  system.undecided index ∨ system.waiting index = .parked false

/--
The thread is inside a `notify` that has not taken effect; the flag is the
argument `all`.
-/
def NotifyPc.waking : NotifyPc → Option Bool
  | .load all => some all
  | .loadNext _ _ => some false
  | .exchange all _ _ _ => some all
  | _ => none

variable {size : ℕ} {system target : State Thread}

theorem asleep_iff_of_eq (waiting_eq : target.waiting = system.waiting)
    (notified_eq : target.notified = system.notified) {index : ℕ} :
    target.asleep index ↔ system.asleep index := by
  simp only [State.asleep, State.undecided, waiting_eq, notified_eq]

/-- A waiter that moves neither enters pre-wait nor the stack. -/
theorem asleep_of_update {moved index : ℕ} {pc : WaiterPc}
    (asleep : target.asleep index)
    (waiting_eq : target.waiting = Function.update system.waiting moved pc)
    (notified_eq : target.notified = system.notified)
    (preWait : pc.preWait = true → (system.waiting moved).preWait = true)
    (parked : pc = .parked false → system.waiting moved = .parked false) :
    system.asleep index := by
  by_cases same : index = moved
  · subst same
    simp only [State.asleep, State.undecided, waiting_eq, notified_eq,
      Function.update_self] at asleep
    rcases asleep with ⟨inside, unmarked⟩ | committed
    · exact .inl ⟨preWait inside, unmarked⟩
    · exact .inr (parked committed)
  · simpa [State.asleep, State.undecided, waiting_eq, notified_eq, same]
      using asleep

theorem asleep_of_notifyEffect {all : Bool} {state newstate : Word} {index : ℕ}
    (asleep : (system.notifyEffect all state newstate).asleep index) :
    system.asleep index := by
  rcases asleep with ⟨inside, unmarked⟩ | committed
  · rw [preWait_notifyEffect] at inside
    simp only [State.notifyEffect_notified, Bool.or_eq_false_iff] at unmarked
    exact .inl ⟨inside, unmarked.1⟩
  · rw [waiting_notifyEffect_eq_parked_iff] at committed
    exact .inr committed.1

/-- The waiter that commits was not notified. -/
theorem TicketInvariant.undecided_of_first
    (tickets : TicketInvariant size system) {index : ℕ}
    (waiting : (system.waiting index).preWait = true)
    (first : system.ticket index = system.epochs) : system.undecided index :=
  tickets.undecided_iff.mpr ⟨waiting, first.ge⟩

/-- Nobody is asleep when the state word shows nobody. -/
theorem Invariant.not_asleep_of_empty (invariant : Invariant size system)
    (empty : stackTop system.word = none) (nobody : waiterField system.word = 0)
    (index : ℕ) : ¬ system.asleep index := by
  rintro (undecided | committed)
  · rcases invariant.tickets.undecided_iff.mp undecided with ⟨waiting, ahead⟩
    have issued := invariant.tickets.line.issued index waiting
    omega
  · rcases invariant.stack with ⟨chain, stack⟩
    have links := stack.links
    rw [empty] at links
    rw [← stack.members, links.eq_nil] at committed
    simp at committed

/-! ## The phases of a waiter -/

/-- The phases a waiter goes through between two calls of `prepare_wait`. -/
inductive Phase where
  | idle
  | prepared
  | committing
  | cancelling
  deriving DecidableEq

def WaiterPc.phase : WaiterPc → Phase
  | .idle => .idle
  | .prepared => .prepared
  | .cancelLoad => .cancelling
  | .cancelExchange _ => .cancelling
  | _ => .committing

theorem not_asleep_of_idle {index : ℕ}
    (idle : (system.waiting index).phase = .idle) : ¬ system.asleep index := by
  rintro (⟨inside, -⟩ | committed)
  · cases place : system.waiting index <;>
      simp [place, WaiterPc.phase, WaiterPc.preWait] at idle inside
  · simp [committed, WaiterPc.phase] at idle

theorem phase_notifyEffect (all : Bool) (state newstate : Word) (index : ℕ) :
    ((system.notifyEffect all state newstate).waiting index).phase =
      (system.waiting index).phase := by
  simp only [State.notifyEffect_waiting]
  split
  · rename_i parked
    rw [parked]
    rfl
  · rfl

/-- A waiter that reads the state word again stays in its phase or returns. -/
theorem Retest.phase {source pc : WaiterPc} {waiter : Waiter} {word : Word}
    (tested : Retest source waiter word pc) :
    pc.phase = source.phase ∨ pc = .idle := by
  cases tested with
  | commitWaits inside =>
      left
      rcases inside with rfl | ⟨state, rfl⟩ <;> rfl
  | commitLinks inside _ =>
      left
      rcases inside with rfl | ⟨state, rfl⟩ <;> rfl
  | commitReturns _ _ => exact .inr rfl
  | cancelWaits inside =>
      left
      rcases inside with rfl | ⟨state, rfl⟩ <;> rfl
  | cancelTries inside _ =>
      left
      rcases inside with rfl | ⟨state, rfl⟩ <;> rfl
  | cancelReturns _ _ => exact .inr rfl

/-! ## The moment a notify takes effect -/

/-- What a `notify` guarantees at the moment it takes effect. -/
def Woken (size : ℕ) (system : State Thread) : Bool → Prop
  | true => ∀ index, ¬ system.asleep index
  | false => 0 < size → ∃ index, index < size ∧ ¬ system.asleep index

theorem woken_of_nobody {all : Bool}
    (nobody : ∀ index, ¬ system.asleep index) : Woken size system all := by
  cases all with
  | true => exact nobody
  | false => exact fun positive => ⟨0, positive, nobody 0⟩

/-- The waiter whose ticket is the epoch is notified by the exchange. -/
theorem Invariant.exists_notified (invariant : Invariant size system)
    (some : waiterField system.word ≠ 0) (newstate : Word) :
    ∃ index, index < size ∧
      ¬ (system.notifyEffect false system.word newstate).asleep index := by
  have tickets := invariant.tickets
  rcases tickets.line.covered system.epochs le_rfl (by omega) with
    ⟨index, waiting, first⟩
  have inside : (system.waiting index).preWait = true := waiting
  have busy : system.waiting index ≠ .idle := by
    intro idle
    simp [idle, WaiterPc.preWait] at inside
  refine ⟨index, tickets.index_lt busy, ?_⟩
  have current :
      modificationEpoch (system.waiters index).epoch =
        system.word &&& kEpochMask := by
    rw [← BitVec.toNat_inj, toNat_modificationEpoch, toNat_and_epochMask,
      tickets.ticket_mod inside, first, tickets.epoch]
  rintro (⟨_, unmarked⟩ | committed)
  · simp [inside, notifiedBy, some, current] at unmarked
  · rw [waiting_notifyEffect_eq_parked_iff] at committed
    simp [committed.1, WaiterPc.preWait] at inside

/-- A successful exchange of `notify` takes effect. -/
theorem NotifyWord.woken {chain : List ℕ} {all : Bool} {newstate : Word}
    (installs : NotifyWord system chain all newstate)
    (invariant : Invariant size system) (stack : StackInvariant system chain) :
    Woken size (system.notifyEffect all system.word newstate) all := by
  cases installs with
  | everybody =>
      rintro index (⟨inside, unmarked⟩ | committed)
      · rw [preWait_notifyEffect] at inside
        simp [inside, notifiedBy] at unmarked
      · rw [waiting_notifyEffect_eq_parked_iff] at committed
        simp [poppedBy] at committed
  | preWait some => exact fun _ => invariant.exists_notified some _
  | @pop top rest none split =>
      have links := stack.links
      rw [split] at links
      have parked : system.waiting top = .parked false := by
        rw [← stack.members, split]
        exact List.mem_cons_self
      refine fun _ =>
        ⟨top, invariant.tickets.index_lt (by simp [parked]), ?_⟩
      rintro (⟨inside, -⟩ | committed)
      · rw [preWait_notifyEffect] at inside
        simp [parked, WaiterPc.preWait] at inside
      · rw [waiting_notifyEffect_eq_parked_iff] at committed
        simp [poppedBy, none, links.1] at committed

/-- The word read by `notify` shows nobody, or the loop goes on. -/
theorem NotifyTest.waking {all : Bool} {pc : NotifyPc}
    (tested : NotifyTest system.word system.epochs all pc)
    (invariant : Invariant size system) :
    pc.waking = some all ∨ ∀ index, ¬ system.asleep index := by
  cases tested with
  | nobody empty none =>
      exact .inr (invariant.not_asleep_of_empty empty none)
  | everybody => exact .inl rfl
  | preWait _ => exact .inl rfl
  | pop _ _ => exact .inl rfl

variable [DecidableEq Thread]

/-- The phase a call puts its waiter into. -/
def Action.calls : Action Thread → Option (ℕ × Phase)
  | .prepareWait index => some (index, .prepared)
  | .commitWait index => some (index, .committing)
  | .cancelWait index => some (index, .cancelling)
  | _ => none

/-- A call puts its own waiter into its phase and leaves the others alone. -/
theorem Step.phase_of_calls {action : Action Thread}
    (step : Step size system action target) {moved : ℕ} {phase : Phase}
    (calls : action.calls = some (moved, phase)) (index : ℕ) :
    (target.waiting index).phase =
      if index = moved then phase else (system.waiting index).phase := by
  cases step <;> simp only [Action.calls, Option.some.injEq, Prod.mk.injEq,
    reduceCtorEq] at calls <;> rcases calls with ⟨rfl, rfl⟩ <;>
    simp only [State.prepare_waiting, State.setWaiting_waiting,
      Function.update_apply] <;>
    split <;> rfl

omit [DecidableEq Thread] in
theorem phase_update {moved index : ℕ} {pc : WaiterPc} {spurious : Bool}
    (stays : pc.phase = (system.waiting moved).phase ∨ pc = .idle) :
    (Function.update system.waiting moved pc index).phase =
        (system.waiting index).phase ∨
      (Action.waiter moved spurious : Action Thread) = .waiter index spurious ∧
        (Function.update system.waiting moved pc index).phase = .idle := by
  by_cases same : index = moved
  · subst same
    rcases stays with kept | rfl
    · exact .inl (by simpa using kept)
    · exact .inr ⟨rfl, by simp [WaiterPc.phase]⟩
  · simp [same]

/-- Without a call every waiter keeps its phase or returns by a step of its own. -/
theorem Step.phase_of_no_call {action : Action Thread}
    (step : Step size system action target) (no_call : action.calls = none)
    (index : ℕ) :
    (target.waiting index).phase = (system.waiting index).phase ∨
      ∃ spurious,
        action = .waiter index spurious ∧
          (target.waiting index).phase = .idle := by
  cases step with
  | prepareWait _ _ => simp [Action.calls] at no_call
  | commitWait _ => simp [Action.calls] at no_call
  | cancelWait _ => simp [Action.calls] at no_call
  | reset at_reset =>
      refine (phase_update (.inl ?_)).imp_right fun returns => ⟨_, returns⟩
      simp [at_reset, WaiterPc.phase]
  | retest tested =>
      exact (phase_update tested.phase).imp_right fun returns => ⟨_, returns⟩
  | link at_link =>
      refine (phase_update (.inl ?_)).imp_right fun returns => ⟨_, returns⟩
      simp [at_link, WaiterPc.phase]
  | commit at_exchange =>
      refine (phase_update (.inl ?_)).imp_right fun returns => ⟨_, returns⟩
      simp [at_exchange, WaiterPc.phase]
  | wake _ _ =>
      exact (phase_update (.inr rfl)).imp_right fun returns => ⟨_, returns⟩
  | sleep parked _ =>
      refine (phase_update (.inl ?_)).imp_right fun returns => ⟨_, returns⟩
      simp [parked, WaiterPc.phase]
  | cancel _ =>
      exact (phase_update (.inr rfl)).imp_right fun returns => ⟨_, returns⟩
  | @notifyExchange _ _ all newstate _ _ _ _ =>
      exact .inl (phase_notifyEffect all system.word newstate index)
  | notify _ => exact .inl rfl
  | notifyLoad _ _ => exact .inl rfl
  | notifyLoadNext _ => exact .inl rfl
  | unlink _ => exact .inl rfl
  | unparkLoad _ => exact .inl rfl
  | unparkSignal _ => exact .inl rfl

/-- Only its own `prepare_wait` puts a waiter to sleep. -/
theorem Step.asleep_of {action : Action Thread}
    (step : Step size system action target) (invariant : Invariant size system)
    (bounded : epochsBounded system action) {index : ℕ}
    (asleep : target.asleep index) :
    system.asleep index ∨ action = .prepareWait index := by
  cases step with
  | @prepareWait moved index_lt idle =>
      by_cases same : index = moved
      · rw [same]
        exact .inr rfl
      · left
        simpa [State.asleep, State.undecided, same] using asleep
  | commitWait prepared =>
      left
      refine asleep_of_update asleep rfl rfl ?_ ?_ <;>
        simp [prepared, WaiterPc.preWait]
  | cancelWait prepared =>
      left
      refine asleep_of_update asleep rfl rfl ?_ ?_ <;>
        simp [prepared, WaiterPc.preWait]
  | reset at_reset =>
      left
      refine asleep_of_update asleep rfl rfl ?_ ?_ <;>
        simp [at_reset, WaiterPc.preWait]
  | retest tested =>
      left
      refine asleep_of_update asleep rfl rfl (fun _ => tested.preWait) ?_
      rintro rfl
      cases tested
  | link at_link =>
      left
      refine asleep_of_update asleep rfl rfl ?_ ?_ <;>
        simp [at_link, WaiterPc.preWait]
  | @commit moved _ at_exchange =>
      left
      by_cases same : index = moved
      · subst same
        have bounded := bounded (by simp [at_exchange, WaiterPc.decides])
        have waiting : (system.waiting index).preWait = true := by
          simp [at_exchange, WaiterPc.preWait]
        have first :=
          invariant.tickets.ticket_eq waiting
            (by simp [at_exchange, WaiterPc.tested]) bounded
        exact .inl (invariant.tickets.undecided_of_first waiting first)
      · simpa [State.asleep, State.undecided, same] using asleep
  | wake parked _ =>
      left
      refine asleep_of_update asleep rfl rfl ?_ ?_ <;>
        simp [WaiterPc.preWait]
  | sleep parked _ =>
      left
      refine asleep_of_update asleep rfl rfl ?_ ?_ <;>
        simp [parked, WaiterPc.preWait]
  | @cancel moved _ at_exchange =>
      left
      by_cases same : index = moved
      · subst same
        simp [State.asleep, State.undecided, WaiterPc.preWait] at asleep
      · simpa [State.asleep, State.undecided, same] using asleep
  | notify _ => exact .inl ((asleep_iff_of_eq rfl rfl).mp asleep)
  | notifyLoad _ _ => exact .inl ((asleep_iff_of_eq rfl rfl).mp asleep)
  | notifyLoadNext _ => exact .inl ((asleep_iff_of_eq rfl rfl).mp asleep)
  | @notifyExchange thread spurious all newstate loadedAt pc _ _ =>
      left
      have before : (system.notifyEffect all system.word newstate).asleep index :=
        (asleep_iff_of_eq rfl rfl).mp asleep
      exact asleep_of_notifyEffect before
  | unlink _ => exact .inl ((asleep_iff_of_eq rfl rfl).mp asleep)
  | unparkLoad _ => exact .inl ((asleep_iff_of_eq rfl rfl).mp asleep)
  | unparkSignal _ => exact .inl ((asleep_iff_of_eq rfl rfl).mp asleep)

/-- A `notify` that leaves its loop has taken effect. -/
theorem Step.waking {action : Action Thread}
    (step : Step size system action target) (invariant : Invariant size system)
    (bounded : epochsBounded system action) {thread : Thread} {all : Bool}
    (inside : (system.notifying thread).waking = some all) :
    (target.notifying thread).waking = some all ∨ Woken size target all := by
  -- only a step of the thread itself moves it
  have elsewhere {moving : Thread} {pc : NotifyPc} (different : thread ≠ moving) :
      (Function.update system.notifying moving pc thread).waking = some all := by
    rw [Function.update_of_ne different]
    exact inside
  cases step with
  | @notify moving _ result outside =>
      left
      apply elsewhere
      rintro rfl
      simp [outside, NotifyPc.waking] at inside
  | @notifyLoad moving _ wakesAll pc at_loop tested =>
      by_cases same : thread = moving
      · subst same
        have agrees : wakesAll = all := by
          rcases at_loop with at_load | ⟨_, _, _, at_exchange⟩
          · simpa [at_load, NotifyPc.waking] using inside
          · simpa [at_exchange, NotifyPc.waking] using inside
        subst agrees
        rcases tested.waking invariant with goesOn | nobody
        · left
          simpa using goesOn
        · right
          apply woken_of_nobody
          intro index asleep
          exact nobody index ((asleep_iff_of_eq rfl rfl).mp asleep)
      · exact .inl (elsewhere same)
  | @notifyLoadNext moving _ state loadedAt at_next =>
      left
      by_cases same : thread = moving
      · subst same
        simpa [at_next, NotifyPc.waking] using inside
      · exact elsewhere same
  | @notifyExchange moving _ wakesAll newstate loadedAt pc at_exchange won =>
      by_cases same : thread = moving
      · subst same
        have agrees : wakesAll = all := by
          simpa [at_exchange, NotifyPc.waking] using inside
        subst agrees
        have bounded :=
          bounded loadedAt (by simp [at_exchange, NotifyPc.loadedAt])
        rcases invariant.stack with ⟨chain, stack⟩
        have installs := invariant.notifyWord stack at_exchange bounded
        right
        exact installs.woken invariant stack
      · exact .inl (elsewhere same)
  | @unlink moving _ index at_unlink =>
      left
      apply elsewhere
      rintro rfl
      simp [at_unlink, NotifyPc.waking] at inside
  | @unparkLoad moving _ first index at_load =>
      left
      apply elsewhere
      rintro rfl
      simp [at_load, NotifyPc.waking] at inside
  | @unparkSignal moving _ first index following at_signal =>
      left
      apply elsewhere
      rintro rfl
      simp [at_signal, NotifyPc.waking] at inside
  | _ => exact .inl inside

end AsyncRuntime.WorkNotifier
