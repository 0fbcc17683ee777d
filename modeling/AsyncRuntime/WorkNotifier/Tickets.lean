import AsyncRuntime.Foundation.TicketLine
import AsyncRuntime.WorkNotifier.Step

/-!
# Tickets and the modification epoch

The word fetched by `prepare_wait` gives a waiter the ticket
`epoch + waiters in front`.  Counted without wrap-around, the tickets of the
waiters in pre-wait form a line served by the epoch: the waiter whose ticket is
the epoch is the one that decides or is notified next.  The signed comparison
of the source never takes a waiter for notified that is not, and the bound on
the epochs makes the equality test exact at the compare-exchange.
-/

namespace AsyncRuntime.WorkNotifier

open AsyncRuntime.Foundation

universe u

variable {Thread : Type u}

/-- The epoch field the constructor stores. -/
def initialEpoch (size : ℕ) : ℕ :=
  2 ^ 32 - 1 - 2 * size

theorem fields_initialWord {size : ℕ} (size_lt : size < 65535) :
    epochField (initialWord size) = (initialEpoch size + 0) % 2 ^ 32 ∧
      waiterField (initialWord size) = 0 ∧
      stackField (initialWord size) = 65535 := by
  have mask : kStackMask.toNat = 65535 := rfl
  have epochMask : kEpochMask.toNat = (2 ^ 32 - 1) * 2 ^ 32 := rfl
  have epochInc : kEpochInc.toNat = 2 ^ 32 := rfl
  have two : (2 : Word).toNat = 2 := rfl
  have start :
      (kEpochMask - kEpochInc * BitVec.ofNat 64 size * 2).toNat =
        initialEpoch size * 2 ^ 32 := by
    rw [BitVec.toNat_sub, BitVec.toNat_mul, BitVec.toNat_mul,
      BitVec.toNat_ofNat, epochMask, epochInc, two, initialEpoch]
    omega
  have merged :=
    Nat.two_pow_add_eq_or_of_lt (i := 16) (by decide : 65535 < 2 ^ 16)
      (initialEpoch size * 65536)
  apply fields_of_toNat _ (by decide) (by decide)
  rw [initialWord, BitVec.toNat_or, start, mask, Nat.or_comm]
  unfold initialEpoch at merged ⊢
  rw [show (2 ^ 32 - 1 - 2 * size) * 2 ^ 32 =
    2 ^ 16 * ((2 ^ 32 - 1 - 2 * size) * 65536) by omega, ← merged]
  omega

/-- The epoch, the count of pre-wait and the tickets agree. -/
structure TicketInvariant (size : ℕ) (system : State Thread) : Prop where
  outside : ∀ index, size ≤ index → system.waiting index = .idle
  epoch :
    epochField system.word = (initialEpoch size + system.epochs) % 2 ^ 32
  fetched :
    ∀ index, (system.waiting index).preWait = true →
      epochField (system.waiters index).epoch =
        (initialEpoch size + system.preparedAt index) % 2 ^ 32
  line :
    TicketLine (fun index => (system.waiting index).preWait = true)
      system.ticket system.epochs (waiterField system.word)
  marked :
    ∀ index, (system.waiting index).preWait = true →
      (system.notified index = true ↔ system.ticket index < system.epochs)
  tested :
    ∀ index state, (system.waiting index).tested = some state →
      epochDistance state (system.waiters index).epoch = 0

variable {size : ℕ} {system target : State Thread}

theorem TicketInvariant.index_lt (invariant : TicketInvariant size system)
    {index : ℕ} (busy : system.waiting index ≠ .idle) : index < size := by
  by_contra large
  exact busy (invariant.outside index (by omega))

theorem TicketInvariant.count_le (invariant : TicketInvariant size system) :
    waiterField system.word ≤ size := by
  apply invariant.line.count_le
  intro index waiting
  apply invariant.index_lt
  intro idle
  simp [idle, WaiterPc.preWait] at waiting

/-! ## Steps that leave the line alone -/

/-- Only the epochs of the waiters in pre-wait and the tested words matter. -/
theorem TicketInvariant.frame (invariant : TicketInvariant size system)
    (word_eq : target.word = system.word)
    (epochs_eq : target.epochs = system.epochs)
    (preparedAt_eq : target.preparedAt = system.preparedAt)
    (notified_eq : target.notified = system.notified)
    (epoch_eq :
      ∀ index, (target.waiters index).epoch = (system.waiters index).epoch)
    (preWait_eq :
      ∀ index,
        (target.waiting index).preWait = (system.waiting index).preWait)
    (stays_idle :
      ∀ index, system.waiting index = .idle → target.waiting index = .idle)
    (tested :
      ∀ index state, (target.waiting index).tested = some state →
        epochDistance state (system.waiters index).epoch = 0) :
    TicketInvariant size target where
  outside := fun index large =>
    stays_idle index (invariant.outside index large)
  epoch := by
    rw [word_eq, epochs_eq]
    exact invariant.epoch
  fetched := by
    intro index waiting
    rw [preWait_eq] at waiting
    rw [epoch_eq, preparedAt_eq]
    exact invariant.fetched index waiting
  line := by
    rw [word_eq, epochs_eq]
    apply invariant.line.congr
    · intro index
      rw [preWait_eq]
    · intro index _
      simp only [State.ticket, epoch_eq, preparedAt_eq]
  marked := by
    intro index waiting
    rw [preWait_eq] at waiting
    simp only [State.ticket, epoch_eq, preparedAt_eq, notified_eq, epochs_eq]
    exact invariant.marked index waiting
  tested := by
    intro index state holds
    rw [epoch_eq]
    exact tested index state holds

/-- A waiter that moves without entering or leaving pre-wait. -/
theorem TicketInvariant.frame_waiter (invariant : TicketInvariant size system)
    {index : ℕ} {waiter : Waiter} {pc : WaiterPc}
    (epoch_eq : waiter.epoch = (system.waiters index).epoch)
    (busy : system.waiting index ≠ .idle)
    (preWait_eq : pc.preWait = (system.waiting index).preWait)
    (tested :
      ∀ state, pc.tested = some state →
        epochDistance state (system.waiters index).epoch = 0) :
    TicketInvariant size
      ((system.setWaiter index waiter).setWaiting index pc) := by
  refine invariant.frame rfl rfl rfl rfl ?_ ?_ ?_ ?_
  · intro other
    by_cases same : other = index
    · subst same
      simp [epoch_eq]
    · simp [same]
  · intro other
    by_cases same : other = index
    · subst same
      simp [preWait_eq]
    · simp [same]
  · intro other idle
    by_cases same : other = index
    · subst same
      exact absurd idle busy
    · simp [same, idle]
  · intro other state holds
    by_cases same : other = index
    · subst same
      exact tested state (by simpa using holds)
    · exact invariant.tested other state (by simpa [same] using holds)

/-- A waiter that moves and writes nothing. -/
theorem TicketInvariant.frame_waiting (invariant : TicketInvariant size system)
    {index : ℕ} {pc : WaiterPc}
    (busy : system.waiting index ≠ .idle)
    (preWait_eq : pc.preWait = (system.waiting index).preWait)
    (tested :
      ∀ state, pc.tested = some state →
        epochDistance state (system.waiters index).epoch = 0) :
    TicketInvariant size (system.setWaiting index pc) := by
  have moved :
      TicketInvariant size
        ((system.setWaiter index (system.waiters index)).setWaiting index pc) :=
    invariant.frame_waiter rfl busy preWait_eq tested
  simpa [State.setWaiter] using moved

/-! ## Steps of the line -/

/-- The ticket of a waiter in pre-wait, as the epoch field shows it. -/
theorem TicketInvariant.ticket_mod (invariant : TicketInvariant size system)
    {index : ℕ} (waiting : (system.waiting index).preWait = true) :
    (epochField (system.waiters index).epoch +
        waiterField (system.waiters index).epoch) % 2 ^ 32 =
      (initialEpoch size + system.ticket index) % 2 ^ 32 := by
  have fetched := invariant.fetched index waiting
  unfold State.ticket
  omega

/-- The signed comparison finds only notified waiters behind the epoch. -/
theorem TicketInvariant.called_of_passed
    (invariant : TicketInvariant size system) (size_lt : size < 65535)
    {index : ℕ} (waiting : (system.waiting index).preWait = true)
    (passed : 0 < epochDistance system.word (system.waiters index).epoch) :
    system.ticket index < system.epochs := by
  by_contra ahead
  have issued := invariant.line.issued index waiting
  have count_le := invariant.count_le
  have distance :
      epochDistance system.word (system.waiters index).epoch ≤ 0 := by
    apply epochDistance_nonpos (system.ticket index - system.epochs)
    · omega
    · rw [invariant.ticket_mod waiting, invariant.epoch]
      omega
  omega

/-- At the compare-exchange the tested ticket is the epoch itself. -/
theorem TicketInvariant.ticket_eq (invariant : TicketInvariant size system)
    {index : ℕ} (waiting : (system.waiting index).preWait = true)
    (tested : (system.waiting index).tested = some system.word)
    (bounded : system.epochs - system.preparedAt index < 2 ^ 31) :
    system.ticket index = system.epochs := by
  have same := invariant.tested index system.word tested
  rw [epochDistance_eq_zero_iff, invariant.ticket_mod waiting,
    invariant.epoch] at same
  have issued := invariant.line.issued index waiting
  have fetched_lt := waiterField_lt (system.waiters index).epoch
  have count_lt := waiterField_lt system.word
  have drawn : system.ticket index =
    system.preparedAt index + waiterField (system.waiters index).epoch := rfl
  omega

/-- The assertion of both loops: the deciding waiter is counted in pre-wait. -/
theorem TicketInvariant.waiters_ne_zero (invariant : TicketInvariant size system)
    {index : ℕ} (waiting : (system.waiting index).preWait = true)
    (first : system.ticket index = system.epochs) :
    waiterField system.word ≠ 0 := by
  have issued := invariant.line.issued index waiting
  omega

/-- `prepare_wait` draws the next ticket. -/
theorem TicketInvariant.prepareWait (invariant : TicketInvariant size system)
    {index : ℕ} {word : Word} (index_lt : index < size)
    (idle : system.waiting index = .idle)
    (epoch_eq : epochField word = epochField system.word)
    (waiter_eq : waiterField word = waiterField system.word + 1) :
    TicketInvariant size (system.prepare index word) := by
  have absent : ¬ (system.waiting index).preWait = true := by
    simp [idle, WaiterPc.preWait]
  constructor
  case outside =>
    intro other large
    have different : other ≠ index := by omega
    simpa [different] using invariant.outside other large
  case epoch => exact epoch_eq.trans invariant.epoch
  case fetched =>
    intro other waiting
    by_cases same : other = index
    · subst same
      simpa using invariant.epoch
    · simp only [State.prepare_waiting, ne_eq, same, not_false_eq_true,
        Function.update_of_ne] at waiting
      simpa [same] using invariant.fetched other waiting
  case line =>
    show TicketLine _ _ system.epochs (waiterField word)
    rw [waiter_eq]
    refine invariant.line.arrive absent ?_ ?_ ?_
    · intro other
      by_cases same : other = index
      · subst same
        simp [WaiterPc.preWait]
      · simp [same]
    · simp [State.ticket]
    · intro other waiting
      have different : other ≠ index := by
        rintro rfl
        exact absent waiting
      simp [State.ticket, different]
  case marked =>
    intro other waiting
    by_cases same : other = index
    · subst same
      simp [State.ticket]
    · simp only [State.prepare_waiting, ne_eq, same, not_false_eq_true,
        Function.update_of_ne] at waiting
      simpa [State.ticket, same] using invariant.marked other waiting
  case tested =>
    intro other state tested
    by_cases same : other = index
    · subst same
      simp [WaiterPc.tested] at tested
    · simp only [State.prepare_waiting, ne_eq, same, not_false_eq_true,
        Function.update_of_ne] at tested
      simpa [same] using invariant.tested other state tested

/-- A waiter that was notified in pre-wait returns. -/
theorem TicketInvariant.leave (invariant : TicketInvariant size system)
    {index : ℕ} (called : system.ticket index < system.epochs) :
    TicketInvariant size (system.setWaiting index .idle) := by
  constructor
  case outside =>
    intro other large
    by_cases same : other = index
    · simp [same]
    · simpa [same] using invariant.outside other large
  case epoch => exact invariant.epoch
  case fetched =>
    intro other waiting
    by_cases same : other = index
    · simp [same, WaiterPc.preWait] at waiting
    · exact invariant.fetched other (by simpa [same] using waiting)
  case line =>
    apply invariant.line.leave called
    intro other
    by_cases same : other = index
    · simp [same, WaiterPc.preWait]
    · simp [same]
  case marked =>
    intro other waiting
    by_cases same : other = index
    · simp [same, WaiterPc.preWait] at waiting
    · exact invariant.marked other (by simpa [same] using waiting)
  case tested =>
    intro other state tested
    by_cases same : other = index
    · simp [same, WaiterPc.tested] at tested
    · exact invariant.tested other state (by simpa [same] using tested)

/-- A waiter whose ticket is the epoch decides: it is served and leaves. -/
theorem TicketInvariant.decided (invariant : TicketInvariant size system)
    {index : ℕ} {word : Word} {pc : WaiterPc}
    (waiting : (system.waiting index).preWait = true)
    (first : system.ticket index = system.epochs)
    (epoch_eq : epochField word = (epochField system.word + 1) % 2 ^ 32)
    (waiter_eq : waiterField word = waiterField system.word - 1)
    (left : pc.preWait = false) (untested : pc.tested = none) :
    TicketInvariant size ((system.serve word).setWaiting index pc) := by
  have issued := invariant.line.issued index waiting
  have index_lt : index < size := by
    apply invariant.index_lt
    intro idle
    simp [idle, WaiterPc.preWait] at waiting
  constructor
  case outside =>
    intro other large
    have different : other ≠ index := by omega
    simpa [different] using invariant.outside other large
  case epoch =>
    show epochField word = (initialEpoch size + (system.epochs + 1)) % 2 ^ 32
    rw [epoch_eq, invariant.epoch]
    omega
  case fetched =>
    intro other present
    by_cases same : other = index
    · simp [same, left] at present
    · exact invariant.fetched other (by simpa [same] using present)
  case line =>
    show TicketLine _ system.ticket (system.epochs + 1) (waiterField word)
    rw [waiter_eq]
    have nonempty : 1 ≤ waiterField system.word := by omega
    have served : system.ticket index < system.epochs + 1 := by omega
    apply (invariant.line.call nonempty).leave served
    intro other
    by_cases same : other = index
    · simp [same, left]
    · simp [same]
  case marked =>
    intro other present
    by_cases same : other = index
    · simp [same, left] at present
    · have present : (system.waiting other).preWait = true := by
        simpa [same] using present
      -- no other waiter holds the ticket that was served
      have different : system.ticket other ≠ system.epochs := by
        intro equal
        exact same
          (invariant.line.distinct other index present waiting (by omega)
            (by omega))
      show system.notified other = true ↔
        system.ticket other < system.epochs + 1
      rw [invariant.marked other present]
      omega
  case tested =>
    intro other state tested
    by_cases same : other = index
    · simp [same, untested] at tested
    · exact invariant.tested other state (by simpa [same] using tested)

theorem preWait_notifyEffect (all : Bool) (state newstate : Word)
    (index : ℕ) :
    ((system.notifyEffect all state newstate).waiting index).preWait =
      (system.waiting index).preWait := by
  simp only [State.notifyEffect_waiting]
  split
  · rename_i parked
    rw [parked]
    rfl
  · rfl

/-- The ticket that `notify` compares with the epoch. -/
theorem TicketInvariant.modificationEpoch_eq_iff
    (invariant : TicketInvariant size system) (size_lt : size < 65535)
    {index : ℕ} (waiting : (system.waiting index).preWait = true)
    (ahead : system.epochs ≤ system.ticket index) :
    modificationEpoch (system.waiters index).epoch =
        system.word &&& kEpochMask ↔
      system.ticket index = system.epochs := by
  have issued := invariant.line.issued index waiting
  have count_le := invariant.count_le
  rw [← BitVec.toNat_inj, toNat_modificationEpoch, toNat_and_epochMask,
    invariant.ticket_mod waiting, invariant.epoch]
  omega

/-- What the word installed by `notify` does to the epoch and to the count. -/
structure Serves (all : Bool) (word newstate : Word) : Prop where
  epoch :
    epochField newstate =
      (epochField word + notifyIncrements all word) % 2 ^ 32
  waiters : waiterField newstate = waiterField word - notifyIncrements all word

/-- A successful compare-exchange of `notify` serves the next tickets. -/
theorem TicketInvariant.notifyExchange
    (invariant : TicketInvariant size system) (size_lt : size < 65535)
    {all : Bool} {newstate : Word}
    (serves : Serves all system.word newstate) :
    TicketInvariant size (system.notifyEffect all system.word newstate) := by
  have enough : notifyIncrements all system.word ≤ waiterField system.word := by
    unfold notifyIncrements
    split
    · omega
    · split <;> omega
  constructor
  case outside =>
    intro index large
    simp [invariant.outside index large]
  case epoch =>
    show epochField newstate =
      (initialEpoch size +
        (system.epochs + notifyIncrements all system.word)) % 2 ^ 32
    rw [serves.epoch, invariant.epoch]
    omega
  case fetched =>
    intro index waiting
    rw [preWait_notifyEffect] at waiting
    exact invariant.fetched index waiting
  case line =>
    show TicketLine _ system.ticket
      (system.epochs + notifyIncrements all system.word) (waiterField newstate)
    rw [serves.waiters]
    apply (invariant.line.call enough).congr
    · intro index
      rw [preWait_notifyEffect]
    · intro index _
      rfl
  case marked =>
    intro index waiting
    rw [preWait_notifyEffect] at waiting
    have marked := invariant.marked index waiting
    have issued := invariant.line.issued index waiting
    show
      (system.notified index ||
          ((system.waiting index).preWait &&
            notifiedBy all system.word (system.waiters index))) = true ↔
        system.ticket index <
          system.epochs + notifyIncrements all system.word
    rw [waiting, Bool.true_and, Bool.or_eq_true, marked]
    by_cases called : system.ticket index < system.epochs
    · simp only [called, true_or, true_iff]
      omega
    · have exact_ticket :=
        invariant.modificationEpoch_eq_iff size_lt waiting (by omega)
      cases all
      · by_cases nobody : waiterField system.word = 0
        · simp [called, notifiedBy, notifyIncrements, nobody]
        · simp [called, notifiedBy, notifyIncrements, nobody, exact_ticket]
          omega
      · simp [called, notifiedBy, notifyIncrements]
        omega
  case tested =>
    intro index state tested
    apply invariant.tested index state
    simp only [State.notifyEffect_waiting] at tested
    split at tested
    · simp [WaiterPc.tested] at tested
    · exact tested

/-- A waiter that reads the state word again stays in pre-wait or was served. -/
theorem TicketInvariant.retest (invariant : TicketInvariant size system)
    (size_lt : size < 65535) {index : ℕ} {pc : WaiterPc}
    (tested :
      Retest (system.waiting index) (system.waiters index) system.word pc) :
    TicketInvariant size (system.setWaiting index pc) := by
  have waiting := tested.preWait
  have busy : system.waiting index ≠ .idle := by
    intro idle
    simp [idle, WaiterPc.preWait] at waiting
  cases tested with
  | commitWaits _ =>
      refine invariant.frame_waiting busy waiting.symm ?_
      simp [WaiterPc.tested]
  | commitLinks _ first =>
      refine invariant.frame_waiting busy waiting.symm ?_
      simp [WaiterPc.tested, first]
  | commitReturns _ passed =>
      exact invariant.leave (invariant.called_of_passed size_lt waiting passed)
  | cancelWaits _ =>
      refine invariant.frame_waiting busy waiting.symm ?_
      simp [WaiterPc.tested]
  | cancelTries _ first =>
      refine invariant.frame_waiting busy waiting.symm ?_
      simp [WaiterPc.tested, first]
  | cancelReturns _ passed =>
      exact invariant.leave (invariant.called_of_passed size_lt waiting passed)

/-- The constructor: nobody holds a ticket. -/
theorem TicketInvariant.initial (size_lt : size < 65535)
    (waiters : ℕ → Waiter) :
    TicketInvariant size (State.initial size waiters : State Thread) where
  outside := fun _ _ => rfl
  epoch := (fields_initialWord size_lt).1
  fetched := fun index waiting => by simp [State.initial, WaiterPc.preWait] at waiting
  line := by
    constructor
    · intro index waiting
      simp [State.initial, WaiterPc.preWait] at waiting
    · intro number above below
      have nobody : waiterField (initialWord size) = 0 :=
        (fields_initialWord size_lt).2.1
      simp only [State.initial, nobody] at above below
      omega
    · intro left right waiting
      simp [State.initial, WaiterPc.preWait] at waiting
  marked := fun index waiting => by simp [State.initial, WaiterPc.preWait] at waiting
  tested := fun index state tested => by
    simp [State.initial, WaiterPc.tested] at tested

variable [DecidableEq Thread]

/-- A notifying thread that moves and may write a link or a signal. -/
theorem TicketInvariant.frame_notifier (invariant : TicketInvariant size system)
    {thread : Thread} {index : ℕ} {waiter : Waiter} {pc : NotifyPc}
    (epoch_eq : waiter.epoch = (system.waiters index).epoch) :
    TicketInvariant size
      ((system.setWaiter index waiter).setNotifying thread pc) := by
  refine invariant.frame rfl rfl rfl rfl ?_ ?_ ?_ ?_
  · intro other
    by_cases same : other = index
    · subst same
      simp [epoch_eq]
    · simp [same]
  · exact fun other => rfl
  · exact fun other idle => idle
  · exact invariant.tested

theorem TicketInvariant.frame_notifying
    (invariant : TicketInvariant size system) {thread : Thread}
    {pc : NotifyPc} :
    TicketInvariant size (system.setNotifying thread pc) := by
  refine invariant.frame rfl rfl rfl rfl ?_ ?_ ?_ ?_
  · exact fun other => rfl
  · exact fun other => rfl
  · exact fun other idle => idle
  · exact invariant.tested

/--
Every step keeps the tickets in line; what the word installed by `notify` does
to the counters is the business of the stack invariant.
-/
theorem TicketInvariant.step (invariant : TicketInvariant size system)
    (size_lt : size < 65535) {action : Action Thread}
    (step : Step size system action target)
    (bounded : epochsBounded system action)
    (serves :
      ∀ thread spurious all newstate loadedAt,
        action = .notifier thread spurious →
        system.notifying thread = .exchange all system.word newstate loadedAt →
        Serves all system.word newstate) :
    TicketInvariant size target := by
  cases step with
  | prepareWait index_lt idle =>
      have count_le := invariant.count_le
      have room : waiterField system.word < 65535 := by omega
      rcases fields_add_waiterInc room with ⟨epoch_eq, waiter_eq, -⟩
      exact invariant.prepareWait index_lt idle epoch_eq waiter_eq
  | commitWait prepared =>
      apply invariant.frame_waiting <;>
        simp [prepared, WaiterPc.preWait, WaiterPc.tested]
  | cancelWait prepared =>
      apply invariant.frame_waiting <;>
        simp [prepared, WaiterPc.preWait, WaiterPc.tested]
  | reset at_reset =>
      refine invariant.frame_waiter rfl ?_ ?_ ?_ <;>
        simp [at_reset, WaiterPc.preWait, WaiterPc.tested]
  | retest tested => exact invariant.retest size_lt tested
  | @link index _ state at_link =>
      have first := invariant.tested index state (by simp [at_link, WaiterPc.tested])
      refine invariant.frame_waiter rfl ?_ ?_ ?_ <;>
        simp [at_link, first, WaiterPc.preWait, WaiterPc.tested]
  | @commit index _ at_exchange =>
      have bounded := bounded (by simp [at_exchange, WaiterPc.decides])
      have waiting : (system.waiting index).preWait = true := by
        simp [at_exchange, WaiterPc.preWait]
      have first :=
        invariant.ticket_eq waiting (by simp [at_exchange, WaiterPc.tested])
          bounded
      have nonempty := invariant.waiters_ne_zero waiting first
      have index_lt : index < size :=
        invariant.index_lt (by simp [at_exchange])
      have pushed :=
        fields_withStack (leavePreWait system.word)
          (by omega : index < 65536)
      have served := fields_leavePreWait nonempty
      exact
        invariant.decided waiting first (pushed.1.trans served.1)
          (pushed.2.1.trans served.2.1) rfl rfl
  | wake parked _ =>
      apply invariant.frame_waiting <;>
        simp [parked, WaiterPc.preWait, WaiterPc.tested]
  | sleep parked _ =>
      refine invariant.frame_waiter rfl ?_ ?_ ?_ <;>
        simp [parked, WaiterPc.preWait, WaiterPc.tested]
  | @cancel index _ at_exchange =>
      have bounded := bounded (by simp [at_exchange, WaiterPc.decides])
      have waiting : (system.waiting index).preWait = true := by
        simp [at_exchange, WaiterPc.preWait]
      have first :=
        invariant.ticket_eq waiting (by simp [at_exchange, WaiterPc.tested])
          bounded
      have served := fields_leavePreWait (invariant.waiters_ne_zero waiting first)
      exact invariant.decided waiting first served.1 served.2.1 rfl rfl
  | notify _ => exact invariant.frame_notifying
  | notifyLoad _ _ => exact invariant.frame_notifying
  | notifyLoadNext _ => exact invariant.frame_notifying
  | @notifyExchange thread spurious all newstate loadedAt pc at_exchange won =>
      have served :=
        invariant.notifyExchange size_lt
          (serves thread spurious all newstate loadedAt rfl at_exchange)
      exact served.frame_notifying
  | unlink _ => exact invariant.frame_notifier rfl
  | unparkLoad _ => exact invariant.frame_notifying
  | unparkSignal _ => exact invariant.frame_notifier rfl

end AsyncRuntime.WorkNotifier
