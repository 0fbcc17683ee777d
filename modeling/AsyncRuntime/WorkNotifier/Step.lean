import AsyncRuntime.WorkNotifier.Model

/-!
# What one step of the event count can do

`Step` lists the possible steps with their guards and effects, in the terms of
the packed fields instead of the masks of the source.  Every invariant below is
proved by going through this list once; `step_of_next` connects it to the step
function.
-/

namespace AsyncRuntime.WorkNotifier

open AsyncRuntime.Foundation

universe u

variable {Thread : Type u} [DecidableEq Thread]

/-- The program counters at which a waiter tests a freshly read state word. -/
inductive Retest : WaiterPc → Waiter → Word → WaiterPc → Prop where
  | commitWaits {source : WaiterPc} {waiter : Waiter} {word : Word}
      (inside : source = .commitLoad ∨ ∃ state, source = .commitExchange state) :
      Retest source waiter word .commitLoad
  | commitLinks {source : WaiterPc} {waiter : Waiter} {word : Word}
      (inside : source = .commitLoad ∨ ∃ state, source = .commitExchange state)
      (first : epochDistance word waiter.epoch = 0) :
      Retest source waiter word (.commitLink word)
  | commitReturns {source : WaiterPc} {waiter : Waiter} {word : Word}
      (inside : source = .commitLoad ∨ ∃ state, source = .commitExchange state)
      (passed : 0 < epochDistance word waiter.epoch) :
      Retest source waiter word .idle
  | cancelWaits {source : WaiterPc} {waiter : Waiter} {word : Word}
      (inside : source = .cancelLoad ∨ ∃ state, source = .cancelExchange state) :
      Retest source waiter word .cancelLoad
  | cancelTries {source : WaiterPc} {waiter : Waiter} {word : Word}
      (inside : source = .cancelLoad ∨ ∃ state, source = .cancelExchange state)
      (first : epochDistance word waiter.epoch = 0) :
      Retest source waiter word (.cancelExchange word)
  | cancelReturns {source : WaiterPc} {waiter : Waiter} {word : Word}
      (inside : source = .cancelLoad ∨ ∃ state, source = .cancelExchange state)
      (passed : 0 < epochDistance word waiter.epoch) :
      Retest source waiter word .idle

theorem retest_commitTest {source : WaiterPc} (waiter : Waiter) (word : Word)
    (inside : source = .commitLoad ∨ ∃ state, source = .commitExchange state) :
    Retest source waiter word (commitTest waiter word) := by
  unfold commitTest
  split
  · exact .commitWaits inside
  · split
    · rename_i passed
      exact .commitReturns inside passed
    · exact .commitLinks inside (by omega)

theorem retest_cancelTest {source : WaiterPc} (waiter : Waiter) (word : Word)
    (inside : source = .cancelLoad ∨ ∃ state, source = .cancelExchange state) :
    Retest source waiter word (cancelTest waiter word) := by
  unfold cancelTest
  split
  · exact .cancelWaits inside
  · split
    · rename_i passed
      exact .cancelReturns inside passed
    · exact .cancelTries inside (by omega)

/-- A waiter that tests the state word is in pre-wait. -/
theorem Retest.preWait {source pc : WaiterPc} {waiter : Waiter} {word : Word}
    (tested : Retest source waiter word pc) : source.preWait = true := by
  cases tested with
  | commitWaits inside =>
      rcases inside with rfl | ⟨state, rfl⟩ <;> rfl
  | commitLinks inside first =>
      rcases inside with rfl | ⟨state, rfl⟩ <;> rfl
  | commitReturns inside passed =>
      rcases inside with rfl | ⟨state, rfl⟩ <;> rfl
  | cancelWaits inside =>
      rcases inside with rfl | ⟨state, rfl⟩ <;> rfl
  | cancelTries inside first =>
      rcases inside with rfl | ⟨state, rfl⟩ <;> rfl
  | cancelReturns inside passed =>
      rcases inside with rfl | ⟨state, rfl⟩ <;> rfl

/-- What `notify` does with a freshly read state word. -/
inductive NotifyTest (word : Word) (epochs : ℕ) : Bool → NotifyPc → Prop where
  | nobody {all : Bool} (empty : stackTop word = none)
      (none : waiterField word = 0) :
      NotifyTest word epochs all (.returned .none)
  | everybody :
      NotifyTest word epochs true (.exchange true word (releaseAll word) epochs)
  | preWait (some : waiterField word ≠ 0) :
      NotifyTest word epochs false
        (.exchange false word (leavePreWait word) epochs)
  | pop (none : waiterField word = 0) (nonempty : stackTop word ≠ .none) :
      NotifyTest word epochs false (.loadNext word epochs)

theorem waiters_eq_zero_iff (word : Word) :
    (word &&& kWaiterMask) >>> kWaiterShift = 0 ↔ waiterField word = 0 := by
  rw [← BitVec.toNat_inj, toNat_waiters]
  rfl

theorem notifyTest_cases (all : Bool) (word : Word) (epochs : ℕ) :
    NotifyTest word epochs all (notifyTest all word epochs) := by
  unfold notifyTest
  simp only [and_stackMask_eq_iff, and_waiterMask_eq_iff, ne_eq,
    waiters_eq_zero_iff, add_sub_eq_leavePreWait]
  split
  · rename_i easy
    exact .nobody easy.1 easy.2
  · rename_i busy
    cases all with
    | true => exact .everybody
    | false =>
        simp only [Bool.false_eq_true, if_false]
        split
        · rename_i some
          exact .preWait some
        · rename_i none
          rw [not_not] at none
          exact .pop none fun empty => busy ⟨empty, none⟩

/-- Where `notify` continues after its compare-exchange succeeded on `word`. -/
inductive NotifyWon (word : Word) : Bool → NotifyPc → Prop where
  | preWait (some : waiterField word ≠ 0) :
      NotifyWon word false (.returned none)
  | nobodyParked {all : Bool} (empty : stackTop word = none) :
      NotifyWon word all (.returned none)
  | everybody {top : ℕ} (first : stackTop word = some top) :
      NotifyWon word true (.unparkLoad top top)
  | pop {top : ℕ} (none : waiterField word = 0)
      (first : stackTop word = some top) :
      NotifyWon word false (.unlink top)

theorem notifyWon_cases (all : Bool) (word : Word) :
    NotifyWon word all (notifyWon all word) := by
  unfold notifyWon
  simp only [and_stackMask_eq_iff, ne_eq, waiters_eq_zero_iff,
    toNat_and_stackMask]
  split
  · rename_i preWait
    cases all
    · exact .preWait preWait.2
    · simp at preWait
  · rename_i rest
    split
    · rename_i empty
      exact .nobodyParked empty
    · rename_i nonempty
      have first : stackTop word = some (stackField word) := by
        unfold stackTop at nonempty ⊢
        split at nonempty
        · exact absurd rfl nonempty
        · rename_i marked
          rw [if_neg marked]
      cases all
      · refine .pop ?_ first
        by_contra some
        exact rest ⟨by simp, some⟩
      · exact .everybody first

/-- The link a committing waiter stores. -/
theorem commitLink_eq (state : Word) :
    (if state &&& kStackMask = kStackMask then none
      else some (state &&& kStackMask).toNat) = stackTop state := by
  simp only [and_stackMask_eq_iff, toNat_and_stackMask]
  unfold stackTop
  split
  · simp
  · simp

/-- The steps of the event count, with guards and effects. -/
inductive Step (size : ℕ) (system : State Thread) :
    Action Thread → State Thread → Prop where
  | prepareWait {index : ℕ} (index_lt : index < size)
      (idle : system.waiting index = .idle) :
      Step size system (.prepareWait index)
        (system.prepare index (system.word + kWaiterInc))
  | commitWait {index : ℕ} (prepared : system.waiting index = .prepared) :
      Step size system (.commitWait index)
        (system.setWaiting index .commitReset)
  | cancelWait {index : ℕ} (prepared : system.waiting index = .prepared) :
      Step size system (.cancelWait index)
        (system.setWaiting index .cancelLoad)
  | reset {index : ℕ} {spurious : Bool}
      (at_reset : system.waiting index = .commitReset) :
      Step size system (.waiter index spurious)
        ((system.setWaiter index
            { system.waiters index with state := .kNotSignaled }).setWaiting
          index .commitLoad)
  | retest {index : ℕ} {spurious : Bool} {pc : WaiterPc}
      (tested :
        Retest (system.waiting index) (system.waiters index) system.word pc) :
      Step size system (.waiter index spurious) (system.setWaiting index pc)
  | link {index : ℕ} {spurious : Bool} {state : Word}
      (at_link : system.waiting index = .commitLink state) :
      Step size system (.waiter index spurious)
        ((system.setWaiter index
            { system.waiters index with next := stackTop state }).setWaiting
          index (.commitExchange state))
  | commit {index : ℕ} {spurious : Bool}
      (at_exchange : system.waiting index = .commitExchange system.word) :
      Step size system (.waiter index spurious)
        ((system.serve (withStack (leavePreWait system.word) index)).setWaiting
          index (.parked false))
  | wake {index : ℕ} {spurious popped : Bool}
      (parked : system.waiting index = .parked popped)
      (signaled : (system.waiters index).state = .kSignaled) :
      Step size system (.waiter index spurious)
        (system.setWaiting index .idle)
  | sleep {index : ℕ} {spurious popped : Bool}
      (parked : system.waiting index = .parked popped)
      (unsignaled : (system.waiters index).state ≠ .kSignaled) :
      Step size system (.waiter index spurious)
        ((system.setWaiter index
            { system.waiters index with state := .kWaiting }).setWaiting
          index (.parked popped))
  | cancel {index : ℕ} {spurious : Bool}
      (at_exchange : system.waiting index = .cancelExchange system.word) :
      Step size system (.waiter index spurious)
        ((system.serve (leavePreWait system.word)).setWaiting index .idle)
  | notify {thread : Thread} {all : Bool} {result : Option ℕ}
      (outside : system.notifying thread = .returned result) :
      Step size system (.notify thread all)
        (system.setNotifying thread (.load all))
  | notifyLoad {thread : Thread} {spurious all : Bool} {pc : NotifyPc}
      (inside :
        system.notifying thread = .load all ∨
          ∃ state newstate loadedAt,
            system.notifying thread = .exchange all state newstate loadedAt)
      (tested : NotifyTest system.word system.epochs all pc) :
      Step size system (.notifier thread spurious)
        (system.setNotifying thread pc)
  | notifyLoadNext {thread : Thread} {spurious : Bool} {state : Word}
      {loadedAt : ℕ} (at_next : system.notifying thread = .loadNext state loadedAt) :
      Step size system (.notifier thread spurious)
        (system.setNotifying thread
          (.exchange false state
            (popStack state (system.waiters (stackField state)).next) loadedAt))
  | notifyExchange {thread : Thread} {spurious all : Bool} {newstate : Word}
      {loadedAt : ℕ} {pc : NotifyPc}
      (at_exchange :
        system.notifying thread = .exchange all system.word newstate loadedAt)
      (won : NotifyWon system.word all pc) :
      Step size system (.notifier thread spurious)
        ((system.notifyEffect all system.word newstate).setNotifying thread pc)
  | unlink {thread : Thread} {spurious : Bool} {index : ℕ}
      (at_unlink : system.notifying thread = .unlink index) :
      Step size system (.notifier thread spurious)
        ((system.setWaiter index
            { system.waiters index with next := none }).setNotifying thread
          (.unparkLoad index index))
  | unparkLoad {thread : Thread} {spurious : Bool} {first index : ℕ}
      (at_load : system.notifying thread = .unparkLoad first index) :
      Step size system (.notifier thread spurious)
        (system.setNotifying thread
          (.unparkSignal first index (system.waiters index).next))
  | unparkSignal {thread : Thread} {spurious : Bool} {first index : ℕ}
      {following : Option ℕ}
      (at_signal :
        system.notifying thread = .unparkSignal first index following) :
      Step size system (.notifier thread spurious)
        ((system.setWaiter index
            { system.waiters index with state := .kSignaled }).setNotifying thread
          (unparkNext first following))

theorem step_of_waiterStep {size : ℕ} {system target : State Thread} {index : ℕ}
    {spurious : Bool} (taken : waiterStep system index spurious = some target) :
    Step size system (.waiter index spurious) target := by
  unfold waiterStep at taken
  cases pc : system.waiting index with
  | idle => simp [pc] at taken
  | prepared => simp [pc] at taken
  | commitReset =>
      simp only [pc, Option.some.injEq] at taken
      subst taken
      exact .reset pc
  | commitLoad =>
      simp only [pc, Option.some.injEq] at taken
      subst taken
      exact .retest (retest_commitTest _ _ (.inl pc))
  | commitLink state =>
      simp only [pc, Option.some.injEq, commitLink_eq] at taken
      subst taken
      exact .link pc
  | commitExchange state =>
      simp only [pc] at taken
      split at taken
      · rename_i won
        rw [Option.some.injEq] at taken
        subst taken
        rcases won.1 with rfl
        exact .commit pc
      · rw [Option.some.injEq] at taken
        subst taken
        exact .retest (retest_commitTest _ _ (.inr ⟨state, pc⟩))
  | parked popped =>
      simp only [pc] at taken
      split at taken
      · rename_i signaled
        rw [Option.some.injEq] at taken
        subst taken
        exact .wake pc signaled
      · rename_i unsignaled
        rw [Option.some.injEq] at taken
        subst taken
        exact .sleep pc unsignaled
  | cancelLoad =>
      simp only [pc, Option.some.injEq] at taken
      subst taken
      exact .retest (retest_cancelTest _ _ (.inl pc))
  | cancelExchange state =>
      simp only [pc] at taken
      split at taken
      · rename_i won
        rw [Option.some.injEq] at taken
        subst taken
        rcases won.1 with rfl
        exact .cancel pc
      · rw [Option.some.injEq] at taken
        subst taken
        exact .retest (retest_cancelTest _ _ (.inr ⟨state, pc⟩))

theorem step_of_notifyStep {size : ℕ} {system target : State Thread}
    {thread : Thread} {spurious : Bool}
    (taken : notifyStep system thread spurious = some target) :
    Step size system (.notifier thread spurious) target := by
  unfold notifyStep at taken
  cases pc : system.notifying thread with
  | returned result => simp [pc] at taken
  | load all =>
      simp only [pc, Option.some.injEq] at taken
      subst taken
      exact .notifyLoad (.inl pc) (notifyTest_cases _ _ _)
  | loadNext state loadedAt =>
      simp only [pc, Option.some.injEq, toNat_and_stackMask] at taken
      subst taken
      exact .notifyLoadNext pc
  | exchange all state newstate loadedAt =>
      simp only [pc] at taken
      split at taken
      · rename_i won
        rw [Option.some.injEq] at taken
        subst taken
        rcases won.1 with rfl
        exact .notifyExchange pc (notifyWon_cases _ _)
      · rw [Option.some.injEq] at taken
        subst taken
        exact
          .notifyLoad (.inr ⟨state, newstate, loadedAt, pc⟩)
            (notifyTest_cases _ _ _)
  | unlink index =>
      simp only [pc, Option.some.injEq] at taken
      subst taken
      exact .unlink pc
  | unparkLoad first index =>
      simp only [pc, Option.some.injEq] at taken
      subst taken
      exact .unparkLoad pc
  | unparkSignal first index following =>
      simp only [pc, Option.some.injEq] at taken
      subst taken
      exact .unparkSignal pc

/-- The step function takes only the listed steps. -/
theorem step_of_next {size : ℕ} {system target : State Thread}
    {action : Action Thread} (taken : next size system action = some target) :
    Step size system action target := by
  cases action with
  | prepareWait index =>
      simp only [next] at taken
      split at taken
      · rename_i enabled
        rw [Option.some.injEq] at taken
        subst taken
        exact .prepareWait enabled.1 enabled.2
      · simp at taken
  | commitWait index =>
      simp only [next] at taken
      split at taken
      · rename_i prepared
        rw [Option.some.injEq] at taken
        subst taken
        exact .commitWait prepared
      · simp at taken
  | cancelWait index =>
      simp only [next] at taken
      split at taken
      · rename_i prepared
        rw [Option.some.injEq] at taken
        subst taken
        exact .cancelWait prepared
      · simp at taken
  | waiter index spurious => exact step_of_waiterStep taken
  | notify thread all =>
      simp only [next] at taken
      split at taken
      · rename_i result outside
        rw [Option.some.injEq] at taken
        subst taken
        exact .notify outside
      · simp at taken
  | notifier thread spurious => exact step_of_notifyStep taken

end AsyncRuntime.WorkNotifier
