import AsyncRuntime.Foundation.TransitionSystem
import AsyncRuntime.WorkNotifier.StateWord
import Mathlib.Logic.Function.Basic
import Mathlib.Tactic.Simps.Basic

/-!
# The event count `WorkNotifier`

Waiter threads call `prepare_wait` and then exactly one of `commit_wait` and
`cancel_wait`; any thread may call `notify`.  Every load, `fetch_add`,
compare-exchange and store of a link or of a waiter's signal is one step, and a
`compare_exchange_weak` may fail spuriously.  A `Waiter *` is its index in
`_waiters`.  A waiter blocked in `cv.wait` may wake up at any moment and looks at
its signal again, as the loop in `_park` does.

Three history variables record what the words no longer show: how often the
epoch has been incremented, the value of that count at each waiter's last
`prepare_wait`, and which waiters in pre-wait have been notified.
-/

namespace AsyncRuntime.WorkNotifier

open AsyncRuntime.Foundation

universe u

/-- `Waiter::state`. -/
inductive Signal where
  | kNotSignaled
  | kWaiting
  | kSignaled
  deriving DecidableEq

/-- `WorkNotifier::Waiter`. -/
structure Waiter where
  next : Option ℕ
  epoch : Word
  state : Signal

/--
Where the thread of a waiter is.  `prepared` lies between `prepare_wait` and the
decision; `parked popped` is inside `_park` after a successful commit, and
`popped` records whether a notify has taken the waiter off the stack.
-/
inductive WaiterPc where
  | idle
  | prepared
  | commitReset
  | commitLoad
  | commitLink (state : Word)
  | commitExchange (state : Word)
  | parked (popped : Bool)
  | cancelLoad
  | cancelExchange (state : Word)
  deriving DecidableEq

/--
Where a notifying thread is.  `returned` carries what the last `notify`
returned.  `loadedAt` is the epoch count when the state word was loaded.
-/
inductive NotifyPc where
  | returned (result : Option ℕ)
  | load (all : Bool)
  | loadNext (state : Word) (loadedAt : ℕ)
  | exchange (all : Bool) (state newstate : Word) (loadedAt : ℕ)
  | unlink (waiter : ℕ)
  | unparkLoad (first waiter : ℕ)
  | unparkSignal (first waiter : ℕ) (next : Option ℕ)
  deriving DecidableEq

/-- The shared memory, the threads and the history. -/
structure State (Thread : Type u) where
  word : Word
  waiters : ℕ → Waiter
  waiting : ℕ → WaiterPc
  notifying : Thread → NotifyPc
  epochs : ℕ
  preparedAt : ℕ → ℕ
  notified : ℕ → Bool

variable {Thread : Type u}

/-- The waiter is between `prepare_wait` and its decision. -/
def WaiterPc.preWait : WaiterPc → Bool
  | .idle => false
  | .parked _ => false
  | _ => true

/-- The loop body of `commit_wait` on a loaded state. -/
def commitTest (waiter : Waiter) (state : Word) : WaiterPc :=
  if epochDistance state waiter.epoch < 0 then
    -- the preceding waiter has not decided on its fate
    .commitLoad
  else if 0 < epochDistance state waiter.epoch then
    -- already notified
    .idle
  else
    .commitLink state

/-- The loop body of `cancel_wait` on a loaded state. -/
def cancelTest (waiter : Waiter) (state : Word) : WaiterPc :=
  if epochDistance state waiter.epoch < 0 then
    .cancelLoad
  else if 0 < epochDistance state waiter.epoch then
    .idle
  else
    .cancelExchange state

/-- The word a commit installs: off the pre-wait count, onto the stack. -/
def commitWord (state : Word) (index : ℕ) : Word :=
  withStack (leavePreWait state) index

/-- The loop body of `notify` on a loaded state, up to its compare-exchange. -/
def notifyTest (all : Bool) (state : Word) (loadedAt : ℕ) : NotifyPc :=
  if state &&& kStackMask = kStackMask ∧ state &&& kWaiterMask = 0 then
    -- easy case: no waiters
    .returned none
  else if all then
    .exchange true state (releaseAll state) loadedAt
  else if (state &&& kWaiterMask) >>> kWaiterShift ≠ 0 then
    -- there is a thread in pre-wait state, unblock it
    .exchange false state (state + kEpochInc - kWaiterInc) loadedAt
  else
    -- pop a waiter from list and unpark it
    .loadNext state loadedAt

/-- Where `notify` goes after a successful compare-exchange on `state`. -/
def notifyWon (all : Bool) (state : Word) : NotifyPc :=
  if ¬ all ∧ (state &&& kWaiterMask) >>> kWaiterShift ≠ 0 then
    .returned none
  else if state &&& kStackMask = kStackMask then
    .returned none
  else if all then
    .unparkLoad (state &&& kStackMask).toNat (state &&& kStackMask).toNat
  else
    .unlink (state &&& kStackMask).toNat

/-- `_unpark` follows the link it read before the signal, and ends at `nullptr`. -/
def unparkNext (first : ℕ) : Option ℕ → NotifyPc
  | none => .returned (some first)
  | some following => .unparkLoad first following

/-- The epoch increments a successful compare-exchange of `notify` makes. -/
def notifyIncrements (all : Bool) (state : Word) : ℕ :=
  if all then waiterField state else if waiterField state ≠ 0 then 1 else 0

/--
The waiters in pre-wait that a successful compare-exchange of `notify` unblocks:
all of them, or the one whose ticket is the epoch that is incremented.
-/
def notifiedBy (all : Bool) (state : Word) (waiter : Waiter) : Bool :=
  all ||
    (decide (waiterField state ≠ 0) &&
      decide (modificationEpoch waiter.epoch = state &&& kEpochMask))

/-- The committed waiters a successful compare-exchange of `notify` pops. -/
def poppedBy (all : Bool) (state : Word) (waiter : ℕ) : Bool :=
  all || (decide (waiterField state = 0) && decide (stackTop state = some waiter))

@[simps -fullyApplied]
def State.setWaiter (system : State Thread) (index : ℕ) (waiter : Waiter) :
    State Thread :=
  { system with waiters := Function.update system.waiters index waiter }

@[simps -fullyApplied]
def State.setWaiting (system : State Thread) (index : ℕ) (pc : WaiterPc) :
    State Thread :=
  { system with waiting := Function.update system.waiting index pc }

@[simps -fullyApplied]
def State.setNotifying [DecidableEq Thread] (system : State Thread)
    (thread : Thread) (pc : NotifyPc) : State Thread :=
  { system with notifying := Function.update system.notifying thread pc }

/-- The effect of a deciding waiter's compare-exchange on word and history. -/
@[simps -fullyApplied]
def State.serve (system : State Thread) (word : Word) : State Thread :=
  { system with word := word, epochs := system.epochs + 1 }

/-- The effect of a successful compare-exchange of `notify` on word and history. -/
@[simps -fullyApplied]
def State.notifyEffect (system : State Thread) (all : Bool)
    (state newstate : Word) : State Thread :=
  { system with
    word := newstate
    epochs := system.epochs + notifyIncrements all state
    notified := fun index =>
      system.notified index ||
        ((system.waiting index).preWait &&
          notifiedBy all state (system.waiters index))
    waiting := fun index =>
      match system.waiting index with
      | .parked false => .parked (poppedBy all state index)
      | pc => pc }

/-- One step of the thread of a waiter inside `commit_wait`, `_park` or `cancel_wait`. -/
def waiterStep (system : State Thread) (index : ℕ) (spurious : Bool) :
    Option (State Thread) :=
  let waiter := system.waiters index
  match system.waiting index with
  | .idle => none
  | .prepared => none
  | .commitReset =>
      some
        ((system.setWaiter index { waiter with state := .kNotSignaled }).setWaiting
          index .commitLoad)
  | .commitLoad =>
      some (system.setWaiting index (commitTest waiter system.word))
  | .commitLink state =>
      let next :=
        if state &&& kStackMask = kStackMask then none
        else some (state &&& kStackMask).toNat
      some
        ((system.setWaiter index { waiter with next := next }).setWaiting
          index (.commitExchange state))
  | .commitExchange state =>
      if system.word = state ∧ ¬ spurious then
        some
          ((system.serve (commitWord state index)).setWaiting
            index (.parked false))
      else
        some (system.setWaiting index (commitTest waiter system.word))
  | .parked popped =>
      if waiter.state = .kSignaled then
        some (system.setWaiting index .idle)
      else
        some
          ((system.setWaiter index { waiter with state := .kWaiting }).setWaiting
            index (.parked popped))
  | .cancelLoad =>
      some (system.setWaiting index (cancelTest waiter system.word))
  | .cancelExchange state =>
      if system.word = state ∧ ¬ spurious then
        some ((system.serve (leavePreWait state)).setWaiting index .idle)
      else
        some (system.setWaiting index (cancelTest waiter system.word))

/-- One step of a thread inside `notify` or `_unpark`. -/
def notifyStep [DecidableEq Thread] (system : State Thread) (thread : Thread)
    (spurious : Bool) : Option (State Thread) :=
  match system.notifying thread with
  | .returned _ => none
  | .load all =>
      some
        (system.setNotifying thread (notifyTest all system.word system.epochs))
  | .loadNext state loadedAt =>
      let next := (system.waiters (state &&& kStackMask).toNat).next
      some
        (system.setNotifying thread
          (.exchange false state (popStack state next) loadedAt))
  | .exchange all state newstate _ =>
      if system.word = state ∧ ¬ spurious then
        some
          ((system.notifyEffect all state newstate).setNotifying thread
            (notifyWon all state))
      else
        some
          (system.setNotifying thread
            (notifyTest all system.word system.epochs))
  | .unlink index =>
      some
        ((system.setWaiter index
            { system.waiters index with next := none }).setNotifying thread
          (.unparkLoad index index))
  | .unparkLoad first index =>
      some
        (system.setNotifying thread
          (.unparkSignal first index (system.waiters index).next))
  | .unparkSignal first index next =>
      some
        ((system.setWaiter index
            { system.waiters index with state := .kSignaled }).setNotifying thread
          (unparkNext first next))

/-- The effect of a `prepare_wait` whose `fetch_add` leaves `word`. -/
@[simps -fullyApplied]
def State.prepare (system : State Thread) (index : ℕ) (word : Word) :
    State Thread :=
  { system with
    word := word
    waiters :=
      Function.update system.waiters index
        { system.waiters index with epoch := system.word }
    waiting := Function.update system.waiting index .prepared
    preparedAt := Function.update system.preparedAt index system.epochs
    notified := Function.update system.notified index false }

/-- Calls of the four operations and the steps of the threads inside them. -/
inductive Action (Thread : Type u) where
  | prepareWait (waiter : ℕ)
  | commitWait (waiter : ℕ)
  | cancelWait (waiter : ℕ)
  | waiter (waiter : ℕ) (spurious : Bool)
  | notify (thread : Thread) (all : Bool)
  | notifier (thread : Thread) (spurious : Bool)

/-- The step function of the event count for `size` waiters. -/
def next [DecidableEq Thread] (size : ℕ) (system : State Thread) :
    Action Thread → Option (State Thread)
  | .prepareWait index =>
      if index < size ∧ system.waiting index = .idle then
        some (system.prepare index (system.word + kWaiterInc))
      else none
  | .commitWait index =>
      if system.waiting index = .prepared then
        some (system.setWaiting index .commitReset)
      else none
  | .cancelWait index =>
      if system.waiting index = .prepared then
        some (system.setWaiting index .cancelLoad)
      else none
  | .waiter index spurious => waiterStep system index spurious
  | .notify thread all =>
      match system.notifying thread with
      | .returned _ => some (system.setNotifying thread (.load all))
      | _ => none
  | .notifier thread spurious => notifyStep system thread spurious

/-- `kStackMask | (kEpochMask - kEpochInc * _waiters.size() * 2)`. -/
def initialWord (size : ℕ) : Word :=
  kStackMask ||| (kEpochMask - kEpochInc * BitVec.ofNat 64 size * 2)

/-- The state the constructor builds; the members of `Waiter` are uninitialised. -/
def State.initial (size : ℕ) (waiters : ℕ → Waiter) : State Thread where
  word := initialWord size
  waiters := waiters
  waiting := fun _ => .idle
  notifying := fun _ => .returned none
  epochs := 0
  preparedAt := fun _ => 0
  notified := fun _ => false

/-- The event count for `size` waiters. -/
def system (Thread : Type u) [DecidableEq Thread] (size : ℕ) :
    TransitionSystem (State Thread) (Action Thread) where
  initial := fun state => ∃ waiters, state = State.initial size waiters
  next := next size

/-- The waiter is at the compare-exchange that decides it. -/
def WaiterPc.decides : WaiterPc → Bool
  | .commitExchange _ => true
  | .cancelExchange _ => true
  | _ => false

/-- The epoch count at the load whose compare-exchange is next. -/
def NotifyPc.loadedAt : NotifyPc → Option ℕ
  | .exchange _ _ _ loadedAt => some loadedAt
  | _ => none

/--
Fewer than `2 ^ 31` epoch increments lie between a `prepare_wait` and the
compare-exchange that decides it, and between the load of the state and the
compare-exchange of a `notify` that uses it.
-/
def epochsBounded (system : State Thread) : Action Thread → Prop
  | .waiter index _ =>
      (system.waiting index).decides = true →
        system.epochs - system.preparedAt index < 2 ^ 31
  | .notifier thread _ =>
      ∀ loadedAt ∈ (system.notifying thread).loadedAt,
        system.epochs - loadedAt < 2 ^ 31
  | _ => True

instance (system : State Thread) :
    (action : Action Thread) → Decidable (epochsBounded system action)
  | .prepareWait _ => inferInstanceAs (Decidable True)
  | .commitWait _ => inferInstanceAs (Decidable True)
  | .cancelWait _ => inferInstanceAs (Decidable True)
  | .waiter _ _ => inferInstanceAs (Decidable (_ → _))
  | .notify _ _ => inferInstanceAs (Decidable True)
  | .notifier _ _ => inferInstanceAs (Decidable (∀ _ ∈ _, _))

/-- The state word a deciding waiter has tested. -/
def WaiterPc.tested : WaiterPc → Option Word
  | .commitLink state => some state
  | .commitExchange state => some state
  | .cancelExchange state => some state
  | _ => none

/-- The ticket of a waiter in pre-wait, counted in epoch increments. -/
def State.ticket (system : State Thread) (index : ℕ) : ℕ :=
  system.preparedAt index + waiterField (system.waiters index).epoch

end AsyncRuntime.WorkNotifier
