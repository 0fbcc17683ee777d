import Mathlib.Data.List.Basic
import Mathlib.Logic.Function.Basic
import Mathlib.Order.Fin.Basic
import Mathlib.Tactic.Common
import Mathlib.Tactic.Simps.Basic

/-!
# `Dataflow::Notifier`

A notifier coalesces flags into one byte and resolves the promise of the most
recent watch as soon as a watched flag is raised.  Every method runs under the
notifier's mutex and is one step.

Each watch installs a new promise.  A promise is named by a number, and the
values of all promises installed so far are kept, so that a future stays
meaningful after its promise has been replaced: an unresolved future whose
promise is gone is broken.
-/

namespace AsyncRuntime.Dataflow

/-- The flags are stored in a `uint8_t`. -/
abbrev Flags := BitVec 8

/-- `KernelEvent`; `kKERNEL_EVENT_ANY` has the value of `READ_SOURCE`. -/
inductive KernelEvent where
  | readSource
  | terminate
  | sinkSubscription
  | sinkUnsubscription
  deriving DecidableEq

/-- The position of the event's bit. -/
def KernelEvent.bit : KernelEvent → ℕ
  | .readSource => 1
  | .terminate => 2
  | .sinkSubscription => 3
  | .sinkUnsubscription => 4

/-- The value of the enumerator, `1 << bit`. -/
def KernelEvent.flag (event : KernelEvent) : Flags :=
  BitVec.twoPow 8 event.bit

/-- `Notifier::HasState`. -/
def hasState (states state : Flags) : Bool :=
  states &&& state == state

/-- What a watch returns: a resolved future or the future of a promise. -/
inductive WatchFuture where
  | resolved (value : Flags)
  | promise (name : ℕ)
  deriving DecidableEq

/-- The state of a future. -/
inductive Poll where
  | ready (value : Flags)
  | pending
  | broken
  deriving DecidableEq

/-- The fields of `Dataflow::Notifier`. -/
structure Notifier where
  promise : ℕ
  values : ℕ → Option Flags
  notified : Bool
  watchAny : Bool
  watchState : Flags
  notifyState : Flags

namespace Notifier

/-- A default constructed notifier. -/
def fresh : Notifier where
  promise := 0
  values := fun _ => none
  notified := false
  watchAny := false
  watchState := 0#8
  notifyState := 0#8

/-- The condition under which `Notify` resolves the promise. -/
def watches (notifier : Notifier) (state : Flags) : Bool :=
  notifier.watchAny || hasState notifier.watchState state

/-- `notify_state |= state`. -/
@[simps]
def raise (notifier : Notifier) (state : Flags) : Notifier :=
  { notifier with notifyState := notifier.notifyState ||| state }

/-- `notified = true; promise.set_value(notify_state)`. -/
@[simps]
def setValue (notifier : Notifier) : Notifier :=
  { notifier with
    notified := true
    values :=
      Function.update notifier.values notifier.promise
        (some notifier.notifyState) }

/-- `Notify`. -/
def notify (notifier : Notifier) (state : Flags) : Notifier :=
  if notifier.watches state then
    if !notifier.notified then
      (notifier.raise state).setValue
    else
      notifier.raise state
  else
    notifier.raise state

/-- `CheckNotifications`. -/
def checkNotifications (notifyState notifications state : Flags) : Flags :=
  if hasState notifyState state then notifications ||| state else notifications

/-- Both branches of a watch install a new promise and forget all flags. -/
def rearm (notifier : Notifier) (watchAny : Bool) (watchState : Flags) :
    Notifier where
  promise := notifier.promise + 1
  values := notifier.values
  notified := false
  watchAny := watchAny
  watchState := watchState
  notifyState := 0#8

/-- The future of a watch that found `notifications`. -/
def futureOf (notifier : Notifier) (notifications : Flags) : WatchFuture :=
  if notifications = 0#8 then
    .promise notifier.promise
  else
    .resolved notifications

/-- `AsyncWatch`. -/
def asyncWatch (notifier : Notifier) (states : List Flags) :
    Notifier × WatchFuture :=
  let notifications :=
    states.foldl (checkNotifications notifier.notifyState) 0#8
  let rearmed := notifier.rearm false (states.foldl (· ||| ·) 0#8)
  (rearmed, rearmed.futureOf notifications)

/-- `AsyncWatchAny`. -/
def asyncWatchAny (notifier : Notifier) : Notifier × WatchFuture :=
  let rearmed := notifier.rearm true 0#8
  (rearmed, rearmed.futureOf notifier.notifyState)

/-- What `has_value` and `has_exception` see. -/
def poll (notifier : Notifier) : WatchFuture → Poll
  | .resolved value => .ready value
  | .promise name =>
      match notifier.values name with
      | some value => .ready value
      | none => if name = notifier.promise then .pending else .broken

end Notifier

/-! ## Single flags -/

/-- One of the eight flags, by the position of its bit. -/
abbrev Flag := Fin 8

/-- The value of the flag, `1 << bit`. -/
def Flag.mask (flag : Flag) : Flags :=
  BitVec.twoPow 8 flag

theorem Flag.getLsbD_mask (flag other : Flag) :
    flag.mask.getLsbD other = decide (other = flag) := by
  rw [Flag.mask, BitVec.getLsbD_twoPow]
  simp [Fin.ext_iff, eq_comm]

theorem hasState_mask (states : Flags) (flag : Flag) :
    hasState states flag.mask = states.getLsbD flag := by
  have set : flag.mask ≠ 0#8 := by
    intro zero
    have bit := flag.getLsbD_mask flag
    simp [zero] at bit
  unfold hasState
  rw [show states &&& flag.mask = _ from BitVec.and_twoPow states flag]
  cases raised : states.getLsbD flag
  · simpa using set.symm
  · simp [Flag.mask]

@[simp]
theorem hasState_zero_mask (flag : Flag) : hasState 0#8 flag.mask = false := by
  rw [hasState_mask]
  exact BitVec.getLsbD_zero

@[simp]
theorem hasState_or_mask (states : Flags) (flag other : Flag) :
    hasState (states ||| other.mask) flag.mask =
      (hasState states flag.mask || decide (flag = other)) := by
  rw [hasState_mask, hasState_mask, BitVec.getLsbD_or, Flag.getLsbD_mask]

theorem foldl_checkNotifications_mask (notifyState start : Flags)
    (flags : List Flag) (flag : Flag) :
    hasState
        ((flags.map Flag.mask).foldl (Notifier.checkNotifications notifyState)
          start) flag.mask =
      (hasState start flag.mask ||
        decide (flag ∈ flags) && hasState notifyState flag.mask) := by
  induction flags generalizing start with
  | nil => simp
  | cons first rest inductionHypothesis =>
      rw [List.map_cons, List.foldl_cons, inductionHypothesis,
        Notifier.checkNotifications]
      by_cases same : flag = first
      · subst first
        cases raised : hasState notifyState flag.mask <;> simp
      · split <;> simp [same]

theorem foldl_or_mask (start : Flags) (flags : List Flag) (flag : Flag) :
    hasState ((flags.map Flag.mask).foldl (· ||| ·) start) flag.mask =
      (hasState start flag.mask || decide (flag ∈ flags)) := by
  induction flags generalizing start with
  | nil => simp
  | cons first rest inductionHypothesis =>
      rw [List.map_cons, List.foldl_cons, inductionHypothesis,
        hasState_or_mask, Bool.or_assoc]
      simp [List.mem_cons]

/-! ## Flags of events -/

theorem KernelEvent.bit_lt (event : KernelEvent) : event.bit < 8 := by
  cases event <;> decide

/-- The flag of an event. -/
def KernelEvent.toFlag (event : KernelEvent) : Flag :=
  ⟨event.bit, event.bit_lt⟩

theorem KernelEvent.toFlag_injective : Function.Injective KernelEvent.toFlag := by
  intro left right same
  cases left <;> cases right <;>
    simp [KernelEvent.toFlag, KernelEvent.bit] at same <;> rfl

theorem KernelEvent.mask_toFlag (event : KernelEvent) :
    event.toFlag.mask = event.flag := rfl

theorem KernelEvent.map_flag (events : List KernelEvent) :
    events.map KernelEvent.flag =
      (events.map KernelEvent.toFlag).map Flag.mask := by
  rw [List.map_map]
  rfl

@[simp]
theorem hasState_zero (event : KernelEvent) :
    hasState 0#8 event.flag = false :=
  hasState_zero_mask event.toFlag

@[simp]
theorem hasState_or_flag (states : Flags) (event other : KernelEvent) :
    hasState (states ||| other.flag) event.flag =
      (hasState states event.flag || decide (event = other)) := by
  rw [← event.mask_toFlag, ← other.mask_toFlag, hasState_or_mask]
  simp [KernelEvent.toFlag_injective.eq_iff]

theorem foldl_checkNotifications (notifyState start : Flags)
    (events : List KernelEvent) (event : KernelEvent) :
    hasState
        ((events.map KernelEvent.flag).foldl
          (Notifier.checkNotifications notifyState) start) event.flag =
      (hasState start event.flag ||
        decide (event ∈ events) && hasState notifyState event.flag) := by
  rw [KernelEvent.map_flag, ← event.mask_toFlag, foldl_checkNotifications_mask]
  simp only [List.mem_map_of_injective KernelEvent.toFlag_injective]

theorem foldl_or_flag (start : Flags) (events : List KernelEvent)
    (event : KernelEvent) :
    hasState ((events.map KernelEvent.flag).foldl (· ||| ·) start)
        event.flag =
      (hasState start event.flag || decide (event ∈ events)) := by
  rw [KernelEvent.map_flag, ← event.mask_toFlag, foldl_or_mask]
  simp only [List.mem_map_of_injective KernelEvent.toFlag_injective]

/-- `CheckNotifications` collects nothing exactly when nothing was raised. -/
theorem foldl_checkNotifications_eq_zero (notifyState : Flags)
    (events : List KernelEvent)
    (silent :
      ∀ event, event ∈ events → hasState notifyState event.flag = false) :
    (events.map KernelEvent.flag).foldl
      (Notifier.checkNotifications notifyState) 0#8 = 0#8 := by
  induction events with
  | nil => rfl
  | cons first rest inductionHypothesis =>
      rw [List.map_cons, List.foldl_cons, Notifier.checkNotifications,
        silent first List.mem_cons_self]
      exact inductionHypothesis fun event member =>
        silent event (List.mem_cons_of_mem first member)

namespace Notifier

/-! ## `Notify` -/

variable (notifier : Notifier) (state : Flags)

@[simp]
theorem notify_promise : (notifier.notify state).promise = notifier.promise := by
  unfold notify
  split <;> (try split) <;> rfl

@[simp]
theorem notify_watchAny :
    (notifier.notify state).watchAny = notifier.watchAny := by
  unfold notify
  split <;> (try split) <;> rfl

@[simp]
theorem notify_watchState :
    (notifier.notify state).watchState = notifier.watchState := by
  unfold notify
  split <;> (try split) <;> rfl

@[simp]
theorem notify_notifyState :
    (notifier.notify state).notifyState = notifier.notifyState ||| state := by
  unfold notify
  split <;> (try split) <;> rfl

@[simp]
theorem notify_notified :
    (notifier.notify state).notified =
      (notifier.notified || notifier.watches state) := by
  unfold notify
  cases already : notifier.notified <;>
    cases watched : notifier.watches state <;> simp [already]

/-- Only the current promise receives a value, and only its first one. -/
theorem notify_values (name : ℕ) :
    (notifier.notify state).values name =
      if name = notifier.promise ∧ notifier.notified = false ∧
          notifier.watches state = true then
        some (notifier.notifyState ||| state)
      else
        notifier.values name := by
  unfold notify
  by_cases here : name = notifier.promise <;>
    cases notifier.notified <;> cases notifier.watches state <;> simp [here]

variable {notifier}

/--
The flag `notified` says that the current promise is satisfied, and as long as
it is not, no watched flag has been raised.
-/
structure Sound (notifier : Notifier) : Prop where
  later : ∀ name, notifier.promise < name → notifier.values name = none
  unset :
    notifier.values notifier.promise = none ↔ notifier.notified = false
  quiet :
    ∀ flag : Flag,
      notifier.notified = false → notifier.watches flag.mask = true →
        hasState notifier.notifyState flag.mask = false

theorem sound_fresh : fresh.Sound where
  later := fun _ _ => rfl
  unset := by simp [fresh]
  quiet := fun flag _ _ => hasState_zero_mask flag

theorem Sound.notify (sound : notifier.Sound) (flag : Flag) :
    (notifier.notify flag.mask).Sound where
  later := by
    intro name above
    rw [notify_promise] at above
    rw [notify_values, if_neg (by omega)]
    exact sound.later name above
  unset := by
    rw [notify_promise, notify_values, notify_notified]
    split
    · rename_i sets
      simp [sets.2]
    · rename_i keeps
      rw [sound.unset]
      cases already : notifier.notified <;> simp_all
  quiet := by
    intro other unnotified watched
    simp only [notify_notified, Bool.or_eq_false_iff] at unnotified
    replace watched : notifier.watches other.mask = true := by
      simpa [watches] using watched
    have different : other ≠ flag := by
      rintro rfl
      rw [watched] at unnotified
      exact Bool.noConfusion unnotified.2
    simp [sound.quiet other unnotified.1 watched, different]

theorem Sound.rearm (sound : notifier.Sound) (watchAny : Bool)
    (watchState : Flags) : (notifier.rearm watchAny watchState).Sound where
  later := fun name above => sound.later name (Nat.lt_of_succ_lt above)
  unset := by
    have unset := sound.later _ (Nat.lt_succ_self notifier.promise)
    simpa [Notifier.rearm] using unset
  quiet := fun flag _ _ => hasState_zero_mask flag

/-- A future is pending exactly while its promise is current and unsatisfied. -/
theorem Sound.poll_eq_pending (sound : notifier.Sound) (name : ℕ) :
    notifier.poll (.promise name) = .pending ↔
      name = notifier.promise ∧ notifier.notified = false := by
  rw [← sound.unset]
  cases stored : notifier.values name with
  | some value =>
      simp only [poll, stored, reduceCtorEq, false_iff, not_and]
      rintro rfl
      simp [stored]
  | none =>
      by_cases current : name = notifier.promise
      · simp [poll, ← current, stored]
      · simp [poll, current, stored]

/-! ## Watches -/

variable (notifier)

@[simp]
theorem asyncWatch_fst (states : List Flags) :
    (notifier.asyncWatch states).1 =
      notifier.rearm false (states.foldl (· ||| ·) 0#8) := rfl

@[simp]
theorem asyncWatchAny_fst :
    notifier.asyncWatchAny.1 = notifier.rearm true 0#8 := rfl

variable {notifier}

/-- A watched event that was raised before is in the value of the watch. -/
theorem asyncWatch_of_raised (events : List KernelEvent) {event : KernelEvent}
    (watched : event ∈ events)
    (raised : hasState notifier.notifyState event.flag = true) :
    ∃ value,
      (notifier.asyncWatch (events.map KernelEvent.flag)).2 = .resolved value ∧
        hasState value event.flag = true := by
  have found :=
    foldl_checkNotifications notifier.notifyState 0#8 events event
  rw [raised, decide_eq_true watched, hasState_zero] at found
  refine ⟨_, ?_, found⟩
  simp only [asyncWatch, futureOf]
  rw [if_neg]
  intro zero
  rw [zero, hasState_zero] at found
  simp at found

/-- A watch that returns a resolved future has found one of its events. -/
theorem exists_of_asyncWatch_resolved {events : List KernelEvent}
    {value : Flags}
    (resolved :
      (notifier.asyncWatch (events.map KernelEvent.flag)).2 =
        .resolved value) :
    ∃ event, event ∈ events ∧ hasState value event.flag = true := by
  by_contra none_found
  push Not at none_found
  simp only [asyncWatch, futureOf] at resolved
  split at resolved
  · simp at resolved
  · rename_i nonzero
    simp only [WatchFuture.resolved.injEq] at resolved
    subst value
    apply nonzero
    apply foldl_checkNotifications_eq_zero
    intro event watched
    have unheard := none_found event watched
    rw [foldl_checkNotifications] at unheard
    rw [decide_eq_true watched, Bool.true_and] at unheard
    simpa using unheard

theorem asyncWatch_promise {states : List Flags} {name : ℕ}
    (promised : (notifier.asyncWatch states).2 = .promise name) :
    name = (notifier.asyncWatch states).1.promise := by
  simp only [asyncWatch, futureOf] at promised
  split at promised
  · simpa [eq_comm] using promised
  · simp at promised

theorem asyncWatchAny_promise {name : ℕ}
    (promised : notifier.asyncWatchAny.2 = .promise name) :
    name = notifier.asyncWatchAny.1.promise ∧ notifier.notifyState = 0#8 := by
  simp only [asyncWatchAny, futureOf] at promised
  split at promised
  · rename_i zero
    simp only [WatchFuture.promise.injEq] at promised
    exact ⟨promised.symm, zero⟩
  · simp at promised

theorem asyncWatchAny_resolved {value : Flags}
    (resolved : notifier.asyncWatchAny.2 = .resolved value) :
    value = notifier.notifyState := by
  simp only [asyncWatchAny, futureOf] at resolved
  split at resolved
  · simp at resolved
  · simpa [eq_comm] using resolved

end Notifier

end AsyncRuntime.Dataflow
