import AsyncRuntime.Dataflow.Notifier
import Mathlib.Data.List.Induction

/-!
# What the futures of a notifier deliver

The calls of `Notify`, `AsyncWatch` and `AsyncWatchAny` on one notifier form a
sequence, since each of them holds the mutex.  A session replays such a sequence
and remembers the most recent watch, with the flags notified since, and a log of
the notifications and of the values that were fixed for a future: at the watch
itself when a flag was found, or at the `Notify` that set its promise.  The
promise that a watch installs after it has found a flag belongs to no future.

No wake-up is lost.  A flag may be delivered twice, because the `Notify` that
sets the promise leaves its flag in `notify_state`, where the next watch finds
it again; a watch that finds a flag clears it.
-/

namespace AsyncRuntime.Dataflow

/-- `AsyncWatch(flags..)` or `AsyncWatchAny()`. -/
inductive WatchCall where
  | oneOf (flags : List Flag)
  | any
  deriving DecidableEq

/-- The flags a call watches. -/
def WatchCall.watches : WatchCall → Flag → Bool
  | .oneOf flags, flag => decide (flag ∈ flags)
  | .any, _ => true

/-- The call itself. -/
def WatchCall.perform (notifier : Notifier) : WatchCall → Notifier × WatchFuture
  | .oneOf flags => notifier.asyncWatch (flags.map Flag.mask)
  | .any => notifier.asyncWatchAny

/-- A call on the notifier. -/
inductive Call where
  | notify (flag : Flag)
  | watch (call : WatchCall)
  deriving DecidableEq

/--
A watch: its call, `notify_state` at that moment, its future, and the flags
notified since.
-/
structure Watch where
  call : WatchCall
  undelivered : Flags
  future : WatchFuture
  since : List Flag
  deriving DecidableEq

/-- A notification, or the moment at which the value of a future is fixed. -/
inductive Event where
  | notified (flag : Flag)
  | fixed (value : Flags)
  deriving DecidableEq

/-- A notifier and what happened to it, the latest first. -/
structure Session where
  notifier : Notifier
  latest : Option Watch
  log : List Event

/-- `Notify` calls `promise.set_value`. -/
def Notifier.sets (notifier : Notifier) (state : Flags) : Bool :=
  notifier.watches state && !notifier.notified

/-- The value that a watch fixes at once. -/
def WatchFuture.fixes : WatchFuture → List Event
  | .resolved value => [.fixed value]
  | .promise _ => []

/-- The value of the promise that the future belongs to. -/
def WatchFuture.promised (notifier : Notifier) : WatchFuture → Option Flags
  | .resolved _ => none
  | .promise name => notifier.values name

namespace Session

/-- The notifier is new. -/
def create : Session where
  notifier := .fresh
  latest := none
  log := []

/-- The most recent watch has returned the future of the current promise. -/
def expects (session : Session) : Bool :=
  match session.latest with
  | none => false
  | some watch => decide (watch.future = .promise session.notifier.promise)

/-- The value by which the promise of the most recent watch was resolved. -/
def answer (session : Session) : Option Flags :=
  session.latest.bind fun watch => watch.future.promised session.notifier

/-- One call. -/
def perform (session : Session) : Call → Session
  | .notify flag =>
      { notifier := session.notifier.notify flag.mask
        latest :=
          session.latest.map fun watch =>
            { watch with since := flag :: watch.since }
        log :=
          (if session.expects && session.notifier.sets flag.mask then
            [.fixed (session.notifier.notifyState ||| flag.mask)]
          else
            []) ++ .notified flag :: session.log }
  | .watch call =>
      let watched := call.perform session.notifier
      { notifier := watched.1
        latest := some ⟨call, session.notifier.notifyState, watched.2, []⟩
        log := watched.2.fixes ++ session.log }

/-- A sequence of calls. -/
def after (calls : List Call) : Session :=
  calls.foldl perform create

theorem after_concat (calls : List Call) (call : Call) :
    after (calls ++ [call]) = (after calls).perform call := by
  simp [after]

end Session

/-! ## What a watch returns -/

namespace WatchCall

variable {notifier : Notifier} {call : WatchCall}

/-- A watch installs a new promise and watches its flags. -/
theorem perform_fst (call : WatchCall) (notifier : Notifier) :
    ∃ watchAny watchState,
      (call.perform notifier).1 = notifier.rearm watchAny watchState ∧
        ∀ flag : Flag,
          (notifier.rearm watchAny watchState).watches flag.mask =
            call.watches flag := by
  cases call with
  | oneOf flags =>
      refine ⟨false, _, rfl, ?_⟩
      intro flag
      simp [Notifier.watches, Notifier.rearm, foldl_or_mask, WatchCall.watches]
  | any => exact ⟨true, 0#8, rfl, fun _ => rfl⟩

/-- A resolved future holds the watched flags that were raised. -/
theorem perform_resolved {value : Flags}
    (resolved : (call.perform notifier).2 = .resolved value) (flag : Flag) :
    hasState value flag.mask =
      (call.watches flag && hasState notifier.notifyState flag.mask) := by
  cases call with
  | oneOf flags =>
      simp only [perform, Notifier.asyncWatch, Notifier.futureOf] at resolved
      split at resolved
      · cases resolved
      · cases resolved
        rw [foldl_checkNotifications_mask, hasState_zero_mask, Bool.false_or]
        rfl
  | any =>
      rw [Notifier.asyncWatchAny_resolved resolved]
      rfl

/-- A future with a promise means that no watched flag was raised. -/
theorem perform_promise {name : ℕ}
    (promised : (call.perform notifier).2 = .promise name) :
    name = (call.perform notifier).1.promise ∧
      ∀ flag : Flag, call.watches flag = true →
        hasState notifier.notifyState flag.mask = false := by
  cases call with
  | oneOf flags =>
      refine ⟨Notifier.asyncWatch_promise promised, ?_⟩
      intro flag watched
      simp only [perform, Notifier.asyncWatch, Notifier.futureOf] at promised
      split at promised
      · rename_i silent
        have found :=
          foldl_checkNotifications_mask notifier.notifyState 0#8 flags flag
        rw [silent, hasState_zero_mask, Bool.false_or,
          show decide (flag ∈ flags) = true from watched, Bool.true_and] at found
        exact found.symm
      · cases promised
  | any =>
      rcases Notifier.asyncWatchAny_promise promised with ⟨current, silent⟩
      refine ⟨current, ?_⟩
      intro flag _
      rw [silent]
      exact hasState_zero_mask flag

end WatchCall

namespace Session

/-! ## No lost wake-up -/

/-- The promise of the most recent watch is the current one. -/
def Listens (notifier : Notifier) (watch : Watch) : WatchFuture → Prop
  | .resolved _ => True
  | .promise name =>
      name = notifier.promise ∧
        (∀ flag : Flag,
          notifier.watches flag.mask = watch.call.watches flag) ∧
        (∀ flag : Flag, watch.call.watches flag = true →
          hasState watch.undelivered flag.mask = false) ∧
        ∀ flag, flag ∈ watch.since →
          hasState notifier.notifyState flag.mask = true

/-- The five fields of the notifier agree with what happened. -/
structure Listening (session : Session) : Prop where
  sound : session.notifier.Sound
  latest :
    ∀ watch, session.latest = some watch →
      Listens session.notifier watch watch.future

theorem listening_create : create.Listening where
  sound := Notifier.sound_fresh
  latest := by simp [create]

variable {session : Session}

theorem Listening.notify (listening : session.Listening) (flag : Flag) :
    (session.perform (.notify flag)).Listening := by
  constructor
  · exact listening.sound.notify flag
  · intro watch is_latest
    simp only [perform, Option.map_eq_some_iff] at is_latest
    rcases is_latest with ⟨earlier, was_latest, rfl⟩
    have listens := listening.latest earlier was_latest
    cases future_eq : earlier.future with
    | resolved value => trivial
    | promise name =>
        rw [future_eq] at listens
        rcases listens with ⟨current, watches, undelivered, since⟩
        refine ⟨?_, ?_, undelivered, ?_⟩
        · simpa [perform] using current
        · simpa [perform, Notifier.watches] using watches
        · intro other member
          simp only [perform, Notifier.notify_notifyState, hasState_or_mask,
            Bool.or_eq_true, decide_eq_true_eq]
          rcases List.mem_cons.mp member with rfl | older
          · exact .inr rfl
          · exact .inl (since other older)

theorem Listening.watch (listening : session.Listening) (call : WatchCall) :
    (session.perform (.watch call)).Listening := by
  rcases call.perform_fst session.notifier with
    ⟨watchAny, watchState, rearmed, watches⟩
  constructor
  · simp only [perform, rearmed]
    exact listening.sound.rearm watchAny watchState
  · intro watch is_latest
    simp only [perform, Option.some.injEq] at is_latest
    subst watch
    cases future_eq : (call.perform session.notifier).2 with
    | resolved value => trivial
    | promise name =>
        rcases WatchCall.perform_promise future_eq with ⟨current, silent⟩
        refine ⟨current, ?_, silent, ?_⟩
        · simpa [perform, rearmed] using watches
        · simp

theorem listening_after (calls : List Call) : (after calls).Listening := by
  induction calls using List.reverseRecOn with
  | nil => exact listening_create
  | append_singleton calls call inductionHypothesis =>
      rw [after_concat]
      cases call with
      | notify flag => exact inductionHypothesis.notify flag
      | watch call => exact inductionHypothesis.watch call

/--
After every sequence of calls: `Notify` sets the promise only if it is
unsatisfied, and if the future of the most recent watch is pending, no flag that
it watches has been notified since, and none was left in `notify_state` before.
-/
theorem no_lost_wakeup (calls : List Call) :
    (∀ flag : Flag, (after calls).notifier.sets flag.mask = true →
        (after calls).notifier.values (after calls).notifier.promise = none) ∧
      ∀ watch, (after calls).latest = some watch →
        (after calls).notifier.poll watch.future = .pending →
          ∀ flag : Flag, watch.call.watches flag = true →
            flag ∉ watch.since ∧
              hasState watch.undelivered flag.mask = false := by
  rcases listening_after calls with ⟨sound, latest⟩
  constructor
  · intro flag sets
    rw [sound.unset]
    simp only [Notifier.sets, Bool.and_eq_true, Bool.not_eq_true'] at sets
    exact sets.2
  · intro watch is_latest pending flag watched
    have listens := latest watch is_latest
    cases future_eq : watch.future with
    | resolved value =>
        rw [future_eq] at pending
        cases pending
    | promise name =>
        rw [future_eq] at listens pending
        rcases listens with ⟨current, watches, undelivered, since⟩
        refine ⟨?_, undelivered flag watched⟩
        intro notified
        have unnotified := ((sound.poll_eq_pending name).mp pending).2
        have quiet :=
          sound.quiet flag unnotified ((watches flag).trans watched)
        exact absurd ((since flag notified).symm.trans quiet) (by decide)

/-- A watch that nobody has answered, and a flag that it does not watch. -/
theorem no_lost_wakeup_pending :
    ∃ watch,
      (after [.watch (.oneOf [1]), .notify 2]).latest = some watch ∧
        (after [.watch (.oneOf [1]), .notify 2]).notifier.poll watch.future =
          .pending ∧
        (1 : Flag) ∉ watch.since ∧
        hasState watch.undelivered (1 : Flag).mask = false := by
  refine ⟨⟨.oneOf [1], 0#8, .promise 1, [2]⟩, rfl, rfl, ?_⟩
  exact (no_lost_wakeup [.watch (.oneOf [1]), .notify 2]).2 _ rfl rfl 1 rfl

/-! ## Deliveries -/

/--
Between two fixed values with the same flag, the flag has been notified.  The
log has the latest event first.
-/
def DeliveredOnce (log : List Event) : Prop :=
  ∀ newer value middle previous older (flag : Flag),
    log = newer ++ .fixed value :: (middle ++ .fixed previous :: older) →
      hasState value flag.mask = true → hasState previous flag.mask = true →
        .notified flag ∈ middle

/-- The flag is in a fixed value and has not been notified since. -/
def stale (flag : Flag) : List Event → Bool
  | [] => false
  | .notified other :: log => decide (other ≠ flag) && stale flag log
  | .fixed value :: log => hasState value flag.mask || stale flag log

theorem stale_iff (flag : Flag) (log : List Event) :
    stale flag log = true ↔
      ∃ middle previous older,
        log = middle ++ .fixed previous :: older ∧
          hasState previous flag.mask = true ∧ .notified flag ∉ middle := by
  induction log with
  | nil => simp [stale]
  | cons event log inductionHypothesis =>
      constructor
      · intro is_stale
        cases event with
        | notified other =>
            simp only [stale, Bool.and_eq_true, decide_eq_true_eq] at is_stale
            rcases inductionHypothesis.mp is_stale.2 with
              ⟨middle, previous, older, rfl, has, silent⟩
            refine ⟨.notified other :: middle, previous, older, rfl, has, ?_⟩
            simp [silent, is_stale.1.symm]
        | fixed value =>
            simp only [stale, Bool.or_eq_true] at is_stale
            rcases is_stale with has | earlier
            · exact ⟨[], value, log, rfl, has, by simp⟩
            · rcases inductionHypothesis.mp earlier with
                ⟨middle, previous, older, rfl, has, silent⟩
              exact
                ⟨.fixed value :: middle, previous, older, rfl, has,
                  by simp [silent]⟩
      · rintro ⟨middle, previous, older, log_eq, has, silent⟩
        cases middle with
        | nil =>
            cases log_eq
            simp [stale, has]
        | cons first middle =>
            simp only [List.cons_append, List.cons.injEq] at log_eq
            rcases log_eq with ⟨rfl, log_eq⟩
            have earlier : stale flag log = true :=
              inductionHypothesis.mpr
                ⟨middle, previous, older, log_eq, has,
                  fun member => silent (List.mem_cons_of_mem event member)⟩
            cases event with
            | notified other =>
                have different : other ≠ flag := by
                  rintro rfl
                  exact silent List.mem_cons_self
                simp [stale, earlier, different]
            | fixed value => simp [stale, earlier]

theorem DeliveredOnce.of_cons {event : Event} {log : List Event}
    (once : DeliveredOnce (event :: log)) : DeliveredOnce log := by
  intro newer value middle previous older flag log_eq
  exact once (event :: newer) value middle previous older flag (by rw [log_eq]; rfl)

@[simp]
theorem deliveredOnce_notified (flag : Flag) (log : List Event) :
    DeliveredOnce (.notified flag :: log) ↔ DeliveredOnce log := by
  refine ⟨DeliveredOnce.of_cons, ?_⟩
  intro once newer value middle previous older other log_eq
  cases newer with
  | nil => cases log_eq
  | cons first newer =>
      simp only [List.cons_append, List.cons.injEq] at log_eq
      exact once newer value middle previous older other log_eq.2

@[simp]
theorem deliveredOnce_fixed (value : Flags) (log : List Event) :
    DeliveredOnce (.fixed value :: log) ↔
      DeliveredOnce log ∧
        ∀ flag : Flag, hasState value flag.mask = true →
          stale flag log = false := by
  constructor
  · intro once
    refine ⟨once.of_cons, ?_⟩
    intro flag has
    by_contra is_stale
    rcases (stale_iff flag log).mp (by simpa using is_stale) with
      ⟨middle, previous, older, rfl, contained, silent⟩
    exact silent (once [] value middle previous older flag rfl has contained)
  · rintro ⟨once, unstale⟩ newer latest middle previous older flag log_eq
    cases newer with
    | nil =>
        simp only [List.nil_append, List.cons.injEq, Event.fixed.injEq] at log_eq
        rcases log_eq with ⟨rfl, log_eq⟩
        intro has contained
        by_contra silent
        have is_stale :=
          (stale_iff flag log).mpr
            ⟨middle, previous, older, log_eq, contained, silent⟩
        exact absurd ((unstale flag has).symm.trans is_stale) (by decide)
    | cons first newer =>
        simp only [List.cons_append, List.cons.injEq] at log_eq
        exact once newer latest middle previous older flag log_eq.2

/--
A watch does not ask for a flag that is in the value by which the promise of the
preceding watch was resolved, unless the flag has been notified again.
-/
def Timely (session : Session) : Call → Prop
  | .notify _ => True
  | .watch call =>
      ∀ (flag : Flag) value, call.watches flag = true →
        session.answer = some value → hasState value flag.mask = true →
          stale flag session.log = false

/-- A watch that expects an answer has the current promise. -/
theorem Listening.expects_current (listening : session.Listening) {watch : Watch}
    (is_latest : session.latest = some watch) {name : ℕ}
    (future_eq : watch.future = .promise name) :
    session.expects = true ∧ name = session.notifier.promise := by
  have listens := listening.latest watch is_latest
  rw [future_eq] at listens
  rcases listens with ⟨current, -⟩
  subst current
  simp [expects, is_latest, future_eq]

/-- `Notify` answers the watch that expects it, and nobody else. -/
theorem Listening.answer_notify (listening : session.Listening) (flag : Flag) :
    (session.perform (.notify flag)).answer =
      if session.expects && session.notifier.sets flag.mask then
        some (session.notifier.notifyState ||| flag.mask)
      else
        session.answer := by
  cases is_latest : session.latest with
  | none => simp [answer, perform, expects, is_latest]
  | some watch =>
      cases future_eq : watch.future with
      | resolved value =>
          simp [answer, perform, expects, is_latest, future_eq,
            WatchFuture.promised]
      | promise name =>
          rcases listening.expects_current is_latest future_eq with
            ⟨expected, current⟩
          simp only [answer, perform, is_latest, Option.map_some,
            Option.bind_some, future_eq, WatchFuture.promised, expected,
            Bool.true_and, Notifier.sets, Bool.and_eq_true, Bool.not_eq_true',
            Notifier.notify_values, current, true_and]
          exact if_congr and_comm rfl rfl

/-- The latest watch has no answer before the promise is set. -/
theorem Listening.answer_eq_none (listening : session.Listening)
    (unset : session.notifier.notified = false) : session.answer = none := by
  cases is_latest : session.latest with
  | none => simp [answer, is_latest]
  | some watch =>
      cases future_eq : watch.future with
      | resolved value =>
          simp [answer, is_latest, future_eq, WatchFuture.promised]
      | promise name =>
          have current := (listening.expects_current is_latest future_eq).2
          simpa [answer, is_latest, future_eq, WatchFuture.promised, current] using
            listening.sound.unset.mpr unset

/-- A new watch has no answer yet. -/
theorem Listening.answer_watch (listening : session.Listening)
    (call : WatchCall) : (session.perform (.watch call)).answer = none := by
  rcases call.perform_fst session.notifier with ⟨watchAny, watchState, rearmed, -⟩
  apply (listening.watch call).answer_eq_none
  simp [perform, rearmed, Notifier.rearm]

/-- A flag in `notify_state` is fresh, or was delivered to the latest watch. -/
structure Recorded (session : Session) : Prop where
  listening : session.Listening
  kept :
    ∀ value, session.answer = some value →
      ∀ flag : Flag, hasState value flag.mask = true →
        hasState session.notifier.notifyState flag.mask = true
  known :
    ∀ flag : Flag, hasState session.notifier.notifyState flag.mask = true →
      stale flag session.log = true →
        ∃ value, session.answer = some value ∧ hasState value flag.mask = true

theorem Recorded.notify (recorded : session.Recorded) (flag : Flag) :
    (session.perform (.notify flag)).Recorded := by
  have answered := recorded.listening.answer_notify flag
  constructor
  · exact recorded.listening.notify flag
  · intro value stored other has
    rw [answered] at stored
    simp only [perform, Notifier.notify_notifyState]
    split at stored
    · cases stored
      exact has
    · rw [hasState_or_mask, recorded.kept value stored other has, Bool.true_or]
  · intro other raised is_stale
    rw [answered]
    simp only [perform, Notifier.notify_notifyState] at raised
    cases sets : session.expects && session.notifier.sets flag.mask with
    | true => exact ⟨_, if_pos rfl, raised⟩
    | false =>
        simp only [perform, sets, Bool.false_eq_true, if_false, List.nil_append,
          stale, Bool.and_eq_true, decide_eq_true_eq] at is_stale
        rw [if_neg Bool.false_ne_true]
        apply recorded.known other _ is_stale.2
        simpa [is_stale.1.symm] using raised

theorem Recorded.watch (recorded : session.Recorded) (call : WatchCall) :
    (session.perform (.watch call)).Recorded := by
  rcases call.perform_fst session.notifier with ⟨watchAny, watchState, rearmed, -⟩
  constructor
  · exact recorded.listening.watch call
  · intro value stored
    rw [recorded.listening.answer_watch call] at stored
    cases stored
  · intro flag raised
    simp [perform, rearmed, Notifier.rearm] at raised

theorem recorded_after (calls : List Call) : (after calls).Recorded := by
  induction calls using List.reverseRecOn with
  | nil =>
      refine ⟨listening_create, ?_, ?_⟩
      · simp [after, create, answer]
      · simp [after, create, Notifier.fresh]
  | append_singleton calls call inductionHypothesis =>
      rw [after_concat]
      cases call with
      | notify flag => exact inductionHypothesis.notify flag
      | watch call => exact inductionHypothesis.watch call

/-- One call delivers a flag a second time exactly if it is not timely. -/
theorem Recorded.deliveredOnce_perform (recorded : session.Recorded)
    (call : Call) :
    DeliveredOnce (session.perform call).log ↔
      DeliveredOnce session.log ∧ Timely session call := by
  cases call with
  | notify flag =>
      cases sets : session.expects && session.notifier.sets flag.mask with
      | false => simp [perform, sets, Timely]
      | true =>
          simp only [perform, sets, if_true, List.cons_append, List.nil_append,
            deliveredOnce_fixed, deliveredOnce_notified, Timely, and_true,
            and_iff_left_iff_imp]
          intro _ other raised
          by_contra is_stale
          simp only [stale, Bool.not_eq_false, Bool.and_eq_true,
            decide_eq_true_eq] at is_stale
          -- a promise that is set now was not set before
          have raised_before : hasState session.notifier.notifyState other.mask =
              true := by
            simpa [is_stale.1.symm] using raised
          rcases recorded.known other raised_before is_stale.2 with
            ⟨value, stored, -⟩
          simp only [Notifier.sets, Bool.and_eq_true, Bool.not_eq_true'] at sets
          rw [recorded.listening.answer_eq_none sets.2.2] at stored
          cases stored
  | watch call =>
      cases future_eq : (call.perform session.notifier).2 with
      | promise name =>
          simp only [perform, future_eq, WatchFuture.fixes, List.nil_append,
            iff_self_and]
          intro _ flag value watched stored has
          have silent := (WatchCall.perform_promise future_eq).2 flag watched
          have raised := recorded.kept value stored flag has
          exact absurd (silent.symm.trans raised) (by decide)
      | resolved value =>
          have holds := WatchCall.perform_resolved future_eq
          simp only [perform, future_eq, WatchFuture.fixes, List.cons_append,
            List.nil_append, deliveredOnce_fixed, and_congr_right_iff]
          intro _
          constructor
          · intro unstale flag earlier watched stored has
            apply unstale flag
            rw [holds, watched, recorded.kept earlier stored flag has]
            rfl
          · intro timely flag has
            rw [holds, Bool.and_eq_true] at has
            by_contra is_stale
            rcases recorded.known flag has.2 (by simpa using is_stale) with
              ⟨earlier, stored, contained⟩
            exact is_stale (timely flag earlier has.1 stored contained)

/--
A sequence of calls delivers every notification at most once if and only if none
of its watches asks for a flag in the value by which the promise of the preceding
watch was resolved, without the flag having been notified again.
-/
theorem deliveredOnce_iff_timely (calls : List Call) :
    DeliveredOnce (after calls).log ↔
      ∀ earlier call later, calls = earlier ++ call :: later →
        Timely (after earlier) call := by
  induction calls using List.reverseRecOn with
  | nil =>
      constructor
      · intro _ earlier call later calls_eq
        simp at calls_eq
      · intro _ newer value middle previous older flag log_eq
        simp [after, create] at log_eq
  | append_singleton calls last inductionHypothesis =>
      rw [after_concat, (recorded_after calls).deliveredOnce_perform,
        inductionHypothesis]
      constructor
      · rintro ⟨before, timely⟩ earlier call later calls_eq
        rcases List.eq_nil_or_concat' later with rfl | ⟨rest, final, rfl⟩
        · rcases List.append_inj' calls_eq rfl with ⟨rfl, last_eq⟩
          cases last_eq
          exact timely
        · rw [← List.cons_append, ← List.append_assoc] at calls_eq
          rcases List.append_inj' calls_eq rfl with ⟨rfl, -⟩
          exact before earlier call rest rfl
      · intro every
        refine ⟨?_, every calls last [] rfl⟩
        intro earlier call later calls_eq
        apply every earlier call (later ++ [last])
        rw [calls_eq, List.append_assoc, List.cons_append]

/--
The flag arrives while a watch is waiting, and the next watch finds it again.
-/
theorem delivered_twice :
    ¬ ∀ calls : List Call, DeliveredOnce (after calls).log := by
  intro claim
  have notified :=
    claim [.watch (.oneOf [1]), .notify 1, .watch (.oneOf [1])] [] 2#8 [] 2#8
      [.notified 1] 1 rfl rfl rfl
  simp at notified

end Session

end AsyncRuntime.Dataflow
