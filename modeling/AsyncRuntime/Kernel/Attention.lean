import AsyncRuntime.Kernel.Step

/-!
# What the coroutine waits for

When `AsyncInit` is called only after the previous coroutine has ended, the
kernel has one coroutine, and the notifier serves it alone: the promise the
coroutine awaits is the current one, and it stays unsatisfied only as long as
none of the awaited events is raised.  From this it follows that a running
kernel sleeps through neither a termination nor a subscription.
-/

namespace AsyncRuntime.Kernel

open AsyncRuntime.Foundation
open AsyncRuntime.Dataflow

universe u v w x

variable {Name : Type u} {User : Type v} {Message : Type w} {Client : Type x}

/-- `AsyncInit` is called only after the previous coroutine has ended. -/
def restartsEnded (state : State Name User Message Client) :
    Action Name User Message Client → Prop
  | .asyncInit => state.current.pc.ended = true
  | _ => True

instance (state : State Name User Message Client) (action : Action Name User Message Client) :
    Decidable (restartsEnded state action) :=
  match action with
  | .asyncInit => inferInstanceAs (Decidable (state.current.pc.ended = true))
  | .run | .asyncTerminate | .controller => inferInstanceAs (Decidable True)
  | .coroutine _ _ | .call _ _ | .client _ => inferInstanceAs (Decidable True)

/-- The events that end a wait at this point. -/
def WatchPoint.watches : WatchPoint → KernelEvent → Bool
  | .any, _ => true
  | .subscription _, event => decide (event ∈ waitedEvents)

/-- The value of a watch contains one of the events it waited for. -/
def Answers : WatchPoint → Flags → Prop
  | .any, _ => True
  | .subscription _, value =>
      ∃ event, event ∈ waitedEvents ∧ hasState value event.flag = true

/-- The promise of a wait is the current one and hears its events. -/
structure Armed (notifier : Notifier) (point : WatchPoint) (promise : ℕ) :
    Prop where
  current : promise = notifier.promise
  watches_eq :
    ∀ event : KernelEvent, notifier.watches event.flag = point.watches event
  answers :
    ∀ value, notifier.values promise = some value → Answers point value

/-- What holds of the future the coroutine awaits. -/
def Watching (notifier : Notifier) : LoopPc Name → Prop
  | .await point future =>
      match future with
      | .resolved value => Answers point value
      | .promise promise => Armed notifier point promise
  | .suspended point promise => Armed notifier point promise
  | _ => True

/-- The flush that precedes a wait for subscribers. -/
def FlushPlace.waits : FlushPlace → Bool
  | .beforeWait _ => true
  | _ => false

/-- The coroutine awaits a future or is about to wait for subscribers. -/
def LoopPc.listens : LoopPc Name → Bool
  | .flush place _ => place.waits
  | .asyncWatch _ => true
  | .await _ _ => true
  | .suspended _ _ => true
  | _ => false

section

variable {notifier : Notifier} {point : WatchPoint} {promise : ℕ}

theorem Armed.notify (armed : Armed notifier point promise)
    (event : KernelEvent) : Armed (notifier.notify event.flag) point promise where
  current := by
    rw [Notifier.notify_promise]
    exact armed.current
  watches_eq := by
    intro other
    rw [← armed.watches_eq other]
    simp [Notifier.watches]
  answers := by
    intro value stored
    rw [Notifier.notify_values] at stored
    split at stored
    · rename_i sets
      cases stored
      have watched := sets.2.2
      rw [armed.watches_eq] at watched
      cases point with
      | any => trivial
      | subscription caller =>
          refine ⟨event, of_decide_eq_true watched, ?_⟩
          simp
    · exact armed.answers value stored

theorem Watching.notify {pc : LoopPc Name} (watching : Watching notifier pc)
    (event : KernelEvent) : Watching (notifier.notify event.flag) pc := by
  cases pc with
  | await point future =>
      cases future with
      | resolved value => exact watching
      | promise promise => exact Armed.notify watching event
  | suspended point promise => exact Armed.notify watching event
  | _ => trivial

/-- An armed promise is never broken. -/
theorem Armed.poll_ne_broken (armed : Armed notifier point promise) :
    notifier.poll (.promise promise) ≠ .broken := by
  rw [armed.current]
  cases stored : notifier.values notifier.promise <;>
    simp [Notifier.poll, stored]

theorem poll_ne_broken {future : WatchFuture}
    (watching : Watching notifier (.await point future : LoopPc Name)) :
    notifier.poll future ≠ .broken := by
  cases future with
  | resolved value => simp [Notifier.poll]
  | promise promise => exact Armed.poll_ne_broken watching

/-- The value a wait ends with answers it. -/
theorem answers_of_ready {future : WatchFuture} {value : Flags}
    (watching : Watching notifier (.await point future : LoopPc Name))
    (ready : notifier.poll future = .ready value) : Answers point value := by
  cases future with
  | resolved found =>
      simp only [Notifier.poll, Poll.ready.injEq] at ready
      subst value
      exact watching
  | promise promise =>
      apply Armed.answers watching value
      cases stored : notifier.values promise with
      | none =>
          simp only [Notifier.poll, stored] at ready
          split at ready <;> simp at ready
      | some found =>
          simp only [Notifier.poll, stored, Poll.ready.injEq] at ready
          rw [ready]

/-- While an armed promise is pending, none of its events is raised. -/
theorem Armed.quiet (armed : Armed notifier point promise)
    (sound : notifier.Sound)
    (pending : notifier.poll (.promise promise) = .pending)
    {event : KernelEvent} (watched : point.watches event = true) :
    hasState notifier.notifyState event.flag = false := by
  have unnotified := (sound.poll_eq_pending promise).mp pending
  apply sound.quiet event.toFlag unnotified.2
  rw [event.mask_toFlag, armed.watches_eq]
  exact watched

theorem watching_asyncWatch (sound : notifier.Sound) (caller : WaitCaller) :
    Watching (notifier.asyncWatch (waitedEvents.map KernelEvent.flag)).1
      (.await (.subscription caller)
        (notifier.asyncWatch (waitedEvents.map KernelEvent.flag)).2 :
          LoopPc Name) := by
  cases answer :
      (notifier.asyncWatch (waitedEvents.map KernelEvent.flag)).2 with
  | resolved value => exact Notifier.exists_of_asyncWatch_resolved answer
  | promise promise =>
      have current := Notifier.asyncWatch_promise answer
      constructor
      · exact current
      · intro event
        rw [Notifier.asyncWatch_fst]
        simpa [Notifier.watches, Notifier.rearm, WatchPoint.watches] using
          foldl_or_flag 0#8 waitedEvents event
      · intro value stored
        rw [current, Notifier.asyncWatch_fst] at stored
        have unset := sound.later _ (Nat.lt_succ_self notifier.promise)
        simp only [Notifier.rearm] at stored
        simp [unset] at stored

theorem watching_asyncWatchAny :
    Watching notifier.asyncWatchAny.1
      (.await .any notifier.asyncWatchAny.2 : LoopPc Name) := by
  cases answer : notifier.asyncWatchAny.2 with
  | resolved value => trivial
  | promise promise =>
      exact
        ⟨(Notifier.asyncWatchAny_promise answer).1, fun _ => rfl,
          fun _ _ => trivial⟩

end

/-! ## Places between two waits -/

/-- The coroutine is inside `OnUpdate` or the loop around it, and not waiting. -/
def LoopPc.updates : LoopPc Name → Bool
  | .loopTest => true
  | .subscribersEmpty _ => true
  | .flush place _ => !place.waits
  | .waitActivate _ => true
  | .asyncWatchAny => true
  | .onProcess _ _ => true
  | .onSinkSubscription _ => true
  | .terminateUnsubscribeAll => true
  | _ => false

theorem listens_of_updates {pc : LoopPc Name} (updates : pc.updates = true) :
    pc.listens = false := by
  cases pc <;> simp_all [LoopPc.updates, LoopPc.listens]

theorem watching_of_listens_eq_false {notifier : Notifier} {pc : LoopPc Name}
    (elsewhere : pc.listens = false) : Watching notifier pc := by
  cases pc <;> trivial

theorem watching_of_updates {notifier : Notifier} {pc : LoopPc Name}
    (updates : pc.updates = true) : Watching notifier pc :=
  watching_of_listens_eq_false (listens_of_updates updates)

theorem listens_unwind (standard : Bool) :
    (unwind standard : LoopPc Name).listens = false := by
  cases standard <;> rfl

section

variable (config : Config Name) (events : Flags)

theorem updates_afterWait (caller : WaitCaller) :
    (afterWait caller : LoopPc Name).updates = true := by
  cases caller <;> rfl

theorem updates_dispatchUnsubscription :
    (dispatchUnsubscription events : LoopPc Name).updates = true := by
  unfold dispatchUnsubscription
  split <;> rfl

theorem updates_dispatchTerminate :
    (dispatchTerminate config events).updates = true := by
  unfold dispatchTerminate dispatchSubscription
  split
  · rfl
  · split
    · rfl
    · exact updates_dispatchUnsubscription events

theorem updates_dispatch (point : WatchPoint) :
    (dispatch config events point).updates = true := by
  cases point with
  | any =>
      simp only [dispatch, dispatchProcess]
      split
      · rfl
      · exact updates_dispatchTerminate config events
  | subscription caller =>
      simp only [dispatch, dispatchWait]
      split
      · rfl
      · split
        · rfl
        · exact updates_afterWait caller

end

/-! ## One coroutine -/

/-- Only the last coroutine is alive, and the notifier serves it. -/
structure Attended (state : State Name User Message Client) : Prop where
  alone : ∀ index, index ≠ state.generation → (state.pc index).ended = true
  sound : state.shared.notifier.Sound
  watching : Watching state.shared.notifier (state.pc state.generation)

variable {state target : State Name User Message Client}

/-- Only the last coroutine is suspended. -/
theorem Attended.index_eq_of_suspended (attended : Attended state)
    {index promise : ℕ} {point : WatchPoint}
    (suspended : state.pc index = .suspended point promise) :
    index = state.generation := by
  by_contra different
  have ended := attended.alone index different
  rw [suspended] at ended
  exact Bool.noConfusion ended

theorem Attended.armed (attended : Attended state) {promise : ℕ}
    {point : WatchPoint}
    (suspended : state.pc state.generation = .suspended point promise) :
    Armed state.shared.notifier point promise := by
  have watching := attended.watching
  rw [suspended] at watching
  exact watching

variable [DecidableEq Name]
variable {config : Config Name} {kernel moved : Shared Name User Message Client}
variable {pc after : LoopPc Name} {choice : Choice Name}

/-- A coroutine that has ended makes no move. -/
theorem Move.ended_eq_false
    (move : Move config kernel pc choice moved after) : pc.ended = false := by
  cases move <;> rfl

theorem Move.sound (move : Move config kernel pc choice moved after)
    (sound : kernel.notifier.Sound) : moved.notifier.Sound := by
  cases move with
  | watches caller => exact sound.rearm false _
  | watchesAny => exact sound.rearm true _
  | _ => exact sound

theorem Move.watching (move : Move config kernel pc choice moved after)
    (sound : kernel.notifier.Sound) (watching : Watching kernel.notifier pc) :
    Watching moved.notifier after := by
  cases move with
  | watches caller => exact watching_asyncWatch sound caller
  | watchesAny => exact watching_asyncWatchAny
  | sleeps point pending => exact watching
  | initThrows standard =>
      exact watching_of_listens_eq_false (listens_unwind standard)
  | initFailedThrows error standard =>
      exact watching_of_listens_eq_false (listens_unwind standard)
  | findsSubscribers caller free =>
      exact watching_of_updates (updates_afterWait caller)
  | flushed place =>
      cases place with
      | afterSubscription caller =>
          exact watching_of_updates (updates_afterWait caller)
      | _ => trivial
  | awaits point ready =>
      exact watching_of_updates (updates_dispatch config _ point)
  | wakes point ready =>
      exact watching_of_updates (updates_dispatch config _ point)
  | processed events drained =>
      exact watching_of_updates (updates_dispatchTerminate config events)
  | processThrows events drained standard =>
      exact watching_of_listens_eq_false (listens_unwind standard)
  | activates events =>
      exact watching_of_updates (updates_dispatchUnsubscription events)
  | disposeThrows standard =>
      exact watching_of_listens_eq_false (listens_unwind standard)
  | _ => trivial

variable {action : Action Name User Message Client}

/-- Only the last coroutine moves. -/
theorem Attended.index_eq (attended : Attended state) {index : ℕ}
    (step : CoroutineStep config state target index choice) :
    index = state.generation := by
  by_contra different
  have ended := attended.alone index different
  rw [step.move.ended_eq_false] at ended
  exact Bool.noConfusion ended

variable [DecidableEq User]

/-- A client leaves the notifier alone or notifies it, though not of `TERMINATE`. -/
theorem ClientMove.notifier {client : Client}
    {before afterwards : ClientPc Name User Message}
    (move : ClientMove config kernel client before moved afterwards) :
    moved.notifier = kernel.notifier ∨
      ∃ event : KernelEvent, event ≠ .terminate ∧
        moved.notifier = kernel.notifier.notify event.flag := by
  cases move with
  | writeNotifies => exact .inr ⟨.readSource, by decide, rfl⟩
  | subscribeNotifies => exact .inr ⟨.sinkSubscription, by decide, rfl⟩
  | unsubscribeNotifies => exact .inr ⟨.sinkUnsubscription, by decide, rfl⟩
  | _ => exact .inl rfl

theorem Attended.step (attended : Attended state)
    (step : Step config state action target)
    (permitted : restartsEnded state action) : Attended target := by
  cases step with
  | asyncInit idle =>
      constructor
      · intro index different
        replace different : index ≠ state.generation + 1 := different
        have older : (state.pc index).ended = true := by
          by_cases last : index = state.generation
          · rw [last]
            exact permitted
          · exact attended.alone index last
        simpa [State.pc, different] using older
      · exact attended.sound
      · simp [State.pc, Watching]
  | run idle => exact ⟨attended.alone, attended.sound, attended.watching⟩
  | asyncTerminate idle =>
      exact ⟨attended.alone, attended.sound, attended.watching⟩
  | controller move =>
      have effect := move.effect
      constructor
      · intro index different
        rw [effect.generation_eq] at different
        rw [effect.pc_eq]
        exact attended.alone index different
      · rcases effect.shared_eq with ⟨⟨stored, shared_eq⟩, -⟩ | ⟨shared_eq, -⟩
        · rw [shared_eq]
          exact attended.sound
        · rw [shared_eq]
          exact attended.sound.notify KernelEvent.terminate.toFlag
      · rw [effect.generation_eq, effect.pc_eq]
        rcases effect.shared_eq with ⟨⟨stored, shared_eq⟩, -⟩ | ⟨shared_eq, -⟩
        · rw [shared_eq]
          exact attended.watching
        · rw [shared_eq]
          exact attended.watching.notify .terminate
  | @coroutine _ index _ step =>
      have here := attended.index_eq step
      subst here
      constructor
      · intro other different
        rw [step.generation_eq] at different
        rw [State.pc, step.others other different]
        exact attended.alone other different
      · exact step.move.sound attended.sound
      · rw [step.generation_eq]
        exact step.move.watching attended.sound attended.watching
  | client step =>
      have alone (index : ℕ) (different : index ≠ target.generation) :
          (target.pc index).ended = true := by
        rw [step.generation_eq] at different
        rw [step.pc_eq]
        exact attended.alone index different
      rcases step.move.notifier with notifier_eq | ⟨event, -, notifier_eq⟩
      · refine ⟨alone, ?_, ?_⟩
        · rw [notifier_eq]
          exact attended.sound
        · rw [notifier_eq, step.generation_eq, step.pc_eq]
          exact attended.watching
      · refine ⟨alone, ?_, ?_⟩
        · rw [notifier_eq]
          exact attended.sound.notify event.toFlag
        · rw [notifier_eq, step.generation_eq, step.pc_eq]
          exact attended.watching.notify event

variable [DecidableEq Client]

theorem attended_of_reachable
    (reachable : (system User Message Client config).ReachableUnder restartsEnded state) :
    Attended state := by
  refine reachable.invariant ?_ ?_
  · rintro state rfl
    exact ⟨fun _ _ => rfl, Notifier.sound_fresh, trivial⟩
  · intro source action target _ permitted taken attended
    exact attended.step (step_of_next taken) permitted

end AsyncRuntime.Kernel
