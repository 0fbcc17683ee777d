import AsyncRuntime.Kernel.Attention

/-!
# A running kernel does not sleep through what it waits for

A `Notify(TERMINATE)` stays visible: either its flag is still in
`notify_state`, or the coroutine has taken it out and is on its way to
`OnTerminate`.  A subscription that completes after the coroutine has seen no
subscribers leaves its flag there until `AsyncWatch` looks for it.  A pending
future excludes both flags.
-/

namespace AsyncRuntime.Kernel

open AsyncRuntime.Foundation
open AsyncRuntime.Dataflow

universe u v w x

variable {Name : Type u} {User : Type v} {Message : Type w} {Client : Type x}

/-! ## Termination -/

/-- The coroutine holds the termination event or is past the loop. -/
def LoopPc.heedsTerminate : LoopPc Name → Bool
  | .await _ future =>
      match future with
      | .resolved value => hasState value KernelEvent.terminate.flag
      | .promise _ => false
  | .onProcess events _ => hasState events KernelEvent.terminate.flag
  | .flush place _ => decide (place = .onTerminate)
  | .terminateUnsubscribeAll => true
  | .storeTerminated => true
  | .dispose => true
  | .catchStore => true
  | .catchDispose => true
  | .resolve _ => true
  | .finished => true
  | .escape => true
  | .escaped => true
  | _ => false

/-- The termination event is pending or heeded. -/
def Heard (notifier : Notifier) (pc : LoopPc Name) : Prop :=
  hasState notifier.notifyState KernelEvent.terminate.flag = true ∨
    pc.heedsTerminate = true

section

variable {config : Config Name} {events : Flags}

theorem heedsTerminate_unwind (standard : Bool) :
    (unwind standard : LoopPc Name).heedsTerminate = true := by
  cases standard <;> rfl

theorem heedsTerminate_dispatchTerminate
    (raised : hasState events KernelEvent.terminate.flag = true) :
    (dispatchTerminate config events).heedsTerminate = true := by
  rw [dispatchTerminate, if_pos raised]
  rfl

theorem heedsTerminate_dispatch (point : WatchPoint)
    (raised : hasState events KernelEvent.terminate.flag = true) :
    (dispatch config events point).heedsTerminate = true := by
  cases point with
  | any =>
      simp only [dispatch, dispatchProcess]
      split
      · exact raised
      · exact heedsTerminate_dispatchTerminate raised
  | subscription caller =>
      simp only [dispatch, dispatchWait]
      rw [if_pos raised]
      rfl

theorem Heard.notify {notifier : Notifier} {pc : LoopPc Name}
    (heard : Heard notifier pc) (event : KernelEvent) :
    Heard (notifier.notify event.flag) pc := by
  rcases heard with raised | heeded
  · left
    simp [raised]
  · exact .inr heeded

theorem heard_notify_terminate (notifier : Notifier) (pc : LoopPc Name) :
    Heard (notifier.notify KernelEvent.terminate.flag) pc := by
  left
  simp

variable [DecidableEq Name] {kernel moved : Shared Name User Message Client}
variable {pc after : LoopPc Name} {choice : Choice Name}

/-- A watch hands the pending termination event to the coroutine. -/
theorem Move.heard_of_raised (move : Move config kernel pc choice moved after)
    (raised :
      hasState kernel.notifier.notifyState KernelEvent.terminate.flag =
        true) :
    Heard moved.notifier after := by
  cases move with
  | watches caller =>
      rcases Notifier.asyncWatch_of_raised waitedEvents (by decide) raised with
        ⟨value, answer, found⟩
      right
      rw [answer]
      exact found
  | watchesAny =>
      right
      cases answer : kernel.notifier.asyncWatchAny.2 with
      | resolved value =>
          simp only [LoopPc.heedsTerminate]
          rw [Notifier.asyncWatchAny_resolved answer]
          exact raised
      | promise promise =>
          have empty := (Notifier.asyncWatchAny_promise answer).2
          rw [empty, hasState_zero] at raised
          exact Bool.noConfusion raised
  | _ => exact .inl raised

/-- A coroutine that heeds the termination event goes on to heed it. -/
theorem Move.heedsTerminate (move : Move config kernel pc choice moved after)
    (heeded : pc.heedsTerminate = true) : after.heedsTerminate = true := by
  cases move with
  | awaits point ready =>
      rename_i future value
      cases future with
      | resolved found =>
          simp only [Notifier.poll, Poll.ready.injEq] at ready
          subst value
          exact heedsTerminate_dispatch point heeded
      | promise promise => simp [LoopPc.heedsTerminate] at heeded
  | flushed place =>
      replace heeded : place = .onTerminate := by
        simpa [LoopPc.heedsTerminate] using heeded
      rw [heeded]
      rfl
  | processed events drained => exact heedsTerminate_dispatchTerminate heeded
  | processThrows events drained standard => exact heedsTerminate_unwind standard
  | disposeThrows standard => exact heedsTerminate_unwind standard
  | flushNext place empty => exact heeded
  | flushPop place => exact heeded
  | drains events drained empty => exact heeded
  | reads events drained name => exact heeded
  | _ => first | rfl | simp [LoopPc.heedsTerminate] at heeded

theorem Move.heard (move : Move config kernel pc choice moved after)
    (heard : Heard kernel.notifier pc) : Heard moved.notifier after := by
  rcases heard with raised | heeded
  · exact move.heard_of_raised raised
  · exact .inr (move.heedsTerminate heeded)

end

/-! ## Subscribers -/

/-- The client is inside `Subscribe` or `Unsubscribe`. -/
def ClientPc.insideSink : ClientPc Name User Message → Bool
  | .subscribeNotify _ _ => true
  | .unsubscribeNotify => true
  | _ => false

/--
A client inside `Subscribe` or `Unsubscribe` holds the mutex, and a subscriber
whose `Subscribe` has returned is in the set of its port.
-/
structure Subscribed (config : Config Name) (kernel : Shared Name User Message Client)
    (clients : Client → ClientPc Name User Message) : Prop where
  holding :
    ∀ client, (clients client).insideSink = true →
      kernel.sinkMutex = some client
  subscribing :
    ∀ client name user, clients client = .subscribeNotify name user →
      name ∈ config.sinkPorts ∧ user ∈ (kernel.sink name).subscribers
  confirmed :
    ∀ name user, user ∈ kernel.confirmed name →
      name ∈ config.sinkPorts ∧ user ∈ (kernel.sink name).subscribers

section

variable {config : Config Name} {kernel moved : Shared Name User Message Client}
variable {clients : Client → ClientPc Name User Message}

/-- At most the holder of the mutex is inside the sink. -/
theorem Subscribed.outside (subscribed : Subscribed config kernel clients)
    {client : Client} (different : kernel.sinkMutex ≠ some client) :
    (clients client).insideSink = false := by
  by_contra inside
  rw [Bool.not_eq_false] at inside
  exact different (subscribed.holding client inside)

theorem Subscribed.of_eq (subscribed : Subscribed config kernel clients)
    (sink_eq : moved.sink = kernel.sink)
    (sinkMutex_eq : moved.sinkMutex = kernel.sinkMutex)
    (confirmed_eq : moved.confirmed = kernel.confirmed) :
    Subscribed config moved clients := by
  constructor
  · rw [sinkMutex_eq]
    exact subscribed.holding
  · rw [sink_eq]
    exact subscribed.subscribing
  · rw [sink_eq, confirmed_eq]
    exact subscribed.confirmed

/-- Empty ports have no confirmed subscribers. -/
theorem Subscribed.nobody_confirmed
    (subscribed : Subscribed config kernel clients)
    (nobody : kernel.subscribersEmpty config = true) (name : Name) (user : User) :
    user ∉ kernel.confirmed name := by
  intro confirmed
  rcases subscribed.confirmed name user confirmed with ⟨known, member⟩
  have empty : (kernel.sink name).subscribers = [] := by
    rw [← Port.subscribersEmpty_iff]
    exact List.all_eq_true.mp nobody name known
  simp [empty] at member

/-- A client that stays outside the sink changes nothing for the others. -/
theorem Subscribed.update_outside [DecidableEq Client]
    (subscribed : Subscribed config kernel clients)
    {client : Client} {after : ClientPc Name User Message}
    (outside : after.insideSink = false) :
    Subscribed config kernel (Function.update clients client after) where
  holding := by
    intro other inside
    by_cases here : other = client
    · subst other
      simp [outside] at inside
    · rw [Function.update_of_ne here] at inside
      exact subscribed.holding other inside
  subscribing := by
    intro other name user place
    by_cases here : other = client
    · subst other
      rw [Function.update_self] at place
      simp [place, ClientPc.insideSink] at outside
    · rw [Function.update_of_ne here] at place
      exact subscribed.subscribing other name user place
  confirmed := subscribed.confirmed

/-- The step of the client that has the sink for itself. -/
theorem Subscribed.update_alone [DecidableEq Client]
    (subscribed : Subscribed config kernel clients)
    {client : Client} {after : ClientPc Name User Message}
    (alone : ∀ other, other ≠ client → kernel.sinkMutex ≠ some other)
    (holding : after.insideSink = true → moved.sinkMutex = some client)
    (subscribing :
      ∀ name user, after = .subscribeNotify name user →
        name ∈ config.sinkPorts ∧ user ∈ (moved.sink name).subscribers)
    (confirmed :
      ∀ name user, user ∈ moved.confirmed name →
        name ∈ config.sinkPorts ∧ user ∈ (moved.sink name).subscribers) :
    Subscribed config moved (Function.update clients client after) where
  holding := by
    intro other inside
    by_cases here : other = client
    · subst other
      rw [Function.update_self] at inside
      exact holding inside
    · rw [Function.update_of_ne here,
        subscribed.outside (alone other here)] at inside
      exact Bool.noConfusion inside
  subscribing := by
    intro other name user place
    by_cases here : other = client
    · subst other
      rw [Function.update_self] at place
      exact subscribing name user place
    · rw [Function.update_of_ne here] at place
      have outside := subscribed.outside (alone other here)
      simp [place, ClientPc.insideSink] at outside
  confirmed := confirmed

variable [DecidableEq Name]

theorem Subscribed.move {pc after : LoopPc Name} {choice : Choice Name}
    (subscribed : Subscribed config kernel clients)
    (move : Move config kernel pc choice moved after) :
    Subscribed config moved clients := by
  cases move with
  | unsubscribesAll free =>
      constructor
      · exact subscribed.holding
      · intro client name user place
        have outside : (clients client).insideSink = false :=
          subscribed.outside (by simp [free])
        simp [place, ClientPc.insideSink] at outside
      · intro name user confirmed
        simp at confirmed
  | _ => exact subscribed.of_eq rfl rfl rfl

variable [DecidableEq User]

/-- Erasing a subscriber takes back its confirmation. -/
theorem mem_unsubscribe_of_confirmed (name : Name) (user : User)
    (confirmed :
      ∀ other member, member ∈ kernel.confirmed other →
        other ∈ config.sinkPorts ∧
          member ∈ (kernel.sink other).subscribers)
    {other : Name} {member : User}
    (kept :
      member ∈
        Function.update kernel.confirmed name
          ((kernel.confirmed name).filter (· ≠ user)) other) :
    other ∈ config.sinkPorts ∧
      member ∈
        (Function.update kernel.sink name
          ((kernel.sink name).unsubscribe user) other).subscribers := by
  by_cases here : other = name
  · subst other
    rw [Function.update_self, List.mem_filter] at kept
    rcases confirmed name member kept.1 with ⟨known, subscribed⟩
    refine ⟨known, ?_⟩
    rw [Function.update_self]
    simp only [Port.unsubscribe, Port.ofSubscribers_subscribers,
      List.mem_filter]
    exact ⟨subscribed, kept.2⟩
  · rw [Function.update_of_ne here] at kept
    rw [Function.update_of_ne here]
    exact confirmed other member kept

theorem mem_subscribe_of_mem {name : Name} {user : User} {other : Name}
    {member : User} (subscribed : member ∈ (kernel.sink other).subscribers) :
    member ∈
      (Function.update kernel.sink name
        ((kernel.sink name).subscribe user) other).subscribers := by
  by_cases here : other = name
  · subst other
    rw [Function.update_self]
    exact List.mem_insert_of_mem subscribed
  · rw [Function.update_of_ne here]
    exact subscribed

theorem Subscribed.clientMove [DecidableEq Client] {client : Client}
    {before after : ClientPc Name User Message}
    (subscribed : Subscribed config kernel clients)
    (place : clients client = before)
    (move : ClientMove config kernel client before moved after) :
    Subscribed config moved (Function.update clients client after) := by
  have alone_of_free (free : kernel.sinkMutex = none) (other : Client)
      (_ : other ≠ client) : kernel.sinkMutex ≠ some other := by
    simp [free]
  have alone_of_inside (inside : before.insideSink = true) (other : Client)
      (different : other ≠ client) : kernel.sinkMutex ≠ some other := by
    rw [subscribed.holding client (by rw [place]; exact inside)]
    simpa [eq_comm] using different
  cases move with
  | subscribes user known free =>
      apply subscribed.update_alone (alone_of_free free)
      · exact fun _ => rfl
      · rintro name user ⟨rfl, rfl⟩
        refine ⟨known, ?_⟩
        simp [Port.subscribe]
      · intro name member confirmed
        rcases subscribed.confirmed name member confirmed with ⟨known, before⟩
        exact ⟨known, mem_subscribe_of_mem before⟩
  | unsubscribesNobody user free =>
      apply subscribed.update_alone (alone_of_free free)
      · simp [ClientPc.insideSink]
      · simp
      · intro other member kept
        exact mem_unsubscribe_of_confirmed _ user subscribed.confirmed kept
  | unsubscribes user free =>
      apply subscribed.update_alone (alone_of_free free)
      · exact fun _ => rfl
      · simp
      · intro other member kept
        exact mem_unsubscribe_of_confirmed _ user subscribed.confirmed kept
  | @subscribeNotifies name user =>
      apply subscribed.update_alone (alone_of_inside rfl)
      · simp [ClientPc.insideSink]
      · simp
      · intro other member confirmed
        have here := subscribed.subscribing client name user place
        simp only [Shared.setSinkMutex_confirmed, Shared.setConfirmed_confirmed] at confirmed
        by_cases same : other = name
        · subst other
          rw [Function.update_self, List.mem_insert_iff] at confirmed
          rcases confirmed with rfl | confirmed
          · exact here
          · exact subscribed.confirmed name member confirmed
        · rw [Function.update_of_ne same] at confirmed
          exact subscribed.confirmed other member confirmed
  | unsubscribeNotifies =>
      apply subscribed.update_alone (alone_of_inside rfl)
      · simp [ClientPc.insideSink]
      · simp
      · exact subscribed.confirmed
  | pushes =>
      refine Subscribed.update_outside ?_ rfl
      exact subscribed.of_eq rfl rfl rfl
  | writeNotifies =>
      refine Subscribed.update_outside ?_ rfl
      exact subscribed.of_eq rfl rfl rfl
  | _ => exact subscribed.update_outside rfl

end

/-! ## Waiting for subscribers -/

/-- The coroutine has seen no subscribers and has not heard of one since. -/
def LoopPc.expectsSubscriber : LoopPc Name → Bool
  | .flush place _ => place.waits
  | .asyncWatch _ => true
  | .await point future =>
      decide (point ≠ .any) &&
        match future with
        | .resolved _ => false
        | .promise _ => true
  | .suspended point _ => decide (point ≠ .any)
  | _ => false

/-- A subscription that the coroutine has not seen has raised its flag. -/
def Noticed (kernel : Shared Name User Message Client) (pc : LoopPc Name) : Prop :=
  pc.expectsSubscriber = true →
    (∃ name user, user ∈ kernel.confirmed name) →
      hasState kernel.notifier.notifyState
        KernelEvent.sinkSubscription.flag = true

section

variable {config : Config Name} {kernel moved : Shared Name User Message Client}
variable {clients : Client → ClientPc Name User Message}
variable {pc after : LoopPc Name} {choice : Choice Name}

theorem noticed_of_listens_eq_false (elsewhere : pc.listens = false) :
    Noticed kernel pc := by
  intro expects
  cases pc <;> simp_all [LoopPc.listens, LoopPc.expectsSubscriber]

theorem noticed_of_updates (updates : pc.updates = true) : Noticed kernel pc :=
  noticed_of_listens_eq_false (listens_of_updates updates)

/-- A `Notify` that confirms nobody keeps the flags. -/
theorem Noticed.notify (noticed : Noticed kernel pc) (event : KernelEvent)
    (notifier_eq : moved.notifier = kernel.notifier.notify event.flag)
    (confirmed :
      ∀ name user, user ∈ moved.confirmed name →
        user ∈ kernel.confirmed name) :
    Noticed moved pc := by
  rintro expects ⟨name, user, member⟩
  have raised := noticed expects ⟨name, user, confirmed name user member⟩
  rw [notifier_eq]
  simp [raised]

/-- Losing subscribers and confirmations keeps the claim about the rest. -/
theorem Noticed.of_subset (noticed : Noticed kernel pc)
    (notifier_eq : moved.notifier = kernel.notifier)
    (confirmed :
      ∀ name user, user ∈ moved.confirmed name →
        user ∈ kernel.confirmed name) :
    Noticed moved pc := by
  rintro expects ⟨name, user, member⟩
  rw [notifier_eq]
  exact noticed expects ⟨name, user, confirmed name user member⟩

variable [DecidableEq Name]

theorem Move.noticed (move : Move config kernel pc choice moved after)
    (subscribed : Subscribed config kernel clients)
    (noticed : Noticed kernel pc) : Noticed moved after := by
  cases move with
  | findsNobody caller free nobody =>
      rintro - ⟨name, user, confirmed⟩
      exact absurd confirmed (subscribed.nobody_confirmed nobody name user)
  | flushed place =>
      cases place with
      | beforeWait caller => exact noticed
      | afterSubscription caller =>
          exact noticed_of_updates (updates_afterWait caller)
      | onTerminate => exact noticed_of_listens_eq_false rfl
  | flushNext place empty => exact noticed
  | flushPop place => exact noticed
  | watches caller =>
      -- a flag that is up now ends the wait at once
      rintro expects confirmed
      have raised := noticed rfl confirmed
      rcases Notifier.asyncWatch_of_raised waitedEvents (by decide) raised with
        ⟨value, answer, -⟩
      rw [answer] at expects
      simp [LoopPc.expectsSubscriber] at expects
  | watchesAny =>
      intro expects
      simp [LoopPc.expectsSubscriber] at expects
  | sleeps point pending =>
      intro expects
      apply noticed
      simpa [LoopPc.expectsSubscriber] using expects
  | initThrows standard =>
      exact noticed_of_listens_eq_false (listens_unwind standard)
  | initFailedThrows error standard =>
      exact noticed_of_listens_eq_false (listens_unwind standard)
  | findsSubscribers caller free =>
      exact noticed_of_updates (updates_afterWait caller)
  | awaits point ready =>
      exact noticed_of_updates (updates_dispatch config _ point)
  | wakes point ready =>
      exact noticed_of_updates (updates_dispatch config _ point)
  | processed events drained =>
      exact noticed_of_updates (updates_dispatchTerminate config events)
  | processThrows events drained standard =>
      exact noticed_of_listens_eq_false (listens_unwind standard)
  | activates events =>
      exact noticed_of_updates (updates_dispatchUnsubscription events)
  | disposeThrows standard =>
      exact noticed_of_listens_eq_false (listens_unwind standard)
  | _ => exact noticed_of_listens_eq_false rfl

variable [DecidableEq User]

theorem Noticed.clientMove {client : Client}
    {before afterwards : ClientPc Name User Message}
    (noticed : Noticed kernel pc)
    (move : ClientMove config kernel client before moved afterwards) :
    Noticed moved pc := by
  have erased (name : Name) (user : User) (other : Name) (member : User)
      (kept :
        member ∈
          Function.update kernel.confirmed name
            ((kernel.confirmed name).filter (· ≠ user)) other) :
      member ∈ kernel.confirmed other := by
    by_cases here : other = name
    · subst other
      rw [Function.update_self] at kept
      exact (List.mem_filter.mp kept).1
    · rwa [Function.update_of_ne here] at kept
  cases move with
  | subscribeNotifies =>
      intro _ _
      simp
  | writeNotifies => exact noticed.notify .readSource rfl fun _ _ member => member
  | unsubscribeNotifies =>
      exact noticed.notify .sinkUnsubscription rfl fun _ _ member => member
  | unsubscribesNobody user free => exact noticed.of_subset rfl (erased _ user)
  | unsubscribes user free => exact noticed.of_subset rfl (erased _ user)
  | _ => exact noticed

end

/-! ## Every run -/

/-- Neither of the two events is lost on the way to the coroutine. -/
structure Wakeful (config : Config Name) (state : State Name User Message Client) :
    Prop where
  subscribed : Subscribed config state.shared state.clients
  noticed : Noticed state.shared (state.pc state.generation)
  heard :
    state.terminateNotified = true →
      Heard state.shared.notifier (state.pc state.generation)

section

variable [DecidableEq Name] [DecidableEq User] [DecidableEq Client]
variable {config : Config Name}
variable {state target : State Name User Message Client}
variable {action : Action Name User Message Client}

theorem Wakeful.step (wakeful : Wakeful config state)
    (attended : Attended state) (step : Step config state action target) :
    Wakeful config target := by
  cases step with
  | asyncInit idle =>
      refine ⟨wakeful.subscribed, ?_, ?_⟩
      · simp [State.pc, Noticed, LoopPc.expectsSubscriber]
      · simp
  | run idle => exact ⟨wakeful.subscribed, wakeful.noticed, wakeful.heard⟩
  | asyncTerminate idle =>
      exact ⟨wakeful.subscribed, wakeful.noticed, wakeful.heard⟩
  | controller move =>
      have effect := move.effect
      rcases effect.shared_eq with
        ⟨⟨stored, shared_eq⟩, notified_eq⟩ | ⟨shared_eq, notified_eq⟩
      · constructor
        · rw [shared_eq, effect.clients_eq]
          exact wakeful.subscribed.of_eq rfl rfl rfl
        · rw [shared_eq, effect.generation_eq, effect.pc_eq]
          exact wakeful.noticed
        · rw [shared_eq, effect.generation_eq, effect.pc_eq, notified_eq]
          exact wakeful.heard
      · constructor
        · rw [shared_eq, effect.clients_eq]
          exact wakeful.subscribed.of_eq rfl rfl rfl
        · rw [shared_eq, effect.generation_eq, effect.pc_eq]
          exact wakeful.noticed.notify .terminate rfl fun _ _ member => member
        · rw [shared_eq]
          exact fun _ => heard_notify_terminate _ _
  | coroutine step =>
      have here := attended.index_eq step
      subst here
      constructor
      · rw [step.clients_eq]
        exact wakeful.subscribed.move step.move
      · rw [step.generation_eq]
        exact step.move.noticed wakeful.subscribed wakeful.noticed
      · rw [step.generation_eq, step.terminateNotified_eq]
        exact fun notified => step.move.heard (wakeful.heard notified)
  | client step =>
      constructor
      · rw [step.clients_eq_update]
        exact wakeful.subscribed.clientMove rfl step.move
      · rw [step.generation_eq, step.pc_eq]
        exact wakeful.noticed.clientMove step.move
      · rw [step.generation_eq, step.pc_eq, step.terminateNotified_eq]
        intro notified
        rcases step.move.notifier with notifier_eq | ⟨event, -, notifier_eq⟩
        · rw [notifier_eq]
          exact wakeful.heard notified
        · rw [notifier_eq]
          exact (wakeful.heard notified).notify event

theorem wakeful_of_reachable
    (reachable : (system User Message Client config).ReachableUnder restartsEnded state) :
    Wakeful config state := by
  refine reachable.invariant ?_ ?_
  · rintro state rfl
    refine ⟨⟨?_, ?_, ?_⟩, ?_, ?_⟩
    · simp [State.create, ClientPc.insideSink]
    · simp [State.create]
    · simp [State.create]
    · exact noticed_of_listens_eq_false rfl
    · simp [State.create]
  · intro source action target reachable _ taken wakeful
    exact wakeful.step (attended_of_reachable reachable) (step_of_next taken)

/--
A kernel never sleeps through a subscription or a termination.  While its
coroutine is suspended on a pending future of the notifier, no
`Notify(TERMINATE)` has been completed since the last `AsyncInit`; and while it
waits for subscribers, no sink port has a subscriber whose `Subscribe` has
returned.
-/
theorem never_sleeps_through
    (reachable : (system User Message Client config).ReachableUnder restartsEnded state)
    {index : ℕ} {point : WatchPoint} {promise : ℕ}
    (suspended : state.pc index = .suspended point promise)
    (pending : state.shared.notifier.poll (.promise promise) = .pending) :
    state.terminateNotified = false ∧
      ∀ caller, point = .subscription caller →
        ∀ name user, user ∈ (state.shared.sink name).subscribers →
          user ∉ state.shared.confirmed name := by
  have attended := attended_of_reachable reachable
  have wakeful := wakeful_of_reachable reachable
  have here := attended.index_eq_of_suspended suspended
  subst here
  have armed := attended.armed suspended
  constructor
  · by_contra notified
    rw [Bool.not_eq_false] at notified
    have quiet := armed.quiet attended.sound pending
      (show point.watches .terminate = true by cases point <;> rfl)
    rcases wakeful.heard notified with raised | heeded
    · simp [quiet] at raised
    · simp [suspended, LoopPc.heedsTerminate] at heeded
  · rintro caller rfl name user - confirmed
    have quiet := armed.quiet attended.sound pending
      (show (WatchPoint.subscription caller).watches .sinkSubscription = true
        from rfl)
    have raised := wakeful.noticed (by simp [suspended, LoopPc.expectsSubscriber])
      ⟨name, user, confirmed⟩
    simp [quiet] at raised

end

/-- A kernel is initialised and run, and waits for a subscriber. -/
theorem never_sleeps_through_waiting :
    ∃ state : State ℕ ℕ ℕ Unit,
      (system ℕ ℕ Unit ⟨[0], [0], fun _ => 1⟩).ReachableUnder restartsEnded state ∧
        state.pc 1 = .suspended (.subscription .update) 1 ∧
        state.shared.notifier.poll (.promise 1) = .pending ∧
        state.terminateNotified = false := by
  rcases TransitionSystem.exists_reachableUnder_of_run
      (system ℕ ℕ Unit ⟨[0], [0], fun _ => 1⟩) restartsEnded rfl
      (beginRun 1 ++ List.replicate 9 (.coroutine 1 .proceed))
      (fun state =>
        decide (state.pc 1 = .suspended (.subscription .update) 1) &&
          decide (state.shared.notifier.poll (.promise 1) = .pending))
      (by decide +kernel) with ⟨state, reachable, facts⟩
  rw [Bool.and_eq_true, decide_eq_true_eq, decide_eq_true_eq] at facts
  exact
    ⟨state, reachable, facts.1, facts.2,
      (never_sleeps_through reachable facts.1 facts.2).1⟩

end AsyncRuntime.Kernel
