import AsyncRuntime.Channel.Broadcast

/-!
# Waiting for a message

One watcher under calls of `Send`, `TryReceive` and `AsyncWait` in any order, each
of them atomic under the watcher's mutex.  History variables record the future of
the last `AsyncWait`, the messages that have reached the watcher since, and
whether `promise.set_value` has ever thrown.

The flag `resolved` follows the promise.  A pending future belongs to the current
promise, so a `Send` would have satisfied it, and `AsyncWait` hands it out only
over an empty queue.
-/

namespace AsyncRuntime.Channel

open Foundation

universe u

variable {Message : Type u}

/--
The future has its value.  A future of an earlier promise has one too: the promise
was satisfied, or it was broken when another one took its place.
-/
def Watcher.ready (watcher : Watcher Message) : WaitFuture → Bool
  | .resolved => true
  | .promise number => number != watcher.promise.number || watcher.promise.satisfied

namespace Waiting

/-- A watcher with the history of its calls. -/
structure State (Message : Type u) where
  watcher : Watcher Message
  future : Option WaitFuture
  sent : List Message
  threw : Bool
  deriving DecidableEq

/-- The calls. -/
inductive Call (Message : Type u) where
  | send (message : Message)
  | tryReceive
  | asyncWait
  deriving DecidableEq

/-- A call under the watcher's mutex. -/
def State.next (state : State Message) : Call Message → State Message
  | .send message =>
      let result := state.watcher.send message
      { state with
        watcher := result.1
        sent := state.sent ++ [message]
        threw := state.threw || result.2 }
  | .tryReceive => { state with watcher := state.watcher.tryReceive.1 }
  | .asyncWait =>
      let result := state.watcher.asyncWait
      { state with watcher := result.1, future := some result.2, sent := [] }

/-- A new watcher. -/
def State.create (address : ObjectID) : State Message where
  watcher := .create address
  future := none
  sent := []
  threw := false

/-- The runs of one watcher. -/
def system (Message : Type u) : TransitionSystem (State Message) (Call Message) where
  initial := fun state => ∃ address, state = .create address
  next := fun state call => some (state.next call)

/-! ## The future of the last wait -/

/-- What holds after any calls. -/
structure Sound (state : State Message) : Prop where
  promised : state.watcher.Promised
  quiet : state.threw = false
  current :
    ∀ number, state.future = some (.promise number) →
      number = state.watcher.promise.number
  unmissed :
    ∀ number, state.future = some (.promise number) →
      state.watcher.promise.satisfied = false →
      state.watcher.queue = [] ∧ state.sent = []

theorem sound_create (address : ObjectID) :
    Sound (State.create address : State Message) where
  promised := Watcher.promised_create address
  quiet := rfl
  current := by simp [State.create]
  unmissed := by simp [State.create]

/-- `Send` satisfies the current promise unless it was satisfied before. -/
theorem send_promise {watcher : Watcher Message} (promised : watcher.Promised)
    (message : Message) :
    (watcher.send message).1.promise = ⟨watcher.promise.number, true⟩ := by
  unfold Watcher.Promised at promised
  unfold Watcher.send
  cases flag : watcher.promise.satisfied with
  | true =>
      simp only [promised, flag, if_true]
      rw [← flag]
  | false => simp [promised, flag]

theorem tryReceive_promise (watcher : Watcher Message) :
    watcher.tryReceive.1.promise = watcher.promise ∧
      watcher.tryReceive.1.resolved = watcher.resolved := by
  unfold Watcher.tryReceive
  split
  · exact ⟨rfl, rfl⟩
  · exact ⟨rfl, rfl⟩

theorem tryReceive_queue_nil {watcher : Watcher Message} (empty : watcher.queue = []) :
    watcher.tryReceive.1.queue = [] := by
  simp [Watcher.tryReceive, empty]

theorem Sound.next {state : State Message} (sound : Sound state) (call : Call Message) :
    Sound (state.next call) := by
  cases call with
  | send message =>
      have promise_eq := send_promise sound.promised message
      refine ⟨sound.promised.send message, ?_, ?_, ?_⟩
      · simp [State.next, sound.quiet, sound.promised.send_returns message]
      · intro number future_eq
        simp only [State.next, promise_eq]
        exact sound.current number future_eq
      · simp [State.next, promise_eq]
  | tryReceive =>
      obtain ⟨promise_eq, resolved_eq⟩ := tryReceive_promise state.watcher
      refine ⟨?_, sound.quiet, ?_, ?_⟩
      · simp only [Watcher.Promised, State.next, promise_eq, resolved_eq]
        exact sound.promised
      · intro number future_eq
        simp only [State.next, promise_eq]
        exact sound.current number future_eq
      · intro number future_eq pending
        simp only [State.next, promise_eq] at pending
        obtain ⟨empty, unsent⟩ := sound.unmissed number future_eq pending
        exact ⟨tryReceive_queue_nil empty, unsent⟩
  | asyncWait =>
      refine ⟨Watcher.promised_asyncWait, sound.quiet, ?_, ?_⟩
      · intro number future_eq
        cases queue_eq : state.watcher.queue with
        | nil =>
            simp only [State.next, Watcher.asyncWait, queue_eq] at future_eq
            cases future_eq
            rfl
        | cons head rest => simp [State.next, Watcher.asyncWait, queue_eq] at future_eq
      · intro number future_eq _
        cases queue_eq : state.watcher.queue with
        | nil => exact ⟨queue_eq, rfl⟩
        | cons head rest => simp [State.next, Watcher.asyncWait, queue_eq] at future_eq

theorem sound_of_reachable {state : State Message}
    (reachable : (system Message).Reachable state) : Sound state := by
  refine reachable.invariant ?_ ?_
  · rintro _ ⟨address, rfl⟩
    exact sound_create address
  · intro source call target _ _ taken sound
    cases taken
    exact sound.next call

theorem ready_asyncWait {watcher : Watcher Message} (held : watcher.queue ≠ []) :
    watcher.asyncWait.1.ready watcher.asyncWait.2 = true := by
  cases queue_eq : watcher.queue with
  | nil => exact absurd queue_eq held
  | cons head rest => simp [Watcher.asyncWait, queue_eq, Watcher.ready]

/--
After any calls: `promise.set_value` has never thrown and would not throw now, an
`AsyncWait` over a queued message returns a resolved future, and while the future
of the last `AsyncWait` is pending there is no message in the queue and none has
reached the watcher since.
-/
theorem asyncWait_never_misses {state : State Message}
    (reachable : (system Message).Reachable state) :
    (state.threw = false ∧ ∀ message, (state.watcher.send message).2 = false) ∧
    (state.watcher.queue ≠ [] →
      state.watcher.asyncWait.1.ready state.watcher.asyncWait.2 = true) ∧
    ∀ future, state.future = some future →
      state.watcher.ready future = false →
      state.watcher.queue = [] ∧ state.sent = [] := by
  have sound := sound_of_reachable reachable
  refine ⟨⟨sound.quiet, sound.promised.send_returns⟩, ready_asyncWait, ?_⟩
  intro future future_eq pending
  cases future with
  | resolved => simp [Watcher.ready] at pending
  | promise number =>
      have current := sound.current number future_eq
      simp only [Watcher.ready, current, bne_self_eq_false, Bool.false_or] at pending
      exact sound.unmissed number future_eq pending

/-- A wait over an empty queue is pending, and a message is queued before the next. -/
theorem asyncWait_never_misses_pending :
    (∃ state : State ℕ, (system ℕ).Reachable state ∧
      (state.future = some (.promise 1) ∧ state.watcher.ready (.promise 1) = false) ∧
        state.watcher.queue = [] ∧ state.sent = []) ∧
    ∃ state : State ℕ, (system ℕ).Reachable state ∧
      state.watcher.queue = [5] ∧
        state.watcher.asyncWait.1.ready state.watcher.asyncWait.2 = true := by
  constructor
  · obtain ⟨state, reachable, waits⟩ :=
      TransitionSystem.exists_reachableUnder_of_run (system ℕ) (fun _ _ => True)
        ⟨0, rfl⟩ [.asyncWait]
        (fun state =>
          decide (state.future = some (.promise 1) ∧
            state.watcher.ready (.promise 1) = false)) (by decide)
    have pending := of_decide_eq_true waits
    exact ⟨state, reachable, pending,
      (asyncWait_never_misses reachable).2.2 _ pending.1 pending.2⟩
  · obtain ⟨state, reachable, queued⟩ :=
      TransitionSystem.exists_reachableUnder_of_run (system ℕ) (fun _ _ => True)
        ⟨0, rfl⟩ [.send 4, .asyncWait, .send 5, .tryReceive]
        (fun state => decide (state.watcher.queue = [5])) (by decide)
    have queue_eq : state.watcher.queue = [5] := of_decide_eq_true queued
    exact ⟨state, reachable, queue_eq,
      (asyncWait_never_misses reachable).2.1 (by simp [queue_eq])⟩

/-! ## The watchers of a channel -/

/-- One watcher comes from another by at most one call. -/
def Called (old new : Watcher Message) : Prop :=
  new = old ∨ (∃ message, new = (old.send message).1) ∨
    new = old.tryReceive.1 ∨ new = old.asyncWait.1

/-- The object of a pointer is new, or its watcher comes from the one before. -/
def Follows (source target : Channel.State Message) (pointer : Pointer) : Prop :=
  ∀ new, target.objects pointer = some new →
    (∃ address, new.watcher = .create address) ∨
      ∃ old, source.objects pointer = some old ∧ Called old.watcher new.watcher

section Steps

variable {source target : Channel.State Message} {pointer : Pointer}

theorem follows_of_objects_eq (same : target.objects = source.objects) :
    Follows source target pointer := by
  intro new alive
  rw [same] at alive
  exact .inr ⟨new, alive, .inl rfl⟩

/-- One object is written, and its watcher has at most one call behind it. -/
theorem follows_of_update {written : Pointer} {object : Object Message}
    {result : Option (Object Message)}
    (alive : source.objects written = some object)
    (objects_eq : target.objects = Function.update source.objects written result)
    (called : ∀ new, result = some new → Called object.watcher new.watcher) :
    Follows source target pointer := by
  intro new found
  rw [objects_eq] at found
  by_cases same : pointer = written
  · subst same
    rw [Function.update_self] at found
    exact .inr ⟨object, alive, called new found⟩
  · rw [Function.update_of_ne same] at found
    exact .inr ⟨new, found, .inl rfl⟩

/-- A shared pointer of the object is gone. -/
theorem called_of_release {object new : Object Message}
    (released : object.release = some new) : Called object.watcher new.watcher := by
  simp only [Object.release, Option.ite_none_left_eq_some, Option.some.injEq] at released
  obtain ⟨-, rfl⟩ := released
  exact .inl rfl

theorem follows_of_erase {entry : Entry} (sound : source.Sound)
    (member : entry ∈ source.watchers)
    (objects_eq : target.objects = (source.erase entry).objects) :
    Follows source target pointer := by
  obtain ⟨object, alive, -⟩ := sound.entry_live entry member
  refine follows_of_update alive objects_eq ?_
  intro new found
  rw [alive] at found
  exact called_of_release found

/-- What a step of the channel does to a watcher. -/
theorem follows_of_next (sound : source.Sound) {action : Action Message}
    (taken : source.next action = some target) : Follows source target pointer := by
  cases action with
  | watch address =>
      have objects_eq := (sound.watch_eq_some taken).objects_eq
      intro new found
      rw [objects_eq] at found
      by_cases same : pointer = source.created
      · subst same
        rw [Function.update_self] at found
        cases found
        exact .inl ⟨address, rfl⟩
      · rw [Function.update_of_ne same] at found
        exact .inr ⟨new, found, .inl rfl⟩
  | unWatch other =>
      obtain ⟨-, -, ⟨entry, member, -, rfl⟩ | ⟨-, rfl⟩⟩ := sound.unWatch_eq_some taken
      · exact follows_of_erase sound member rfl
      · exact follows_of_objects_eq rfl
  | send message =>
      simp only [Channel.State.next, Channel.State.send, Option.ite_none_right_eq_some,
        Option.some.injEq] at taken
      obtain ⟨-, rfl⟩ := taken
      exact follows_of_objects_eq rfl
  | visit =>
      obtain ⟨message, entry, rest, object, sending_eq, alive, rfl | ⟨-, rfl⟩⟩ :=
        sound.visit_eq_some taken
      · refine follows_of_update alive rfl ?_
        rintro new ⟨⟩
        exact .inr (.inl ⟨message, rfl⟩)
      · have member : entry ∈ source.watchers :=
          sound.ahead_sub entry (by simp [Channel.State.ahead, sending_eq])
        exact follows_of_erase sound member rfl
  | finish =>
      simp only [Channel.State.next, Channel.State.finish] at taken
      split at taken
      · cases taken
        exact follows_of_objects_eq rfl
      · cases taken
  | tryReceive other =>
      obtain ⟨object, holds, rfl | ⟨message, rest, queue_eq, rfl⟩⟩ :=
        Channel.State.tryReceive_eq_some taken
      · refine follows_of_update (Channel.State.held_eq_some holds).1 rfl ?_
        rintro new ⟨⟩
        exact .inl rfl
      · refine follows_of_update (Channel.State.held_eq_some holds).1 rfl ?_
        rintro new ⟨⟩
        exact .inr (.inr (.inl (by simp [Watcher.tryReceive, queue_eq])))
  | asyncWait other =>
      obtain ⟨object, holds, rfl⟩ := Option.map_eq_some_iff.mp taken
      refine follows_of_update (Channel.State.held_eq_some holds).1 rfl ?_
      rintro new ⟨⟩
      exact .inr (.inr (.inr rfl))
  | copy other =>
      obtain ⟨object, holds, rfl⟩ := Option.map_eq_some_iff.mp taken
      refine follows_of_update (Channel.State.held_eq_some holds).1 rfl ?_
      rintro new ⟨⟩
      exact .inl rfl
  | drop other =>
      obtain ⟨object, holds, rfl⟩ := Option.map_eq_some_iff.mp taken
      refine follows_of_update (Channel.State.held_eq_some holds).1 rfl ?_
      intro new released
      have called := called_of_release released
      exact called

end Steps

/-- One more call in a run of the watcher. -/
theorem reachable_of_called {state : State Message} {new : Watcher Message}
    (reachable : (system Message).Reachable state) (called : Called state.watcher new) :
    ∃ later, (system Message).Reachable later ∧ later.watcher = new := by
  rcases called with rfl | ⟨message, rfl⟩ | rfl | rfl
  · exact ⟨state, reachable, rfl⟩
  · exact ⟨state.next (.send message), reachable.step trivial rfl, rfl⟩
  · exact ⟨state.next .tryReceive, reachable.step trivial rfl, rfl⟩
  · exact ⟨state.next .asyncWait, reachable.step trivial rfl, rfl⟩

/-- The watchers of a channel are watchers of the runs considered here. -/
theorem exists_reachable_of_channel {state : Channel.State Message}
    (reachable : (Channel.system Message).Reachable state)
    {pointer : Pointer} {object : Object Message}
    (alive : state.objects pointer = some object) :
    ∃ history, (system Message).Reachable history ∧ history.watcher = object.watcher := by
  induction reachable generalizing object with
  | start isInitial =>
      cases isInitial
      simp [Channel.State.create] at alive
  | step earlier _ taken inductionHypothesis =>
      have sound := Channel.State.sound_of_reachable earlier
      rcases follows_of_next sound taken object alive with
        ⟨address, fresh⟩ | ⟨old, before, called⟩
      · exact ⟨.create address, .start ⟨address, rfl⟩, fresh.symm⟩
      · obtain ⟨history, run, same⟩ := inductionHypothesis before
        rw [← same] at called
        exact reachable_of_called run called

end Waiting

end AsyncRuntime.Channel
