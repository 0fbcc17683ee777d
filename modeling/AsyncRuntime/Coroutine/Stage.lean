import AsyncRuntime.Coroutine.Model

/-!
# The stages of a resumption

What is known about the coroutine and the future of its await while the owner of
the mutex is at each place of `coroutine::resume`, and that the threads which
fulfil the future and run its continuation keep it so.
-/

namespace AsyncRuntime.Coroutine

universe u v

variable {Failure : Type u} {Value : Type v}

/-! ## The future of an await -/

/-- The continuation has posted its task. -/
def ContinuationPc.posted : ContinuationPc → Bool
  | .getting _ => true
  | .finished => true
  | _ => false

namespace Future

/-- What holds of the future of every await. -/
structure Sound (future : Future Failure Value) : Prop where
  posts_eq : future.posts = if future.continuation.posted then 1 else 0
  done_eq :
    future.done =
      if future.continuation = .finished then future.outcome else none
  pending_of_attached :
    future.continuation = .attached → future.outcome = none
  ready_of_entered :
    future.continuation ≠ .detached → future.continuation ≠ .attached →
      future.outcome.isSome = true
  suspends_of_attached :
    future.continuation ≠ .detached → future.suspends = true

/-- No await has used the future yet. -/
def Untouched (future : Future Failure Value) : Prop :=
  future.continuation = .detached ∧ future.suspends = false ∧
    future.assigned = false

/-- The await did not suspend, or its continuation has ended. -/
def Closed (future : Future Failure Value) : Prop :=
  (future.continuation = .detached ∧ future.suspends = false) ∨
    future.continuation = .finished

/-- The continuation is attached and does not run in the call of `then`. -/
def Outside (future : Future Failure Value) : Prop :=
  future.continuation = .attached ∨ future.continuation = .posting false ∨
    future.continuation = .getting false ∨ future.continuation = .finished

/-- What other threads do to a future. -/
structure Evolves (old new : Future Failure Value) : Prop where
  assigned_eq : new.assigned = old.assigned
  suspends_eq : new.suspends = old.suspends
  continuation_cases :
    new.continuation = old.continuation ∨
      (old.continuation = .attached ∧ new.continuation = .posting false) ∨
      (old.continuation = .posting false ∧ new.continuation = .getting false) ∨
      (old.continuation = .getting false ∧ new.continuation = .finished)
  outcome_kept :
    ∀ outcome, old.outcome = some outcome → new.outcome = some outcome

theorem sound_fresh : (fresh : Future Failure Value).Sound where
  posts_eq := rfl
  done_eq := rfl
  pending_of_attached := by simp [fresh]
  ready_of_entered := by simp [fresh]
  suspends_of_attached := by simp [fresh]

variable {old new : Future Failure Value}

theorem Untouched.closed (untouched : old.Untouched) : old.Closed :=
  .inl ⟨untouched.1, untouched.2.1⟩

theorem Outside.evolves (outside : old.Outside) (evolves : old.Evolves new) :
    new.Outside := by
  unfold Outside at *
  rcases evolves.continuation_cases with same | ⟨-, later⟩ | ⟨-, later⟩ | ⟨-, later⟩
  · rwa [same]
  · exact .inr (.inl later)
  · exact .inr (.inr (.inl later))
  · exact .inr (.inr (.inr later))

theorem Untouched.evolves (untouched : old.Untouched) (evolves : old.Evolves new) :
    new.Untouched := by
  obtain ⟨detached, suspends, assigned⟩ := untouched
  refine ⟨?_, by rw [evolves.suspends_eq, suspends], by rw [evolves.assigned_eq, assigned]⟩
  rcases evolves.continuation_cases with same | ⟨before, -⟩ | ⟨before, -⟩ | ⟨before, -⟩
  · rw [same, detached]
  · simp [detached] at before
  · simp [detached] at before
  · simp [detached] at before

theorem Closed.evolves (closed : old.Closed) (evolves : old.Evolves new) :
    new.Closed := by
  unfold Closed at *
  rw [evolves.suspends_eq]
  rcases evolves.continuation_cases with same | ⟨before, -⟩ | ⟨before, -⟩ | ⟨before, -⟩
  · rwa [same]
  · simp [before] at closed
  · simp [before] at closed
  · simp [before] at closed

theorem Sound.suspend (sound : old.Sound) : old.suspend.Sound :=
  ⟨sound.posts_eq, sound.done_eq, sound.pending_of_attached,
    sound.ready_of_entered, fun _ => rfl⟩

theorem Sound.assign (sound : old.Sound) : old.assign.Sound :=
  ⟨sound.posts_eq, sound.done_eq, sound.pending_of_attached,
    sound.ready_of_entered, sound.suspends_of_attached⟩

theorem Sound.attach (sound : old.Sound)
    (detached : old.continuation = .detached) (suspends : old.suspends = true) :
    old.attach.Sound := by
  have posts_eq := sound.posts_eq
  have done_eq := sound.done_eq
  simp only [detached, ContinuationPc.posted] at posts_eq done_eq
  cases ready : old.outcome with
  | none =>
      constructor
      · simpa [Future.attach, ready, ContinuationPc.posted] using posts_eq
      · simpa [Future.attach, ready] using done_eq
      · simp [Future.attach, ready]
      · simp [Future.attach, ready]
      · exact fun _ => suspends
  | some outcome =>
      constructor
      · simpa [Future.attach, ready, ContinuationPc.posted] using posts_eq
      · simpa [Future.attach, ready] using done_eq
      · simp [Future.attach, ready]
      · simp [Future.attach, ready]
      · exact fun _ => suspends

theorem Sound.fulfil (sound : old.Sound) (pending : old.outcome = none)
    (outcome : Outcome Failure Value) : (old.fulfil outcome).Sound := by
  by_cases attached : old.continuation = .attached
  · constructor
    · simpa [Future.fulfil, attached, ContinuationPc.posted] using sound.posts_eq
    · simpa [Future.fulfil, attached] using sound.done_eq
    · simp [Future.fulfil, attached]
    · simp [Future.fulfil]
    · exact fun _ => sound.suspends_of_attached (by simp [attached])
  · have unfinished : old.continuation ≠ .finished := by
      intro finished
      have ready := sound.ready_of_entered (by simp [finished]) (by simp [finished])
      simp [pending] at ready
    constructor
    · simpa [Future.fulfil, attached] using sound.posts_eq
    · simpa [Future.fulfil, attached, unfinished] using sound.done_eq
    · simp [Future.fulfil, attached]
    · simp [Future.fulfil]
    · simpa [Future.fulfil, attached] using sound.suspends_of_attached

theorem Sound.post (sound : old.Sound) {inline : Bool}
    (posting : old.continuation = .posting inline) (later : Bool) :
    (old.post later).Sound := by
  constructor
  · simpa [Future.post, posting, ContinuationPc.posted] using sound.posts_eq
  · simpa [Future.post, posting] using sound.done_eq
  · simp [Future.post]
  · intro _ _
    exact sound.ready_of_entered (by simp [posting]) (by simp [posting])
  · exact fun _ => sound.suspends_of_attached (by simp [posting])

theorem Sound.handOver (sound : old.Sound) {inline : Bool}
    (getting : old.continuation = .getting inline) : old.handOver.Sound := by
  constructor
  · simpa [Future.handOver, getting, ContinuationPc.posted] using sound.posts_eq
  · simp [Future.handOver]
  · simp [Future.handOver]
  · intro _ _
    exact sound.ready_of_entered (by simp [getting]) (by simp [getting])
  · exact fun _ => sound.suspends_of_attached (by simp [getting])

theorem evolves_fulfil (pending : old.outcome = none)
    (outcome : Outcome Failure Value) : old.Evolves (old.fulfil outcome) := by
  refine ⟨rfl, rfl, ?_, by simp [pending]⟩
  by_cases attached : old.continuation = .attached
  · exact .inr (.inl ⟨attached, by simp [fulfil, attached]⟩)
  · exact .inl (by simp [fulfil, attached])

theorem evolves_post (posting : old.continuation = .posting false) :
    old.Evolves (old.post false) :=
  ⟨rfl, rfl, .inr (.inr (.inl ⟨posting, rfl⟩)), fun _ ready => ready⟩

theorem evolves_handOver (getting : old.continuation = .getting false) :
    old.Evolves old.handOver :=
  ⟨rfl, rfl, .inr (.inr (.inr ⟨getting, rfl⟩)), fun _ ready => ready⟩

end Future

/-! ## The places of the owner of the mutex -/

/-- The worker holds the mutex. -/
def WorkerPc.owns : WorkerPc → Bool
  | .idle => false
  | .locking => false
  | _ => true

/-- The worker has a task and has not switched to the coroutine yet. -/
def WorkerPc.waits : WorkerPc → Bool
  | .locking => true
  | .checking => true
  | _ => false

/-- The body is in an await. -/
def Body.awaits : Body → Bool
  | .checkingValue => true
  | .checkingException => true
  | .suspending => true
  | .suspended => true
  | .resumed => true
  | .getting => true
  | _ => false

/-- The coroutine is switched out, and its context can be resumed. -/
def Paused (body : Body) (future : Future Failure Value) : Prop :=
  match body with
  | .fresh => future.Closed
  | .yielded => future.Closed
  | .recalled => future.Closed
  | .suspended => future.assigned = true ∧ future.Outside
  | _ => False

/-- Nobody is between the check and the unlock. -/
def Parked (context : Bool) (body : Body) (future : Future Failure Value) : Prop :=
  (context = true ∧ Paused body future) ∨ (body = .finished ∧ future.Closed)

/-- The coroutine runs. -/
def InBody (body : Body) (future : Future Failure Value) : Prop :=
  match body with
  | .running => future.Closed
  | .checkingValue => future.Untouched
  | .checkingException => future.Untouched
  | .suspending => future.Untouched
  | .getting => future.Untouched
  | .resumed =>
      future.assigned = true ∧ future.Outside ∧
        future.continuation.posted = true
  | _ => False

/-- What holds while the owner of the mutex, if any, is at a place. -/
def Stage (context : Bool) (body : Body) (future : Future Failure Value) :
    Option WorkerPc → Prop
  | none => Parked context body future
  | some .idle => False
  | some .locking => False
  | some .checking => Parked context body future
  | some .switched => InBody body future
  | some .attaching =>
      body = .suspended ∧ future.suspends = true ∧
        future.continuation = .detached
  | some .continuing =>
      body = .suspended ∧
        (future.continuation = .posting true ∨ future.continuation = .getting true)
  | some .assigning => body = .suspended ∧ future.Outside
  | some .resolving => body = .yielding ∧ future.Closed
  | some (.writing true) => Paused body future
  | some (.writing false) => body = .finished ∧ future.Closed
  | some .unlocking => Parked context body future

section Stage

variable {context : Bool} {body : Body} {old new : Future Failure Value}
  {pc : Option WorkerPc}

theorem Paused.evolves (paused : Paused body old) (evolves : old.Evolves new) :
    Paused body new := by
  cases body with
  | fresh => exact Future.Closed.evolves paused evolves
  | yielded => exact Future.Closed.evolves paused evolves
  | recalled => exact Future.Closed.evolves paused evolves
  | suspended =>
      exact ⟨by rw [evolves.assigned_eq, paused.1], paused.2.evolves evolves⟩
  | _ => exact paused.elim

theorem Parked.evolves (parked : Parked context body old)
    (evolves : old.Evolves new) : Parked context body new := by
  rcases parked with ⟨context_eq, paused⟩ | ⟨finished, closed⟩
  · exact .inl ⟨context_eq, paused.evolves evolves⟩
  · exact .inr ⟨finished, closed.evolves evolves⟩

theorem Future.Evolves.posted (evolves : old.Evolves new)
    (posted : old.continuation.posted = true) :
    new.continuation.posted = true := by
  rcases evolves.continuation_cases with
    same | ⟨before, -⟩ | ⟨-, later⟩ | ⟨-, later⟩
  · rwa [same]
  · simp [before, ContinuationPc.posted] at posted
  · simp [later, ContinuationPc.posted]
  · simp [later, ContinuationPc.posted]

theorem InBody.evolves (inBody : InBody body old) (evolves : old.Evolves new) :
    InBody body new := by
  cases body with
  | running => exact Future.Closed.evolves inBody evolves
  | checkingValue => exact Future.Untouched.evolves inBody evolves
  | checkingException => exact Future.Untouched.evolves inBody evolves
  | suspending => exact Future.Untouched.evolves inBody evolves
  | getting => exact Future.Untouched.evolves inBody evolves
  | resumed =>
      obtain ⟨assigned, outside, posted⟩ := inBody
      exact
        ⟨by rw [evolves.assigned_eq, assigned], outside.evolves evolves,
          evolves.posted posted⟩
  | _ => exact inBody.elim

/-- What other threads do to the future of the await keeps the stage. -/
theorem Stage.evolves (stage : Stage context body old pc)
    (evolves : old.Evolves new) : Stage context body new pc := by
  cases pc with
  | none => exact Parked.evolves stage evolves
  | some pc =>
      cases pc with
      | idle => exact stage
      | locking => exact stage
      | checking => exact Parked.evolves stage evolves
      | switched => exact InBody.evolves stage evolves
      | attaching =>
          refine ⟨stage.1, by rw [evolves.suspends_eq, stage.2.1], ?_⟩
          have detached := stage.2.2
          rcases evolves.continuation_cases with
            same | ⟨before, -⟩ | ⟨before, -⟩ | ⟨before, -⟩
          · rw [same, detached]
          · simp [detached] at before
          · simp [detached] at before
          · simp [detached] at before
      | continuing =>
          refine ⟨stage.1, ?_⟩
          have inline := stage.2
          rcases evolves.continuation_cases with
            same | ⟨before, -⟩ | ⟨before, -⟩ | ⟨before, -⟩
          · rwa [same]
          · simp [before] at inline
          · simp [before] at inline
          · simp [before] at inline
      | assigning => exact ⟨stage.1, stage.2.evolves evolves⟩
      | resolving => exact ⟨stage.1, stage.2.evolves evolves⟩
      | writing context =>
          cases context with
          | true => exact Paused.evolves stage evolves
          | false => exact ⟨stage.1, stage.2.evolves evolves⟩
      | unlocking => exact Parked.evolves stage evolves

/-- A continuation that is about to post belongs to a suspended coroutine. -/
theorem Paused.suspended_of_posting (paused : Paused body old) {inline : Bool}
    (posting : old.continuation = .posting inline) : body = .suspended := by
  cases body with
  | suspended => rfl
  | fresh => simp [Paused, Future.Closed, posting] at paused
  | yielded => simp [Paused, Future.Closed, posting] at paused
  | recalled => simp [Paused, Future.Closed, posting] at paused
  | _ => exact paused.elim

theorem Parked.suspended_of_posting (parked : Parked context body old)
    {inline : Bool} (posting : old.continuation = .posting inline) :
    body = .suspended := by
  rcases parked with ⟨-, paused⟩ | ⟨-, closed⟩
  · exact paused.suspended_of_posting posting
  · simp [Future.Closed, posting] at closed

theorem Stage.suspended_of_posting (stage : Stage context body old pc)
    {inline : Bool} (posting : old.continuation = .posting inline) :
    body = .suspended := by
  cases pc with
  | none => exact Parked.suspended_of_posting stage posting
  | some pc =>
      cases pc with
      | idle => exact stage.elim
      | locking => exact stage.elim
      | checking => exact Parked.suspended_of_posting stage posting
      | switched =>
          cases body with
          | running => simp [Stage, InBody, Future.Closed, posting] at stage
          | resumed => simp [Stage, InBody, ContinuationPc.posted, posting] at stage
          | checkingValue => simp [Stage, InBody, Future.Untouched, posting] at stage
          | checkingException =>
              simp [Stage, InBody, Future.Untouched, posting] at stage
          | suspending => simp [Stage, InBody, Future.Untouched, posting] at stage
          | getting => simp [Stage, InBody, Future.Untouched, posting] at stage
          | _ => exact stage.elim
      | attaching => exact stage.1
      | continuing => exact stage.1
      | assigning => exact stage.1
      | resolving => simp [Stage, Future.Closed, posting] at stage
      | writing context =>
          cases context with
          | true => exact Paused.suspended_of_posting stage posting
          | false => simp [Stage, Future.Closed, posting] at stage
      | unlocking => exact Parked.suspended_of_posting stage posting

theorem Paused.closed_of_returned (paused : Paused body old)
    (returned : body.awaits = false) : old.Closed := by
  cases body with
  | fresh => exact paused
  | yielded => exact paused
  | recalled => exact paused
  | suspended => cases returned
  | _ => exact paused.elim

theorem Parked.closed_of_returned (parked : Parked context body old)
    (returned : body.awaits = false) : old.Closed := by
  rcases parked with ⟨-, paused⟩ | ⟨-, closed⟩
  · exact paused.closed_of_returned returned
  · exact closed

/-- The future of an await that has returned is closed. -/
theorem Stage.closed_of_returned (stage : Stage context body old pc)
    (returned : body.awaits = false) : old.Closed := by
  have not_suspended : body ≠ .suspended := by
    rintro rfl
    cases returned
  cases pc with
  | none => exact Parked.closed_of_returned stage returned
  | some pc =>
      cases pc with
      | idle => exact stage.elim
      | locking => exact stage.elim
      | checking => exact Parked.closed_of_returned stage returned
      | switched =>
          cases body with
          | running => exact stage
          | checkingValue => cases returned
          | checkingException => cases returned
          | suspending => cases returned
          | getting => cases returned
          | resumed => cases returned
          | _ => exact stage.elim
      | attaching => exact absurd stage.1 not_suspended
      | continuing => exact absurd stage.1 not_suspended
      | assigning => exact absurd stage.1 not_suspended
      | resolving => exact stage.2
      | writing context =>
          cases context with
          | true => exact Paused.closed_of_returned stage returned
          | false => exact stage.2
      | unlocking => exact Parked.closed_of_returned stage returned

/-- A switch to a paused coroutine leads to its body or back into its await. -/
theorem Paused.entered (paused : Paused body old) {later : Body}
    (entered : body.entered = some later) :
    (later = .running ∧ body ≠ .suspended ∧ old.Closed) ∨
      (later = .resumed ∧ body = .suspended ∧ old.assigned = true ∧
        old.Outside) := by
  cases body with
  | fresh => exact .inl ⟨by simpa [Body.entered] using entered.symm, nofun, paused⟩
  | yielded => exact .inl ⟨by simpa [Body.entered] using entered.symm, nofun, paused⟩
  | recalled => exact .inl ⟨by simpa [Body.entered] using entered.symm, nofun, paused⟩
  | suspended =>
      exact
        .inr ⟨by simpa [Body.entered] using entered.symm, rfl, paused.1, paused.2⟩
  | _ => exact paused.elim

/-- Recalling a coroutine after a yield does not move it. -/
theorem Stage.recall (stage : Stage context .yielded old pc) :
    Stage context .recalled old pc := by
  have parked :
      Parked context .yielded old → Parked context .recalled old := by
    rintro (⟨context_eq, paused⟩ | ⟨finished, -⟩)
    · exact .inl ⟨context_eq, paused⟩
    · cases finished
  cases pc with
  | none => exact parked stage
  | some pc =>
      cases pc with
      | checking => exact parked stage
      | unlocking => exact parked stage
      | writing context =>
          cases context with
          | true => exact stage
          | false => exact nomatch stage.1
      | idle => exact stage
      | locking => exact stage
      | switched => exact stage.elim
      | attaching => exact nomatch stage.1
      | continuing => exact nomatch stage.1
      | assigning => exact nomatch stage.1
      | resolving => exact nomatch stage.1

end Stage

end AsyncRuntime.Coroutine
