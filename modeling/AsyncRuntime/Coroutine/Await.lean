import AsyncRuntime.Coroutine.Stage

/-!
# Await resumes the coroutine once

At any time at most one task that resumes the coroutine is posted or has not yet
switched to it, and there is one exactly when the coroutine waits to be resumed:
it has not started, it was recalled after a yield, or the continuation of its
await has posted.

The mutex keeps that task away until the worker that ran the callback of the await
has assigned `done_future`, written `continuation` back and unlocked, however early
the continuation posts.
-/

namespace AsyncRuntime.Coroutine

open Foundation

universe u v w

variable {Worker : Type w} {Failure : Type u} {Value : Type v}

/-! ## The invariant -/

/-- The task that will resume the coroutine. -/
inductive Token (Worker : Type w) where
  | absent
  | queued
  | taken (worker : Worker)

namespace State

/-- The coroutine waits to be resumed, and somebody has seen to it. -/
def due (state : State Worker Failure Value) : Bool :=
  match state.body with
  | .fresh => true
  | .recalled => true
  | .suspended => state.future.continuation.posted
  | _ => false

/-- Where the task is. -/
def Carries (state : State Worker Failure Value) : Token Worker → Prop
  | .absent =>
      state.pending = 0 ∧ ∀ worker, (state.workers worker).waits = false
  | .queued =>
      state.pending = 1 ∧ ∀ worker, (state.workers worker).waits = false
  | .taken worker =>
      state.pending = 0 ∧
        ∀ other, (state.workers other).waits = true ↔ other = worker

/-- There is one task when the coroutine is due, and otherwise none. -/
def TokenSound (state : State Worker Failure Value) : Prop :=
  if state.due then
    state.Carries .queued ∨ ∃ worker, state.Carries (.taken worker)
  else
    state.Carries .absent

/-- The await under way has not returned. -/
def awaiting (state : State Worker Failure Value) : Bool :=
  state.body.awaits

/-- The invariant of all runs. -/
structure Sound (state : State Worker Failure Value) : Prop where
  owner : ∀ worker, (state.workers worker).owns = true ↔ state.mutex = some worker
  stage :
    Stage state.continuation state.body state.future
      (state.mutex.map state.workers)
  token : state.TokenSound
  future_sound : ∀ number, (state.futures number).Sound
  untouched :
    ∀ number, state.current < number → (state.futures number).Untouched
  closed : ∀ number, number < state.current → (state.futures number).Closed
  returned_future :
    ∀ entry ∈ state.returned, ∃ outcome,
      entry.2 = .future outcome ∧
        (state.futures entry.1).outcome = some outcome
  returned_closed :
    ∀ entry ∈ state.returned,
      entry.1 < state.current ∨
        (entry.1 = state.current ∧ state.awaiting = false)
  accepted : state.refused = false

theorem sound_create : (create : State Worker Failure Value).Sound where
  owner := by simp [create, WorkerPc.owns]
  stage := .inl ⟨rfl, .inl ⟨rfl, rfl⟩⟩
  token := .inl ⟨rfl, fun _ => rfl⟩
  future_sound := fun _ => Future.sound_fresh
  untouched := fun _ _ => ⟨rfl, rfl, rfl⟩
  closed := fun _ _ => .inl ⟨rfl, rfl⟩
  returned_future := by simp [create]
  returned_closed := by simp [create]
  accepted := rfl

variable {source target : State Worker Failure Value}

/-- Whoever holds the mutex is the one at a place of its own. -/
theorem Sound.mutex_of_owns (sound : source.Sound) {worker : Worker}
    {pc : WorkerPc} (pc_eq : source.workers worker = pc)
    (owns : pc.owns = true) : source.mutex = some worker :=
  (sound.owner worker).mp (by rw [pc_eq, owns])

/-- The stage at the place of the owner. -/
theorem Sound.stage_of_owns (sound : source.Sound) {worker : Worker}
    {pc : WorkerPc} (pc_eq : source.workers worker = pc)
    (owns : pc.owns = true) :
    Stage source.continuation source.body source.future (some pc) := by
  have stage := sound.stage
  rwa [sound.mutex_of_owns pc_eq owns, Option.map_some, pc_eq] at stage

theorem Sound.absent (sound : source.Sound) (idle : source.due = false) :
    source.Carries .absent := by
  have token := sound.token
  rwa [TokenSound, idle, if_neg Bool.false_ne_true] at token

theorem due_of_suspended (suspended : source.body = .suspended) :
    source.due = source.future.continuation.posted := by
  simp only [due, suspended]

/-- A worker that waits carries the token. -/
theorem Sound.carries_of_waits (sound : source.Sound) {worker : Worker}
    (waits : (source.workers worker).waits = true) :
    source.due = true ∧ source.Carries (.taken worker) := by
  have token := sound.token
  unfold TokenSound at token
  split at token
  · rename_i due
    rcases token with queued | ⟨carrier, carries⟩
    · rw [queued.2 worker] at waits
      cases waits
    · obtain rfl := (carries.2 worker).mp waits
      exact ⟨due, carries⟩
  · rw [token.2 worker] at waits
    cases waits

/-- The coroutine that a worker is about to resume is paused. -/
theorem Sound.paused (sound : source.Sound) {worker : Worker}
    (checking : source.workers worker = .checking) :
    source.continuation = true ∧ Paused source.body source.future := by
  obtain ⟨due, -⟩ := sound.carries_of_waits (by rw [checking]; rfl)
  rcases sound.stage_of_owns checking rfl with paused | ⟨finished, -⟩
  · exact paused
  · simp [State.due, finished] at due

/-- The token only depends on the tasks, on who waits and on whether it is due. -/
theorem TokenSound.congr (token : source.TokenSound)
    (due_eq : target.due = source.due)
    (pending_eq : target.pending = source.pending)
    (waits_eq :
      ∀ worker,
        (target.workers worker).waits = (source.workers worker).waits) :
    target.TokenSound := by
  simp only [TokenSound, Carries, due_eq, pending_eq, waits_eq] at *
  exact token

/-- A task is posted for a coroutine that was not due. -/
theorem TokenSound.posted (absent : source.Carries .absent)
    (due : target.due = true) (pending_eq : target.pending = source.pending + 1)
    (waits_eq :
      ∀ worker,
        (target.workers worker).waits = (source.workers worker).waits) :
    target.TokenSound := by
  rw [TokenSound, if_pos due]
  refine .inl ⟨by rw [pending_eq, absent.1], fun worker => ?_⟩
  rw [waits_eq, absent.2]

/-! ## What other threads do -/

/-- A future evolves, and perhaps a task is posted. -/
structure Evolved (source target : State Worker Failure Value) (number : ℕ)
    (new : Future Failure Value) : Prop where
  mutex_eq : target.mutex = source.mutex
  continuation_eq : target.continuation = source.continuation
  workers_eq : target.workers = source.workers
  body_eq : target.body = source.body
  current_eq : target.current = source.current
  futures_eq : target.futures = Function.update source.futures number new
  returned_eq : target.returned = source.returned
  refused_eq : target.refused = source.refused

section Environment

variable {number : ℕ} {new : Future Failure Value}

theorem Evolved.futures_cases (evolved : Evolved source target number new)
    (evolves : (source.futures number).Evolves new) (other : ℕ) :
    (source.futures other).Evolves (target.futures other) := by
  rw [evolved.futures_eq]
  by_cases same : other = number
  · subst same
    rwa [Function.update_self]
  · rw [Function.update_of_ne same]
    exact ⟨rfl, rfl, .inl rfl, fun _ ready => ready⟩

theorem Sound.evolved (sound : source.Sound)
    (evolved : Evolved source target number new)
    (evolves : (source.futures number).Evolves new) (newSound : new.Sound)
    (token : target.TokenSound) : target.Sound := by
  have futures := evolved.futures_cases evolves
  refine
    ⟨?owner, ?stage, token, ?future_sound, ?untouched, ?closed, ?returned_future,
      ?returned_closed, ?accepted⟩
  case owner =>
    rw [evolved.workers_eq, evolved.mutex_eq]
    exact sound.owner
  case stage =>
    rw [evolved.continuation_eq, evolved.body_eq, evolved.mutex_eq,
      evolved.workers_eq, future, evolved.current_eq]
    exact sound.stage.evolves (futures source.current)
  case future_sound =>
    intro other
    rw [evolved.futures_eq]
    by_cases same : other = number
    · subst same
      rwa [Function.update_self]
    · rw [Function.update_of_ne same]
      exact sound.future_sound other
  case untouched =>
    intro other late
    rw [evolved.current_eq] at late
    exact (sound.untouched other late).evolves (futures other)
  case closed =>
    intro other early
    rw [evolved.current_eq] at early
    exact (sound.closed other early).evolves (futures other)
  case returned_future =>
    intro entry member
    rw [evolved.returned_eq] at member
    obtain ⟨outcome, result_eq, ready⟩ := sound.returned_future entry member
    exact ⟨outcome, result_eq, (futures entry.1).outcome_kept outcome ready⟩
  case returned_closed =>
    intro entry member
    rw [evolved.returned_eq] at member
    rw [evolved.current_eq, awaiting, evolved.body_eq]
    exact sound.returned_closed entry member
  case accepted =>
    rw [evolved.refused_eq]
    exact sound.accepted

/-- Only the continuation of the await under way can be in a thread. -/
theorem Sound.number_eq_current (sound : source.Sound)
    (entered :
      (source.futures number).continuation = .posting false ∨
        (source.futures number).continuation = .getting false) :
    number = source.current := by
  rcases Nat.lt_trichotomy number source.current with early | same | late
  · have closed := sound.closed number early
    rcases entered with posting | getting
    · simp [Future.Closed, posting] at closed
    · simp [Future.Closed, getting] at closed
  · exact same
  · have untouched := sound.untouched number late
    rcases entered with posting | getting
    · simp [Future.Untouched, posting] at untouched
    · simp [Future.Untouched, getting] at untouched

theorem Sound.fulfil (sound : source.Sound) {outcome : Outcome Failure Value}
    (taken : source.fulfil number outcome = some target) : target.Sound := by
  simp only [State.fulfil] at taken
  split at taken
  · cases taken
  · rename_i pending
    cases taken
    have pending_eq : (source.futures number).outcome = none := by
      simpa using pending
    refine
      sound.evolved ⟨rfl, rfl, rfl, rfl, rfl, rfl, rfl, rfl⟩
        (Future.evolves_fulfil pending_eq outcome)
        ((sound.future_sound number).fulfil pending_eq outcome)
        (sound.token.congr ?_ rfl fun _ => rfl)
    have posted_eq :
        ((source.futures number).fulfil outcome).continuation.posted =
          (source.futures number).continuation.posted := by
      by_cases attached : (source.futures number).continuation = .attached
      · simp [Future.fulfil, attached, ContinuationPc.posted]
      · simp [Future.fulfil, attached]
    simp only [due, setFuture, future]
    by_cases same : source.current = number
    · subst same
      rw [Function.update_self, posted_eq]
    · rw [Function.update_of_ne same]

theorem Sound.proceed (sound : source.Sound)
    (taken : source.proceed number = some target) : target.Sound := by
  simp only [State.proceed] at taken
  split at taken
  · rename_i posting
    cases taken
    obtain rfl := sound.number_eq_current (.inl posting)
    have suspended := sound.stage.suspended_of_posting posting
    refine
      sound.evolved ⟨rfl, rfl, rfl, rfl, rfl, rfl, rfl, rfl⟩
        (Future.evolves_post posting)
        ((sound.future_sound source.current).post posting false)
        (TokenSound.posted (sound.absent ?_) ?_ rfl fun _ => rfl)
    · simp [due, suspended, future, posting, ContinuationPc.posted]
    · simp [due, suspended, State.post, setFuture, future, Future.post,
        ContinuationPc.posted]
  · rename_i getting
    cases taken
    obtain rfl := sound.number_eq_current (.inr getting)
    refine
      sound.evolved ⟨rfl, rfl, rfl, rfl, rfl, rfl, rfl, rfl⟩
        (Future.evolves_handOver getting)
        ((sound.future_sound source.current).handOver getting)
        (sound.token.congr ?_ rfl fun _ => rfl)
    simp [due, State.handOver, setFuture, future, Future.handOver,
      ContinuationPc.posted, getting]
  · cases taken

theorem Sound.resume (sound : source.Sound)
    (taken : source.resume = some target) : target.Sound := by
  simp only [State.resume] at taken
  split at taken
  · rename_i yielded
    cases taken
    have stage := sound.stage
    rw [yielded] at stage
    refine
      ⟨sound.owner, stage.recall, ?_, sound.future_sound, sound.untouched,
        sound.closed, sound.returned_future, ?_, sound.accepted⟩
    · exact
        TokenSound.posted (sound.absent (by simp [due, yielded])) rfl rfl
          fun _ => rfl
    · intro entry member
      have earlier := sound.returned_closed entry member
      simpa [awaiting, Body.awaits, yielded] using earlier
  · cases taken

end Environment

/-! ## What the owner of the mutex does -/

/-- An await returns the outcome of its future. -/
theorem Sound.conclude (sound : source.Sound) {worker : Worker}
    (switched : source.workers worker = .switched)
    (undue : source.due = false) {outcome : Outcome Failure Value}
    (closed : source.future.Closed)
    (ready : source.future.outcome = some outcome) :
    (source.conclude (.future outcome)).Sound := by
  have mutex := sound.mutex_of_owns switched rfl
  refine
    ⟨sound.owner, ?stage, ?token, sound.future_sound, sound.untouched, sound.closed,
      ?returned_future, ?returned_closed, sound.accepted⟩
  case stage =>
    have place_eq : source.mutex.map source.workers = some .switched := by
      rw [mutex, Option.map_some, switched]
    exact place_eq ▸ closed
  case token =>
    refine sound.token.congr ?_ rfl fun _ => rfl
    rw [undue]
    rfl
  case returned_future =>
    intro entry member
    rcases List.mem_append.mp member with earlier | now
    · exact sound.returned_future entry earlier
    · cases List.mem_singleton.mp now
      exact ⟨outcome, rfl, ready⟩
  case returned_closed =>
    intro entry member
    rcases List.mem_append.mp member with earlier | now
    · rcases sound.returned_closed entry earlier with early | ⟨same, -⟩
      · exact .inl early
      · exact .inr ⟨same, rfl⟩
    · cases List.mem_singleton.mp now
      exact .inr ⟨rfl, rfl⟩

/-- The body calls `Await` with the next future. -/
theorem Sound.await (sound : source.Sound) {worker : Worker}
    (switched : source.workers worker = .switched)
    (running : source.body = .running) :
    { source with
      body := .checkingValue
      current := source.current + 1 }.Sound := by
  have mutex := sound.mutex_of_owns switched rfl
  have closed : source.future.Closed := by
    have stage := sound.stage_of_owns switched rfl
    simpa [Stage, InBody, running] using stage
  refine
    ⟨sound.owner, ?stage, ?token, sound.future_sound, ?untouched, ?closed,
      sound.returned_future, ?returned_closed, sound.accepted⟩
  case stage =>
    have place_eq : source.mutex.map source.workers = some .switched := by
      rw [mutex, Option.map_some, switched]
    exact place_eq ▸ sound.untouched (source.current + 1) (Nat.lt_succ_self _)
  case token =>
    refine sound.token.congr ?_ rfl fun _ => rfl
    simp [due, running]
  case untouched =>
    intro number late
    exact sound.untouched number (Nat.lt_of_succ_lt late)
  case closed =>
    intro number early
    rcases Nat.lt_succ_iff_lt_or_eq.mp early with earlier | same
    · exact sound.closed number earlier
    · rw [same]
      exact closed
  case returned_closed =>
    intro entry member
    refine .inl ?_
    rcases sound.returned_closed entry member with early | ⟨same, -⟩
    · exact Nat.lt_succ_of_lt early
    · rw [same]
      exact Nat.lt_succ_self _

section Owner

variable [DecidableEq Worker] {worker : Worker} {pc later : WorkerPc}
  {new : Future Failure Value}

/-- The owner of the mutex moves, and perhaps writes the future of the await. -/
structure Moved (source target : State Worker Failure Value) (worker : Worker)
    (later : WorkerPc) (new : Future Failure Value) : Prop where
  mutex_eq : target.mutex = source.mutex
  workers_eq : target.workers = Function.update source.workers worker later
  current_eq : target.current = source.current
  futures_eq :
    target.futures = Function.update source.futures source.current new
  returned_eq : target.returned = source.returned
  refused_eq : target.refused = source.refused

theorem Moved.future_eq (moved : Moved source target worker later new) :
    target.future = new := by
  rw [future, moved.current_eq, moved.futures_eq, Function.update_self]

theorem Moved.futures_of_ne (moved : Moved source target worker later new)
    {number : ℕ} (other : number ≠ source.current) :
    target.futures number = source.futures number := by
  rw [moved.futures_eq, Function.update_of_ne other]

/-- Who waits does not change when the owner is past the switch. -/
theorem Moved.waits_eq (moved : Moved source target worker later new)
    (pc_eq : source.workers worker = pc) (same : later.waits = pc.waits)
    (other : Worker) :
    (target.workers other).waits = (source.workers other).waits := by
  rw [moved.workers_eq]
  by_cases own : other = worker
  · subst own
    rw [Function.update_self, pc_eq, same]
  · rw [Function.update_of_ne own]

/-- A write of the callback that does not post leaves the token alone. -/
theorem Moved.token (moved : Moved source target worker later new)
    (token : source.TokenSound) (pc_eq : source.workers worker = pc)
    (same : later.waits = pc.waits) (suspended : source.body = .suspended)
    (body_eq : target.body = source.body)
    (pending_eq : target.pending = source.pending)
    (posted_eq :
      new.continuation.posted = source.future.continuation.posted) :
    target.TokenSound := by
  refine token.congr ?_ pending_eq (moved.waits_eq pc_eq same)
  rw [due_of_suspended suspended, due_of_suspended (body_eq.trans suspended),
    moved.future_eq, posted_eq]

theorem Sound.moved (sound : source.Sound)
    (moved : Moved source target worker later new)
    (pc_eq : source.workers worker = pc) (owns : pc.owns = true)
    (ownsLater : later.owns = true)
    (stage : Stage target.continuation target.body new (some later))
    (token : target.TokenSound) (newSound : new.Sound)
    (outcome_eq : new.outcome = source.future.outcome)
    (awaiting_eq : source.awaiting = false → target.awaiting = false) :
    target.Sound := by
  have mutex := sound.mutex_of_owns pc_eq owns
  refine
    ⟨?owner, ?stage, token, ?future_sound, ?untouched, ?closed, ?returned_future,
      ?returned_closed, ?accepted⟩
  case owner =>
    intro other
    rw [moved.workers_eq, moved.mutex_eq]
    by_cases own : other = worker
    · subst own
      rw [Function.update_self, ownsLater, mutex]
      simp
    · rw [Function.update_of_ne own]
      exact sound.owner other
  case stage =>
    rw [moved.future_eq, moved.mutex_eq, mutex, Option.map_some,
      moved.workers_eq, Function.update_self]
    exact stage
  case future_sound =>
    intro number
    by_cases same : number = source.current
    · rw [same, ← moved.current_eq, ← future, moved.future_eq]
      exact newSound
    · rw [moved.futures_of_ne same]
      exact sound.future_sound number
  case untouched =>
    intro number late
    rw [moved.current_eq] at late
    rw [moved.futures_of_ne (Nat.ne_of_gt late)]
    exact sound.untouched number late
  case closed =>
    intro number early
    rw [moved.current_eq] at early
    rw [moved.futures_of_ne (Nat.ne_of_lt early)]
    exact sound.closed number early
  case returned_future =>
    intro entry member
    rw [moved.returned_eq] at member
    obtain ⟨outcome, result_eq, ready⟩ := sound.returned_future entry member
    refine ⟨outcome, result_eq, ?_⟩
    by_cases same : entry.1 = source.current
    · rw [same] at ready ⊢
      rw [← moved.current_eq, ← future, moved.future_eq, outcome_eq]
      exact ready
    · rw [moved.futures_of_ne same]
      exact ready
  case returned_closed =>
    intro entry member
    rw [moved.returned_eq] at member
    rw [moved.current_eq]
    rcases sound.returned_closed entry member with early | ⟨same, returned⟩
    · exact .inl early
    · exact .inr ⟨same, awaiting_eq returned⟩
  case accepted =>
    rw [moved.refused_eq]
    exact sound.accepted

/-- A worker takes the posted task. -/
theorem Sound.take (sound : source.Sound)
    (taken : source.take worker = some target) : target.Sound := by
  simp only [State.take, Option.ite_none_right_eq_some, Option.some.injEq]
    at taken
  obtain ⟨⟨idle, posted⟩, rfl⟩ := taken
  have queued : source.due = true ∧ source.Carries .queued := by
    have token := sound.token
    unfold TokenSound at token
    split at token
    · rename_i due
      rcases token with queued | ⟨carrier, carries⟩
      · exact ⟨due, queued⟩
      · have none_left := carries.1
        omega
    · have none_left := token.1
      omega
  refine
    ⟨?owner, ?stage, ?token, sound.future_sound, sound.untouched, sound.closed,
      sound.returned_future, sound.returned_closed, sound.accepted⟩
  case owner =>
    intro other
    by_cases own : other = worker
    · subst own
      have unowned := sound.owner other
      rw [idle] at unowned
      simpa [setWorker, WorkerPc.owns] using unowned
    · simpa [setWorker, own] using sound.owner other
  case stage =>
    have places_eq :
        source.mutex.map (Function.update source.workers worker .locking) =
          source.mutex.map source.workers := by
      cases mutex_eq : source.mutex with
      | none => rfl
      | some holder =>
          have holder_ne : holder ≠ worker := by
            rintro rfl
            have owned := (sound.owner holder).mpr mutex_eq
            simp [idle, WorkerPc.owns] at owned
          simp [holder_ne]
    have stage := sound.stage
    rw [← places_eq] at stage
    exact stage
  case token =>
    refine (if_pos queued.1).mpr (.inr ⟨worker, ?_, ?_⟩)
    · have one := queued.2.1
      simp only
      omega
    · intro other
      by_cases own : other = worker
      · subst own
        simp [setWorker, WorkerPc.waits]
      · simp [setWorker, own, queued.2.2 other]

/-- A worker locks the mutex. -/
theorem Sound.lock (sound : source.Sound)
    (locking : source.workers worker = .locking)
    (free : source.mutex = none) :
    { source.setWorker worker .checking with mutex := some worker }.Sound := by
  refine
    ⟨?owner, ?stage, ?token, sound.future_sound, sound.untouched, sound.closed,
      sound.returned_future, sound.returned_closed, sound.accepted⟩
  case owner =>
    intro other
    by_cases own : other = worker
    · subst own
      simp [setWorker, WorkerPc.owns]
    · have unowned := sound.owner other
      rw [free] at unowned
      simpa [setWorker, own, Ne.symm own] using unowned
  case stage =>
    have stage := sound.stage
    rw [free] at stage
    have place_eq :
        (some worker).map (Function.update source.workers worker .checking) =
          some .checking := by
      simp
    exact place_eq ▸ stage
  case token =>
    refine sound.token.congr rfl rfl fun other => ?_
    by_cases own : other = worker
    · subst own
      simp [setWorker, locking, WorkerPc.waits]
    · simp [setWorker, own]

/-- The switch to a paused coroutine consumes the token. -/
theorem Sound.switch (sound : source.Sound)
    (checking : source.workers worker = .checking) {body : Body}
    (entered : source.body.entered = some body) :
    { source.setWorker worker .switched with
      continuation := false
      body := body }.Sound := by
  obtain ⟨due, carries⟩ := sound.carries_of_waits (by rw [checking]; rfl)
  obtain ⟨-, paused⟩ := sound.paused checking
  have moved :
      Moved source
        { source.setWorker worker .switched with
          continuation := false
          body := body }
        worker .switched source.future :=
    ⟨rfl, rfl, rfl, (Function.update_eq_self _ _).symm, rfl, rfl⟩
  have consumed :
      ∀ other, (Function.update source.workers worker .switched other).waits =
        false := by
    intro other
    by_cases own : other = worker
    · subst own
      rw [Function.update_self]
      rfl
    · rw [Function.update_of_ne own]
      exact Bool.eq_false_iff.mpr (mt (carries.2 other).mp own)
  rcases paused.entered entered with ⟨rfl, -, closed⟩ | ⟨rfl, suspended, assigned, outside⟩
  · exact
      sound.moved moved checking rfl rfl closed ⟨carries.1, consumed⟩
        (sound.future_sound _) rfl fun _ => rfl
  · have posted : source.future.continuation.posted = true := by
      simpa [State.due, suspended] using due
    refine
      sound.moved moved checking rfl rfl ⟨assigned, outside, posted⟩
        ⟨carries.1, consumed⟩ (sound.future_sound _) rfl ?_
    intro returned
    simp [awaiting, Body.awaits, suspended] at returned

/-- The body moves without leaving its worker. -/
theorem Sound.setBody (sound : source.Sound)
    (switched : source.workers worker = .switched) {body : Body}
    (inBody : InBody body source.future)
    (due_eq : { source with body := body }.due = source.due)
    (awaiting_eq :
      source.awaiting = false → { source with body := body }.awaiting = false) :
    { source with body := body }.Sound := by
  have moved :
      Moved source { source with body := body } worker .switched source.future := by
    refine ⟨rfl, ?_, rfl, (Function.update_eq_self _ _).symm, rfl, rfl⟩
    rw [← switched, Function.update_eq_self]
  exact
    sound.moved moved switched rfl rfl inBody
      (sound.token.congr due_eq rfl fun _ => rfl) (sound.future_sound _) rfl
      awaiting_eq

theorem Sound.bodyStep (sound : source.Sound)
    (switched : source.workers worker = .switched)
    (taken : source.bodyStep worker = some target) : target.Sound := by
  have stage := sound.stage_of_owns switched rfl
  unfold State.bodyStep at taken
  split at taken
  · rename_i checking
    cases taken
    have untouched : source.future.Untouched := by
      simpa [Stage, InBody, checking] using stage
    split
    · exact
        sound.setBody switched untouched (by simp [due, checking])
          (by simp [awaiting, Body.awaits, checking])
    · exact
        sound.setBody switched untouched (by simp [due, checking])
          (by simp [awaiting, Body.awaits, checking])
  · rename_i checking
    cases taken
    have untouched : source.future.Untouched := by
      simpa [Stage, InBody, checking] using stage
    split
    · exact
        sound.setBody switched untouched (by simp [due, checking])
          (by simp [awaiting, Body.awaits, checking])
    · exact
        sound.setBody switched untouched (by simp [due, checking])
          (by simp [awaiting, Body.awaits, checking])
  · rename_i suspending
    cases taken
    have untouched : source.future.Untouched := by
      simpa [Stage, InBody, suspending] using stage
    have moved :
        Moved source
          ({ source with body := .suspended }.setFuture source.current
              source.future.suspend
            |>.setWorker worker .attaching)
          worker .attaching source.future.suspend :=
      ⟨rfl, rfl, rfl, rfl, rfl, rfl⟩
    refine
      sound.moved moved switched rfl rfl ⟨rfl, rfl, untouched.1⟩
        (sound.token.congr ?_ rfl (moved.waits_eq switched rfl))
        (sound.future_sound _).suspend rfl (by simp [awaiting, Body.awaits, suspending])
    have undue : source.due = false := by
      simp [due, suspending]
    have unposted : source.future.suspend.continuation.posted = false := by
      simp [Future.suspend, untouched.1, ContinuationPc.posted]
    rw [undue]
    exact (congrArg (·.continuation.posted) moved.future_eq).trans unposted
  · rename_i resumed
    obtain ⟨assigned, outside, posted⟩ :
        source.future.assigned = true ∧ source.future.Outside ∧
          source.future.continuation.posted = true := by
      simpa [Stage, InBody, resumed] using stage
    rw [if_pos assigned] at taken
    obtain ⟨outcome, done, rfl⟩ := Option.map_eq_some_iff.mp taken
    have done_eq := (sound.future_sound source.current).done_eq
    rw [← future, done] at done_eq
    split at done_eq
    · rename_i finished
      exact
        sound.conclude switched (by simp [due, resumed]) (.inr finished)
          done_eq.symm
    · cases done_eq
  · rename_i getting
    have untouched : source.future.Untouched := by
      simpa [Stage, InBody, getting] using stage
    obtain ⟨outcome, ready, rfl⟩ := Option.map_eq_some_iff.mp taken
    exact sound.conclude switched (by simp [due, getting]) untouched.closed ready
  · cases taken

/-- The callback of an await calls `then`. -/
theorem Sound.attach (sound : source.Sound)
    (attaching : source.workers worker = .attaching) :
    (source.setFuture source.current source.future.attach
      |>.setWorker worker
        (if source.future.outcome.isSome then .continuing else .assigning)).Sound := by
  obtain ⟨suspended, suspends, detached⟩ := sound.stage_of_owns attaching rfl
  have moved :
      Moved source
        (source.setFuture source.current source.future.attach
          |>.setWorker worker
            (if source.future.outcome.isSome then .continuing else .assigning))
        worker
        (if source.future.outcome.isSome then .continuing else .assigning)
        source.future.attach :=
    ⟨rfl, rfl, rfl, rfl, rfl, rfl⟩
  have newSound := (sound.future_sound source.current).attach detached suspends
  have returns : source.awaiting = false → source.awaiting = false := id
  cases ready : source.future.outcome with
  | none =>
      have attached : source.future.attach.continuation = .attached := by
        simp [Future.attach, ready]
      rw [ready] at moved
      refine
        sound.moved moved attaching rfl rfl ⟨suspended, .inl attached⟩
          (moved.token sound.token attaching rfl suspended rfl rfl ?_) newSound rfl
          returns
      rw [attached, detached]
      rfl
  | some outcome =>
      have entered : source.future.attach.continuation = .posting true := by
        simp [Future.attach, ready]
      rw [ready] at moved
      refine
        sound.moved moved attaching rfl rfl ⟨suspended, .inl entered⟩
          (moved.token sound.token attaching rfl suspended rfl rfl ?_) newSound rfl
          returns
      rw [entered, detached]
      rfl

/-- The continuation posts in the call of `then`. -/
theorem Sound.postInline (sound : source.Sound)
    (continuing : source.workers worker = .continuing) {inline : Bool}
    (posting : source.future.continuation = .posting inline) :
    (source.post source.current true).Sound := by
  obtain ⟨suspended, -⟩ := sound.stage_of_owns continuing rfl
  have moved :
      Moved source (source.post source.current true) worker .continuing
        (source.future.post true) := by
    refine ⟨rfl, ?_, rfl, rfl, rfl, rfl⟩
    rw [← continuing, Function.update_eq_self]
    rfl
  have undue : source.due = false := by
    rw [due_of_suspended suspended, posting]
    rfl
  have due_eq :
      (source.post source.current true).due =
        (source.post source.current true).future.continuation.posted :=
    due_of_suspended suspended
  have due : (source.post source.current true).due = true := by
    rw [due_eq, moved.future_eq]
    rfl
  exact
    sound.moved moved continuing rfl rfl ⟨suspended, .inr rfl⟩
      (TokenSound.posted (sound.absent undue) due rfl fun _ => rfl)
      ((sound.future_sound source.current).post posting true) rfl id

/-- The continuation ends in the call of `then`. -/
theorem Sound.handOverInline (sound : source.Sound)
    (continuing : source.workers worker = .continuing) {inline : Bool}
    (getting : source.future.continuation = .getting inline) :
    ((source.handOver source.current).setWorker worker .assigning).Sound := by
  obtain ⟨suspended, -⟩ := sound.stage_of_owns continuing rfl
  have moved :
      Moved source ((source.handOver source.current).setWorker worker .assigning)
        worker .assigning source.future.handOver :=
    ⟨rfl, rfl, rfl, rfl, rfl, rfl⟩
  refine
    sound.moved moved continuing rfl rfl
      ⟨suspended, .inr (.inr (.inr rfl))⟩
      (moved.token sound.token continuing rfl suspended rfl rfl ?_)
      ((sound.future_sound source.current).handOver getting) rfl id
  rw [getting]
  rfl

/-- The callback assigns `done_future`. -/
theorem Sound.assign (sound : source.Sound)
    (assigning : source.workers worker = .assigning) :
    (source.setFuture source.current source.future.assign
      |>.setWorker worker (.writing true)).Sound := by
  obtain ⟨suspended, outside⟩ := sound.stage_of_owns assigning rfl
  have moved :
      Moved source
        (source.setFuture source.current source.future.assign
          |>.setWorker worker (.writing true))
        worker (.writing true) source.future.assign :=
    ⟨rfl, rfl, rfl, rfl, rfl, rfl⟩
  have paused : Paused source.body source.future.assign := by
    rw [suspended]
    exact ⟨rfl, outside⟩
  exact
    sound.moved moved assigning rfl rfl paused
      (moved.token sound.token assigning rfl suspended rfl rfl rfl)
      (sound.future_sound source.current).assign rfl id

/-- A yield resolves the future of the coroutine. -/
theorem Sound.resolve (sound : source.Sound)
    (resolving : source.workers worker = .resolving) :
    ({ source with body := .yielded }.setWorker worker (.writing true)).Sound := by
  obtain ⟨yielding, closed⟩ := sound.stage_of_owns resolving rfl
  have moved :
      Moved source
        ({ source with body := .yielded }.setWorker worker (.writing true)) worker
        (.writing true) source.future :=
    ⟨rfl, rfl, rfl, (Function.update_eq_self _ _).symm, rfl, rfl⟩
  have undue : source.due = false := by
    simp [due, yielding]
  exact
    sound.moved moved resolving rfl rfl closed
      (sound.token.congr undue.symm rfl (moved.waits_eq resolving rfl))
      (sound.future_sound _) rfl fun _ => rfl

/-- The worker stores the context it came back with. -/
theorem Sound.write (sound : source.Sound) {context : Bool}
    (writing : source.workers worker = .writing context) :
    { source.setWorker worker .unlocking with continuation := context }.Sound := by
  have stage := sound.stage_of_owns writing rfl
  have moved :
      Moved source
        { source.setWorker worker .unlocking with continuation := context } worker
        .unlocking source.future :=
    ⟨rfl, rfl, rfl, (Function.update_eq_self _ _).symm, rfl, rfl⟩
  have parked : Parked context source.body source.future := by
    cases context with
    | true => exact .inl ⟨rfl, stage⟩
    | false => exact .inr stage
  exact
    sound.moved moved writing rfl rfl parked
      (sound.token.congr rfl rfl (moved.waits_eq writing rfl))
      (sound.future_sound _) rfl id

/-- The worker unlocks the mutex. -/
theorem Sound.unlock (sound : source.Sound)
    (unlocking : source.workers worker = .unlocking) :
    { source.setWorker worker .idle with mutex := none }.Sound := by
  have mutex := sound.mutex_of_owns unlocking rfl
  refine
    ⟨?owner, sound.stage_of_owns unlocking rfl, ?token, sound.future_sound,
      sound.untouched, sound.closed, sound.returned_future, sound.returned_closed,
      sound.accepted⟩
  case owner =>
    intro other
    by_cases own : other = worker
    · subst own
      simp [setWorker, WorkerPc.owns]
    · have unowned := sound.owner other
      rw [mutex] at unowned
      simpa [setWorker, own, Ne.symm own] using unowned
  case token =>
    refine sound.token.congr rfl rfl fun other => ?_
    by_cases own : other = worker
    · subst own
      simp [setWorker, unlocking, WorkerPc.waits]
    · simp [setWorker, own]

theorem Sound.work (sound : source.Sound)
    (taken : source.work worker = some target) : target.Sound := by
  unfold State.work at taken
  split at taken
  · cases taken
  · rename_i locking
    split at taken
    · rename_i free
      cases taken
      exact sound.lock locking (by simpa using free)
    · cases taken
  · rename_i checking
    obtain ⟨context, paused⟩ := sound.paused checking
    have incomplete : source.isCompleted = false := by
      have unfinished : source.body ≠ .finished := by
        intro finished
        simp [finished, Paused] at paused
      simp [isCompleted, unfinished, context]
    rw [if_neg (by simp [incomplete])] at taken
    obtain ⟨body, entered, rfl⟩ := Option.map_eq_some_iff.mp taken
    exact sound.switch checking entered
  · rename_i switched
    exact sound.bodyStep switched taken
  · rename_i attaching
    cases taken
    exact sound.attach attaching
  · rename_i continuing
    split at taken
    · rename_i posting
      cases taken
      exact sound.postInline continuing posting
    · rename_i getting
      cases taken
      exact sound.handOverInline continuing getting
    · cases taken
  · rename_i assigning
    cases taken
    exact sound.assign assigning
  · rename_i resolving
    cases taken
    exact sound.resolve resolving
  · rename_i writing
    cases taken
    exact sound.write writing
  · rename_i unlocking
    cases taken
    exact sound.unlock unlocking

theorem Sound.choose (sound : source.Sound) {choice : Choice}
    (taken : source.choose worker choice = some target) : target.Sound := by
  unfold State.choose at taken
  split at taken
  · rename_i place
    obtain ⟨switched, running⟩ := place
    have closed : source.future.Closed := by
      have stage := sound.stage_of_owns switched rfl
      simpa [Stage, InBody, running] using stage
    have undue : source.due = false := by
      simp [due, running]
    cases choice with
    | await =>
        cases taken
        exact sound.await switched running
    | yield =>
        cases taken
        have moved :
            Moved source
              ({ source with body := .yielding }.setWorker worker .resolving)
              worker .resolving source.future :=
          ⟨rfl, rfl, rfl, (Function.update_eq_self _ _).symm, rfl, rfl⟩
        exact
          sound.moved moved switched rfl rfl ⟨rfl, closed⟩
            (sound.token.congr undue.symm rfl (moved.waits_eq switched rfl))
            (sound.future_sound _) rfl fun _ => rfl
    | finish =>
        cases taken
        have moved :
            Moved source
              ({ source with body := .finished }.setWorker worker (.writing false))
              worker (.writing false) source.future :=
          ⟨rfl, rfl, rfl, (Function.update_eq_self _ _).symm, rfl, rfl⟩
        exact
          sound.moved moved switched rfl rfl ⟨rfl, closed⟩
            (sound.token.congr undue.symm rfl (moved.waits_eq switched rfl))
            (sound.future_sound _) rfl fun _ => rfl
  · cases taken

theorem Sound.next (sound : source.Sound) {action : Action Worker Failure Value}
    (taken : source.next action = some target) : target.Sound := by
  cases action with
  | take worker => exact sound.take taken
  | work worker => exact sound.work taken
  | choose worker choice => exact sound.choose taken
  | fulfil number outcome => exact sound.fulfil taken
  | proceed number => exact sound.proceed taken
  | resume => exact sound.resume taken

theorem sound_of_reachable {state : State Worker Failure Value}
    (reachable : (system Worker Failure Value).Reachable state) : state.Sound := by
  apply reachable.invariant
  · rintro state rfl
    exact sound_create
  · intro source action target _ _ taken sound
    exact sound.next taken

end Owner

/-! ## The await -/

section Promise

variable {state : State Worker Failure Value}

end Promise

end State

end AsyncRuntime.Coroutine
