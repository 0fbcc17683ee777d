import AsyncRuntime.ExecutorSlot.Step

/-!
# Where a worker is and what it has seen

Two invariants that concern one worker at a time.  The place of a worker in its
loop goes with a phase of its waiter in the event count.  And a worker that has
got past a queue in `explore_task` has found the bottom it loaded at or below the
top; tops never decrease, so this stays true while it sleeps.
-/

namespace AsyncRuntime.ExecutorSlot

open AsyncRuntime.Foundation
open AsyncRuntime.TaskQueue (Level OwnerPc ThiefPc ownerStep thiefStep isEmpty)
open AsyncRuntime.WorkNotifier (Phase)

universe u v

variable {Task : Type u} {Poster : Type v}

/-! ## The event count inside the slot -/

section Notifier

variable [DecidableEq Poster] {size : ℕ} {state target : State Task Poster}

/-- A step of the slot is a step of the event count or leaves it alone. -/
theorem Step.notifier {action : Action Task Poster}
    (step : Step size state action target) :
    target.notifier = state.notifier ∨
      ∃ label, Called size state label target.notifier := by
  cases step with
  | outside step => exact .inl step.notifier_eq
  | prepare _ called => exact .inr ⟨_, called⟩
  | found _ called => exact .inr ⟨_, called⟩
  | cancels _ called => exact .inr ⟨_, called⟩
  | cancelled _ _ called => exact .inr ⟨_, called⟩
  | notifies _ called => exact .inr ⟨_, called⟩
  | commits _ called => exact .inr ⟨_, called⟩
  | waits _ called => exact .inr ⟨_, called⟩
  | posterCalls _ called => exact .inr ⟨_, called⟩
  | posterNotifies _ called => exact .inr ⟨_, called⟩
  | storesDone _ called => exact .inr ⟨_, called⟩
  | destructorNotifies _ called => exact .inr ⟨_, called⟩
  | _ => exact .inl rfl

/-- Nobody falls asleep by a step other than its own `prepare_wait`. -/
theorem Called.asleep_of {label : WorkNotifier.Action (Caller Poster)}
    (called : Called size state label target.notifier)
    (invariant : WorkNotifier.Invariant size state.notifier) {worker : ℕ}
    (other : label ≠ .prepareWait worker)
    (asleep : target.notifier.asleep worker) :
    state.notifier.asleep worker :=
  ((WorkNotifier.step_of_next called.taken).asleep_of invariant called.bounded
    asleep).resolve_right other

/-- The start of a call of `notify`. -/
theorem Called.notify {caller : Caller Poster} {all : Bool}
    {notifier : WorkNotifier.State (Caller Poster)}
    (called : Called size state (.notify caller all) notifier) :
    (∃ result, state.notifier.notifying caller = .returned result) ∧
      (notifier.notifying caller).waking = some all := by
  cases WorkNotifier.step_of_next called.taken with
  | notify outside =>
      exact ⟨⟨_, outside⟩, by simp [WorkNotifier.NotifyPc.waking]⟩

/-- The event count inside a reachable slot is consistent. -/
theorem notifier_invariant {cpus : List ℕ} (size_lt : cpus.length < 2 ^ 16 - 1)
    (reachable :
      (system Task Poster cpus).ReachableUnder epochsBounded state) :
    WorkNotifier.Invariant cpus.length state.notifier := by
  apply WorkNotifier.invariant_of_reachable size_lt
  refine reachable.project State.notifier ?_ ?_
  · rintro start ⟨memory, waiters, rfl⟩
    exact ⟨waiters, rfl⟩
  · intro source action target bounded taken
    rcases (step_of_next bounded taken).notifier with same | ⟨label, called⟩
    · exact .inl same
    · exact .inr ⟨label, called.bounded, called.taken⟩

end Notifier

/-! ## Where a worker is in the event count -/

/-- The phase of the waiter that goes with a place in the worker loop. -/
def Linked (phase : Phase) : WorkerPc Task → Prop
  | .explore _ _ => phase = .prepared
  | .idleStore => phase = .prepared
  | .cancelWait => phase = .cancelling ∨ phase = .idle
  | .commitWait => phase = .committing ∨ phase = .idle
  | _ => phase = .idle

theorem linked_iff_of_outside {phase : Phase} {pc : WorkerPc Task}
    (outside : pc.outside = true) : Linked phase pc ↔ phase = .idle := by
  cases pc with
  | explore iteration place => simp [WorkerPc.outside] at outside
  | cancelWait => simp [WorkerPc.outside] at outside
  | idleStore => simp [WorkerPc.outside] at outside
  | commitWait => simp [WorkerPc.outside] at outside
  | _ => rfl

theorem linked_afterIteration (iteration : ℕ) :
    Linked .prepared (afterIteration iteration : WorkerPc Task) := by
  unfold afterIteration
  split <;> rfl

def State.phase (state : State Task Poster) (worker : ℕ) : Phase :=
  (state.notifier.waiting worker).phase

/-- Every worker is in the phase its place calls for. -/
def State.linked (state : State Task Poster) : Prop :=
  ∀ worker, Linked (state.phase worker) (state.workers worker)

section Linked

variable {state target : State Task Poster}

/-- One worker moves and the phases stay. -/
theorem State.linked.move (linked : state.linked) {moved : ℕ}
    {pc : WorkerPc Task} (phase_eq : ∀ worker, target.phase worker = state.phase worker)
    (workers_eq : target.workers = Function.update state.workers moved pc)
    (fits : Linked (state.phase moved) pc) : target.linked := by
  intro worker
  rw [phase_eq, workers_eq]
  by_cases same : worker = moved
  · subst same
    rw [Function.update_self]
    exact fits
  · rw [Function.update_of_ne same]
    exact linked worker

theorem State.linked.frame (linked : state.linked)
    (phase_eq : ∀ worker, target.phase worker = state.phase worker)
    (workers_eq : target.workers = state.workers) : target.linked := by
  intro worker
  rw [phase_eq, workers_eq]
  exact linked worker

variable [DecidableEq Poster] {size : ℕ}

theorem Called.phase {label : WorkNotifier.Action (Caller Poster)}
    (called : Called size state label target.notifier)
    (no_call : label.calls = none) (worker : ℕ) :
    target.phase worker = state.phase worker ∨
      ∃ spurious, label = .waiter worker spurious ∧ target.phase worker = .idle :=
  (WorkNotifier.step_of_next called.taken).phase_of_no_call no_call worker

/-- A worker calls into the event count and moves on. -/
theorem State.linked.call (linked : state.linked) {moved : ℕ} {phase : Phase}
    {pc : WorkerPc Task} {label : WorkNotifier.Action (Caller Poster)}
    (called : Called size state label target.notifier)
    (calls : label.calls = some (moved, phase))
    (workers_eq : target.workers = Function.update state.workers moved pc)
    (fits : Linked phase pc) : target.linked := by
  intro worker
  have phase_eq :
      target.phase worker =
        if worker = moved then phase else state.phase worker :=
    (WorkNotifier.step_of_next called.taken).phase_of_calls calls worker
  rw [phase_eq, workers_eq]
  by_cases same : worker = moved
  · subst same
    rw [Function.update_self, if_pos rfl]
    exact fits
  · rw [Function.update_of_ne same, if_neg same]
    exact linked worker

/-- A step inside `commit_wait` or `cancel_wait`. -/
theorem State.linked.wait (linked : state.linked) {moved : ℕ} {spurious : Bool}
    (called : Called size state (.waiter moved spurious) target.notifier)
    (workers_eq : target.workers = state.workers)
    (returns : Linked .idle (state.workers moved)) : target.linked := by
  intro worker
  rw [workers_eq]
  rcases called.phase rfl worker with same | ⟨_, own, idle⟩
  · rw [same]
    exact linked worker
  · simp only [WorkNotifier.Action.waiter.injEq] at own
    rw [idle, ← own.1]
    exact returns

/-- A step of a `notify` moves no worker to another phase. -/
theorem Called.phase_of_notify {label : WorkNotifier.Action (Caller Poster)}
    (called : Called size state label target.notifier)
    (no_call : label.calls = none)
    (no_wait : ∀ worker spurious, label ≠ .waiter worker spurious)
    (worker : ℕ) : target.phase worker = state.phase worker := by
  rcases called.phase no_call worker with same | ⟨spurious, own, -⟩
  · exact same
  · exact absurd own (no_wait worker spurious)

theorem Step.linked {action : Action Task Poster}
    (step : Step size state action target) (linked : state.linked) :
    target.linked := by
  have prepared {worker iteration : ℕ} {pc : ExplorePc}
      (place : state.workers worker = .explore iteration pc) :
      state.phase worker = .prepared := by
    have here := linked worker
    rw [place] at here
    exact here
  cases step with
  | @outside _ worker pc _ step =>
      have idle :=
        (linked_iff_of_outside step.before).mp (linked worker)
      refine linked.move (fun other => ?_) step.workers_eq
        ((linked_iff_of_outside step.after).mpr idle)
      rw [State.phase, step.notifier_eq, State.phase]
  | prepare _ called => exact linked.call called rfl rfl rfl
  | lookOwn place => exact linked.move (fun _ => rfl) rfl (prepared place)
  | ownEmpty place _ => exact linked.move (fun _ => rfl) rfl (prepared place)
  | lookShared place => exact linked.move (fun _ => rfl) rfl (prepared place)
  | sharedEmpty place _ => exact linked.move (fun _ => rfl) rfl (prepared place)
  | scans place _ _ => exact linked.move (fun _ => rfl) rfl (prepared place)
  | @iterates worker iteration pc _ place _ =>
      refine linked.move (fun _ => rfl) rfl ?_
      rw [prepared place]
      exact linked_afterIteration iteration
  | found _ called => exact linked.call called rfl rfl (.inl rfl)
  | cancels place called =>
      exact linked.wait called rfl (by rw [place]; exact .inr rfl)
  | cancelled place idle called =>
      refine linked.move (called.phase_of_notify rfl (by simp)) rfl ?_
      rw [State.phase, idle]
      rfl
  | notifies _ called =>
      exact linked.frame (called.phase_of_notify rfl (by simp)) rfl
  | commits _ called => exact linked.call called rfl rfl (.inl rfl)
  | waits place called =>
      exact linked.wait called rfl (by rw [place]; exact .inr rfl)
  | woken place idle =>
      refine linked.move (fun _ => rfl) rfl ?_
      rw [State.phase, idle]
      rfl
  | posterMoves _ => exact linked.frame (fun _ => rfl) rfl
  | posterReturns _ _ => exact linked.frame (fun _ => rfl) rfl
  | pushes _ _ => exact linked.frame (fun _ => rfl) rfl
  | posterCalls _ called =>
      exact linked.frame (called.phase_of_notify rfl (by simp)) rfl
  | posterNotifies _ called =>
      exact linked.frame (called.phase_of_notify rfl (by simp)) rfl
  | destroy _ => exact linked.frame (fun _ => rfl) rfl
  | storesDone _ called =>
      exact linked.frame (called.phase_of_notify rfl (by simp)) rfl
  | destructorNotifies _ called =>
      exact linked.frame (called.phase_of_notify rfl (by simp)) rfl
  | destructorReturns _ _ => exact linked.frame (fun _ => rfl) rfl
  | joins _ _ => exact linked.frame (fun _ => rfl) rfl
  | finishes _ _ => exact linked.frame (fun _ => rfl) rfl

end Linked

/-! ## What a worker has seen -/

/-- The bottom of a queue the worker has loaded since its `prepare_wait`. -/
def State.seen (state : State Task Poster) : QueueId → ℕ → Option ℤ
  | .shared, worker => state.seenShared worker
  | .own _, worker => state.seenOwn worker

/-- The worker found the queue empty. -/
def State.passed (state : State Task Poster) (queue : QueueId) (worker : ℕ) :
    Prop :=
  ∃ bottom,
    state.seen queue worker = some bottom ∧ bottom ≤ (state.levels queue).top

/-- What the worker has found at its place in `explore_task` and after it. -/
def Explored (state : State Task Poster) (worker : ℕ) : WorkerPc Task → Prop
  | .explore _ .ownBottom => True
  | .explore _ (.ownTop bottom) => state.seenOwn worker = some bottom
  | .explore _ .sharedBottom => state.passed (.own worker) worker
  | .explore _ (.sharedTop bottom) =>
      state.passed (.own worker) worker ∧ state.seenShared worker = some bottom
  | .explore _ _ =>
      state.passed (.own worker) worker ∧ state.passed .shared worker
  | .idleStore =>
      state.passed (.own worker) worker ∧ state.passed .shared worker
  | .commitWait =>
      state.passed (.own worker) worker ∧ state.passed .shared worker
  | _ => True

/-- Every worker that gets past a queue found it empty. -/
def State.explored (state : State Task Poster) : Prop :=
  ∀ worker, Explored state worker (state.workers worker)

section Explored

variable {state target : State Task Poster}

theorem State.seen_congr (own_eq : target.seenOwn = state.seenOwn)
    (shared_eq : target.seenShared = state.seenShared) (queue : QueueId)
    (worker : ℕ) : target.seen queue worker = state.seen queue worker := by
  cases queue with
  | shared => exact congrFun shared_eq worker
  | own owner => exact congrFun own_eq worker

theorem State.passed.mono {queue : QueueId} {worker : ℕ}
    (passed : state.passed queue worker)
    (seen_eq : target.seen queue worker = state.seen queue worker)
    (top_le : (state.levels queue).top ≤ (target.levels queue).top) :
    target.passed queue worker := by
  rcases passed with ⟨bottom, seen, below⟩
  exact ⟨bottom, seen_eq.trans seen, below.trans top_le⟩

theorem Explored.mono {worker : ℕ} {pc : WorkerPc Task}
    (explored : Explored state worker pc)
    (own_eq : target.seenOwn worker = state.seenOwn worker)
    (shared_eq : target.seenShared worker = state.seenShared worker)
    (top_le :
      ∀ queue, (state.levels queue).top ≤ (target.levels queue).top) :
    Explored target worker pc := by
  have own (passed : state.passed (.own worker) worker) :
      target.passed (.own worker) worker := passed.mono own_eq (top_le _)
  have both
      (passed :
        state.passed (.own worker) worker ∧ state.passed .shared worker) :
      target.passed (.own worker) worker ∧ target.passed .shared worker :=
    ⟨own passed.1, passed.2.mono shared_eq (top_le _)⟩
  cases pc with
  | explore iteration place =>
      cases place with
      | ownBottom => trivial
      | ownTop bottom => exact own_eq.trans explored
      | sharedBottom => exact own explored
      | sharedTop bottom => exact ⟨own explored.1, shared_eq.trans explored.2⟩
      | scan other => exact both explored
      | otherBottom other => exact both explored
      | otherTop other bottom => exact both explored
  | idleStore => exact both explored
  | commitWait => exact both explored
  | _ => trivial

theorem explored_of_outside {worker : ℕ} {pc : WorkerPc Task}
    (outside : pc.outside = true) : Explored state worker pc := by
  cases pc with
  | explore iteration place => simp [WorkerPc.outside] at outside
  | idleStore => simp [WorkerPc.outside] at outside
  | commitWait => simp [WorkerPc.outside] at outside
  | _ => trivial

/-- Past the shared queue the place does not matter. -/
theorem explored_iff_of_scanning {worker iteration : ℕ} {place : ExplorePc}
    (scanning : place.scanning = true) :
    Explored state worker (.explore iteration place) ↔
      state.passed (.own worker) worker ∧ state.passed .shared worker := by
  cases place with
  | scan other => rfl
  | otherBottom other => rfl
  | otherTop other bottom => rfl
  | _ => simp [ExplorePc.scanning] at scanning

theorem explored_afterIteration {worker iteration : ℕ}
    (passed :
      state.passed (.own worker) worker ∧ state.passed .shared worker) :
    Explored state worker (afterIteration iteration) := by
  unfold afterIteration
  split
  · trivial
  · exact passed

/-- One worker moves; the others keep what they have seen. -/
theorem State.explored.move (explored : state.explored) {moved : ℕ}
    {pc : WorkerPc Task}
    (workers_eq : target.workers = Function.update state.workers moved pc)
    (own_eq :
      ∀ worker, worker ≠ moved → target.seenOwn worker = state.seenOwn worker)
    (shared_eq :
      ∀ worker, worker ≠ moved →
        target.seenShared worker = state.seenShared worker)
    (top_le :
      ∀ queue, (state.levels queue).top ≤ (target.levels queue).top)
    (fits : Explored target moved pc) : target.explored := by
  intro worker
  rw [workers_eq]
  by_cases same : worker = moved
  · subst same
    rw [Function.update_self]
    exact fits
  · rw [Function.update_of_ne same]
    exact (explored worker).mono (own_eq worker same) (shared_eq worker same) top_le

theorem State.explored.frame (explored : state.explored)
    (workers_eq : target.workers = state.workers)
    (own_eq : target.seenOwn = state.seenOwn)
    (shared_eq : target.seenShared = state.seenShared)
    (top_le :
      ∀ queue, (state.levels queue).top ≤ (target.levels queue).top) :
    target.explored := by
  intro worker
  rw [workers_eq]
  exact
    (explored worker).mono (by rw [own_eq]) (by rw [shared_eq]) top_le

variable [DecidableEq Poster] {size : ℕ}

/-- Tops never decrease. -/
theorem Step.top_le {action : Action Task Poster}
    (step : Step size state action target) (queue : QueueId) :
    (state.levels queue).top ≤ (target.levels queue).top := by
  cases step with
  | outside step => exact step.top_le queue
  | @pushes poster pushed pc _ _ _ =>
      by_cases same : queue = pushed
      · subst same
        simpa using ownerStep_top_le (state.levels queue) pc
      · simp [same]
  | _ => exact le_rfl

theorem Step.explored {action : Action Task Poster}
    (step : Step size state action target)
    (explored : state.explored) : target.explored := by
  have top_le := step.top_le
  have here {worker : ℕ} {pc : WorkerPc Task}
      (place : state.workers worker = pc) : Explored state worker pc := by
    rw [← place]
    exact explored worker
  cases step with
  | outside step =>
      exact
        explored.move step.workers_eq (fun _ _ => by rw [step.seenOwn_eq])
          (fun _ _ => by rw [step.seenShared_eq]) top_le
          (explored_of_outside step.after)
  | prepare place called =>
      refine explored.move rfl ?_ ?_ top_le trivial
      · exact fun worker different => Function.update_of_ne different _ _
      · exact fun worker different => Function.update_of_ne different _ _
  | lookOwn place =>
      refine explored.move rfl ?_ (fun _ _ => rfl) top_le ?_
      · exact fun worker different => Function.update_of_ne different _ _
      · exact Function.update_self _ _ _
  | ownEmpty place empty =>
      have seen := here place
      exact
        explored.move rfl (fun _ _ => rfl) (fun _ _ => rfl) top_le
          ⟨_, seen, empty⟩
  | lookShared place =>
      have passed := here place
      refine explored.move rfl (fun _ _ => rfl) ?_ top_le ?_
      · exact fun worker different => Function.update_of_ne different _ _
      · exact ⟨passed, Function.update_self _ _ _⟩
  | sharedEmpty place empty =>
      have found := here place
      exact
        explored.move rfl (fun _ _ => rfl) (fun _ _ => rfl) top_le
          ⟨found.1, _, found.2, empty⟩
  | scans place before scanning =>
      have passed := (explored_iff_of_scanning before).mp (here place)
      exact
        explored.move rfl (fun _ _ => rfl) (fun _ _ => rfl) top_le
          ((explored_iff_of_scanning scanning).mpr passed)
  | iterates place before =>
      have passed := (explored_iff_of_scanning before).mp (here place)
      exact
        explored.move rfl (fun _ _ => rfl) (fun _ _ => rfl) top_le
          (explored_afterIteration passed)
  | found _ _ =>
      exact
        explored.move rfl (fun _ _ => rfl) (fun _ _ => rfl) top_le trivial
  | cancelled _ _ _ =>
      exact
        explored.move rfl (fun _ _ => rfl) (fun _ _ => rfl) top_le trivial
  | commits place _ =>
      have passed := here place
      exact
        explored.move rfl (fun _ _ => rfl) (fun _ _ => rfl) top_le passed
  | woken _ _ =>
      exact
        explored.move rfl (fun _ _ => rfl) (fun _ _ => rfl) top_le trivial
  | _ => exact explored.frame rfl rfl rfl top_le

end Explored

end AsyncRuntime.ExecutorSlot
