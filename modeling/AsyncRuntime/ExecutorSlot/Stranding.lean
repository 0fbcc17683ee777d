import AsyncRuntime.ExecutorSlot.WorkerPhase

/-!
# No task is stranded

A queue is watched by the workers that look at it before they sleep: the shared
queue by all of them, the queue of a worker by that worker.  The invariant says
for every queue that a poster is about to notify, or that some watcher is awake,
or has not looked yet, or has looked at the current bottom.  A worker gets to
sleep only after it found the bottom it looked at at or below the top, and tops
never decrease; so when every watcher sleeps and nobody is about to notify, the
queue is empty.
-/

namespace AsyncRuntime.ExecutorSlot

open AsyncRuntime.Foundation
open AsyncRuntime.TaskQueue (OwnerPc ownerStep)

universe u v

variable {Task : Type u} {Poster : Type v}

/-! ## The hand-over -/

/-- The workers that look at a queue before they sleep. -/
def watches (size : ℕ) : QueueId → ℕ → Prop
  | .shared, worker => worker < size
  | .own owner, worker => worker = owner

/-- The worker is awake, or has yet to look, or has seen the latest push. -/
def State.fresh (state : State Task Poster) (queue : QueueId) (worker : ℕ) :
    Prop :=
  ¬ state.notifier.asleep worker ∨ state.seen queue worker = none ∨
    state.seen queue worker = some (state.levels queue).bottom

/-- The first `notify` after a push: where the poster is, and its argument. -/
def firstNotify : QueueId → PosterPc Task × Bool
  | .shared => (.notifyOne .shared, false)
  | .own worker => (.notifyWaiter worker 0, true)

/-- The poster has pushed and its first `notify` has not taken effect. -/
def State.pending (state : State Task Poster) (queue : QueueId)
    (poster : Poster) : Prop :=
  (∃ result, state.posters poster = .push queue (.idle result)) ∨
    state.posters poster = (firstNotify queue).1 ∧
      (state.notifier.notifying (.poster poster)).waking =
        some (firstNotify queue : PosterPc Task × Bool).2

/-- A poster is about to notify, or a watcher will find the latest push. -/
def State.handedOver (size : ℕ) (state : State Task Poster) (queue : QueueId) :
    Prop :=
  (∃ poster, state.pending queue poster) ∨
    ∃ worker, watches size queue worker ∧ state.fresh queue worker

/-- Posters use the queues only to push. -/
def State.postersPush (state : State Task Poster) : Prop :=
  ∀ poster queue pc, state.posters poster = .push queue pc →
    pushing pc = true ∨ ∃ result, pc = .idle result

section HandOver

variable {size : ℕ} {state target : State Task Poster} {queue : QueueId}

theorem State.fresh.mono {worker : ℕ} (fresh : state.fresh queue worker)
    (asleep : target.notifier.asleep worker → state.notifier.asleep worker)
    (seen_eq : target.seen queue worker = state.seen queue worker)
    (bottom_eq :
      (target.levels queue).bottom = (state.levels queue).bottom) :
    target.fresh queue worker := by
  rcases fresh with awake | unseen | current
  · exact .inl fun sleeps => awake (asleep sleeps)
  · exact .inr (.inl (seen_eq.trans unseen))
  · exact .inr (.inr (by rw [seen_eq, current, bottom_eq]))

/-- A notify that has taken effect leaves a watcher awake. -/
theorem exists_awake_of_woken (positive : 0 < size)
    (woken :
      WorkNotifier.Woken size state.notifier
        (firstNotify queue : PosterPc Task × Bool).2) :
    ∃ worker, watches size queue worker ∧ state.fresh queue worker := by
  cases queue with
  | shared =>
      rcases woken positive with ⟨worker, worker_lt, awake⟩
      exact ⟨worker, worker_lt, .inl awake⟩
  | own owner => exact ⟨owner, rfl, .inl (woken owner)⟩

theorem State.handedOver.frame (handed : state.handedOver size queue)
    (notifier_eq : target.notifier = state.notifier)
    (posters_eq : target.posters = state.posters)
    (fresh :
      ∀ worker, watches size queue worker → state.fresh queue worker →
        target.fresh queue worker) :
    target.handedOver size queue := by
  rcases handed with ⟨poster, pending⟩ | ⟨worker, watching, seen⟩
  · left
    refine ⟨poster, ?_⟩
    simpa only [State.pending, notifier_eq, posters_eq] using pending
  · exact .inr ⟨worker, watching, fresh worker watching seen⟩

/-- A move of a worker that only concerns what it has seen. -/
theorem State.handedOver.look (handed : state.handedOver size queue)
    (notifier_eq : target.notifier = state.notifier)
    (posters_eq : target.posters = state.posters)
    (levels_eq : target.levels = state.levels)
    (seen :
      ∀ worker, watches size queue worker →
        target.seen queue worker = state.seen queue worker ∨
          target.seen queue worker = some (state.levels queue).bottom) :
    target.handedOver size queue := by
  refine handed.frame notifier_eq posters_eq ?_
  intro worker watching fresh
  rcases seen worker watching with same | current
  · exact fresh.mono (by rw [notifier_eq]; exact id) same (by rw [levels_eq])
  · exact .inr (.inr (by rw [current, levels_eq]))

/-- A poster that is not between a push and its first notify moves. -/
theorem State.handedOver.poster_moves [DecidableEq Poster]
    (handed : state.handedOver size queue) {moved : Poster}
    {pc : PosterPc Task} (notifier_eq : target.notifier = state.notifier)
    (posters_eq : target.posters = Function.update state.posters moved pc)
    (idle : ¬ state.pending queue moved)
    (fresh :
      ∀ worker, state.fresh queue worker → target.fresh queue worker) :
    target.handedOver size queue := by
  rcases handed with ⟨poster, pending⟩ | ⟨worker, watching, seen⟩
  · left
    have different : poster ≠ moved := by
      rintro rfl
      exact idle pending
    refine ⟨poster, ?_⟩
    simpa only [State.pending, notifier_eq, posters_eq, ne_eq, different,
      not_false_eq_true, Function.update_of_ne] using pending
  · exact .inr ⟨worker, watching, fresh worker seen⟩

/-- The call that follows a push is the pending one. -/
theorem PosterCall.eq_firstNotify {all : Bool} {pc : PosterPc Task}
    {result : Option Task} (positive : 0 < size)
    (calls : PosterCall size (.push queue (.idle result)) all pc) :
    pc = (firstNotify queue).1 ∧
      all = (firstNotify queue : PosterPc Task × Bool).2 := by
  cases calls with
  | own _ => exact ⟨rfl, rfl⟩
  | nobody empty => omega
  | shared => exact ⟨rfl, rfl⟩

variable [DecidableEq Poster]

/-- A pending notify stays pending or takes effect. -/
theorem State.pending.called {label : WorkNotifier.Action (Caller Poster)}
    {poster : Poster} (pending : state.pending queue poster)
    (called : Called size state label target.notifier)
    (invariant : WorkNotifier.Invariant size state.notifier)
    (posters_eq : target.posters poster = state.posters poster) :
    target.pending queue poster ∨
      WorkNotifier.Woken size target.notifier
        (firstNotify queue : PosterPc Task × Bool).2 := by
  rcases pending with pushed | ⟨place, waking⟩
  · left
    left
    simpa only [posters_eq] using pushed
  · rcases (WorkNotifier.step_of_next called.taken).waking invariant
      called.bounded waking with still | woken
    · exact .inl (.inr ⟨posters_eq.trans place, still⟩)
    · exact .inr woken

/-- A step of the event count in which no poster moves. -/
theorem State.handedOver.called (handed : state.handedOver size queue)
    (positive : 0 < size) {label : WorkNotifier.Action (Caller Poster)}
    (called : Called size state label target.notifier)
    (invariant : WorkNotifier.Invariant size state.notifier)
    (posters_eq : target.posters = state.posters)
    (fresh :
      ∀ worker, watches size queue worker → state.fresh queue worker →
        target.fresh queue worker) :
    target.handedOver size queue := by
  rcases handed with ⟨poster, pending⟩ | ⟨worker, watching, seen⟩
  · rcases pending.called called invariant (by rw [posters_eq]) with
      still | woken
    · exact .inl ⟨poster, still⟩
    · exact .inr (exists_awake_of_woken positive woken)
  · exact .inr ⟨worker, watching, fresh worker watching seen⟩

/-- A poster calls `notify`. -/
theorem State.handedOver.poster_calls (handed : state.handedOver size queue)
    (positive : 0 < size) {moved : Poster} {all : Bool} {pc : PosterPc Task}
    (calls : PosterCall size (state.posters moved) all pc)
    (called : Called size state (.notify (.poster moved) all) target.notifier)
    (invariant : WorkNotifier.Invariant size state.notifier)
    (posters_eq : target.posters = Function.update state.posters moved pc)
    (fresh :
      ∀ worker, state.fresh queue worker → target.fresh queue worker) :
    target.handedOver size queue := by
  rcases handed with ⟨poster, pending⟩ | ⟨worker, watching, seen⟩
  · by_cases same : poster = moved
    · subst same
      rcases called.notify with ⟨⟨returned, outside⟩, waking⟩
      rcases pending with ⟨result, pushed⟩ | ⟨_, inside⟩
      · rw [pushed] at calls
        rcases calls.eq_firstNotify positive with ⟨rfl, rfl⟩
        refine .inl ⟨poster, .inr ⟨?_, waking⟩⟩
        rw [posters_eq, Function.update_self]
      · simp [outside, WorkNotifier.NotifyPc.waking] at inside
    · rcases pending.called called invariant
        (by rw [posters_eq, Function.update_of_ne same]) with still | woken
      · exact .inl ⟨poster, still⟩
      · exact .inr (exists_awake_of_woken positive woken)
  · exact .inr ⟨worker, watching, fresh worker seen⟩

/-- A push becomes visible with its last step, and then a notify is pending. -/
theorem State.handedOver.push (handed : state.handedOver size queue)
    (push : state.postersPush) {poster : Poster} {pushed : QueueId}
    {pc : OwnerPc Task} (at_push : state.posters poster = .push pushed pc)
    (inside : ∀ result, pc ≠ .idle result) :
    ((state.setLevel pushed
        (ownerStep (state.levels pushed) pc).1).setPoster poster
      (.push pushed (ownerStep (state.levels pushed) pc).2)).handedOver
        size queue := by
  have idle : ¬ state.pending queue poster := by
    rintro (⟨result, finished⟩ | ⟨place, -⟩)
    · rw [at_push] at finished
      simp only [PosterPc.push.injEq] at finished
      exact inside result finished.2
    · rw [at_push] at place
      cases queue <;> simp [firstNotify] at place
  have pushes : pushing pc = true := by
    rcases push poster pushed pc at_push with pushing | ⟨result, finished⟩
    · exact pushing
    · exact absurd finished (inside result)
  by_cases same : queue = pushed
  · subst same
    rcases ownerStep_pushing (state.levels queue) pushes with
      ⟨result, finished⟩ | ⟨_, bottom_eq⟩
    · exact .inl ⟨poster, .inl ⟨result, by simp [finished]⟩⟩
    · refine handed.poster_moves rfl rfl idle ?_
      intro worker fresh
      exact
        fresh.mono id (State.seen_congr rfl rfl queue worker)
          (by simpa using bottom_eq)
  · refine handed.poster_moves rfl rfl idle ?_
    intro worker fresh
    exact
      fresh.mono id (State.seen_congr rfl rfl queue worker) (by simp [same])

theorem Step.handedOver {action : Action Task Poster}
    (step : Step size state action target) (positive : 0 < size)
    (linked : state.linked) (push : state.postersPush)
    (invariant : WorkNotifier.Invariant size state.notifier)
    (handed : state.handedOver size queue) : target.handedOver size queue := by
  -- a step of the event count that is no `prepare_wait`
  have calls {label : WorkNotifier.Action (Caller Poster)}
      (called : Called size state label target.notifier)
      (other : ∀ worker, label ≠ .prepareWait worker)
      (posters_eq : target.posters = state.posters)
      (levels_eq : target.levels = state.levels)
      (own_eq : target.seenOwn = state.seenOwn)
      (shared_eq : target.seenShared = state.seenShared) :
      target.handedOver size queue := by
    refine handed.called positive called invariant posters_eq ?_
    intro worker _ fresh
    exact
      fresh.mono (called.asleep_of invariant (other worker))
        (State.seen_congr own_eq shared_eq queue worker) (by rw [levels_eq])
  -- a step that concerns neither the event count nor a queue
  have stays (notifier_eq : target.notifier = state.notifier)
      (posters_eq : target.posters = state.posters)
      (levels_eq : target.levels = state.levels)
      (own_eq : target.seenOwn = state.seenOwn)
      (shared_eq : target.seenShared = state.seenShared) :
      target.handedOver size queue :=
    handed.look notifier_eq posters_eq levels_eq fun worker _ =>
      .inl (State.seen_congr own_eq shared_eq queue worker)
  cases step with
  | @outside _ moved pc _ step =>
      refine handed.frame step.notifier_eq step.posters_eq ?_
      intro worker watching fresh
      by_cases own : queue = .own moved
      · -- the owner of the queue is awake
        subst own
        have same : worker = moved := watching
        subst same
        left
        rw [step.notifier_eq]
        exact
          WorkNotifier.not_asleep_of_idle
            ((linked_iff_of_outside step.before).mp (linked worker))
      · refine fresh.mono (by rw [step.notifier_eq]; exact id) ?_
          (step.bottom_eq queue own)
        exact State.seen_congr step.seenOwn_eq step.seenShared_eq queue worker
  | @prepare moved notifier _ place called =>
      refine handed.called positive called invariant rfl ?_
      intro worker _ fresh
      by_cases same : worker = moved
      · subst same
        right
        left
        cases queue <;> simp [State.seen]
      · refine fresh.mono (called.asleep_of invariant ?_) ?_ rfl
        · simpa using fun equal => same equal.symm
        · cases queue <;> simp [State.seen, same]
  | @lookOwn moved iteration _ place =>
      refine handed.look rfl rfl rfl ?_
      intro worker watching
      cases queue with
      | shared => exact .inl rfl
      | own owner =>
          have watching : worker = owner := watching
          subst watching
          by_cases same : worker = moved
          · subst same
            exact .inr (Function.update_self _ _ _)
          · exact .inl (Function.update_of_ne same _ _)
  | ownEmpty _ _ => exact stays rfl rfl rfl rfl rfl
  | @lookShared moved iteration _ place =>
      refine handed.look rfl rfl rfl ?_
      intro worker _
      cases queue with
      | own owner => exact .inl rfl
      | shared =>
          by_cases same : worker = moved
          · subst same
            exact .inr (Function.update_self _ _ _)
          · exact .inl (Function.update_of_ne same _ _)
  | sharedEmpty _ _ => exact stays rfl rfl rfl rfl rfl
  | scans _ _ _ => exact stays rfl rfl rfl rfl rfl
  | iterates _ _ => exact stays rfl rfl rfl rfl rfl
  | found _ called => exact calls called (by simp) rfl rfl rfl rfl
  | cancels _ called => exact calls called (by simp) rfl rfl rfl rfl
  | cancelled _ _ called => exact calls called (by simp) rfl rfl rfl rfl
  | notifies _ called => exact calls called (by simp) rfl rfl rfl rfl
  | commits _ called => exact calls called (by simp) rfl rfl rfl rfl
  | waits _ called => exact calls called (by simp) rfl rfl rfl rfl
  | woken _ _ => exact stays rfl rfl rfl rfl rfl
  | @posterMoves poster pc locked _ move =>
      refine handed.poster_moves rfl rfl ?_ fun worker fresh =>
        fresh.mono id (State.seen_congr rfl rfl queue worker) rfl
      rintro (⟨result, pushed⟩ | ⟨place, -⟩)
      · rw [pushed] at move
        cases move
      · rw [place] at move
        cases queue <;> cases move
  | @posterReturns poster unlocked result _ at_notify returned =>
      refine handed.poster_moves rfl rfl ?_ fun worker fresh =>
        fresh.mono id (State.seen_congr rfl rfl queue worker) rfl
      rintro (⟨finished, pushed⟩ | ⟨-, waking⟩)
      · simp [pushed, PosterPc.notifies] at at_notify
      · simp [returned, WorkNotifier.NotifyPc.waking] at waking
  | pushes at_push inside => exact handed.push push at_push inside
  | posterCalls posterCall called =>
      refine handed.poster_calls positive posterCall called invariant rfl ?_
      intro worker fresh
      exact
        fresh.mono (called.asleep_of invariant (by simp))
          (State.seen_congr rfl rfl queue worker) rfl
  | posterNotifies _ called => exact calls called (by simp) rfl rfl rfl rfl
  | destroy _ => exact stays rfl rfl rfl rfl rfl
  | storesDone _ called => exact calls called (by simp) rfl rfl rfl rfl
  | destructorNotifies _ called => exact calls called (by simp) rfl rfl rfl rfl
  | destructorReturns _ _ => exact stays rfl rfl rfl rfl rfl
  | joins _ _ => exact stays rfl rfl rfl rfl rfl
  | finishes _ _ => exact stays rfl rfl rfl rfl rfl

theorem Step.postersPush {action : Action Task Poster}
    (step : Step size state action target)
    (push : state.postersPush) : target.postersPush := by
  have moves {moved : Poster} {pc : PosterPc Task}
      (fits :
        ∀ queue inner, pc = .push queue inner →
          pushing inner = true ∨ ∃ result, inner = .idle result)
      (posters_eq : target.posters = Function.update state.posters moved pc) :
      target.postersPush := by
    intro poster queue inner place
    rw [posters_eq] at place
    by_cases same : poster = moved
    · subst same
      rw [Function.update_self] at place
      exact fits queue inner place
    · rw [Function.update_of_ne same] at place
      exact push poster queue inner place
  cases step with
  | outside step =>
      intro poster queue inner place
      rw [step.posters_eq] at place
      exact push poster queue inner place
  | posterMoves move =>
      refine moves ?_ rfl
      rintro queue inner rfl
      generalize (state.posters _) = before at move
      cases move with
      | locks => exact .inl rfl
  | posterReturns _ _ =>
      refine moves ?_ rfl
      rintro queue inner ⟨⟩
  | @pushes poster queue pc _ at_push inside =>
      refine moves ?_ rfl
      rintro other inner ⟨rfl, rfl⟩
      rcases push poster queue pc at_push with pushing | ⟨result, finished⟩
      · rcases ownerStep_pushing (state.levels queue) pushing with
          finished | ⟨still, -⟩
        · exact .inr finished
        · exact .inl still
      · exact absurd finished (inside result)
  | posterCalls calls _ =>
      refine moves ?_ rfl
      rintro queue inner rfl
      generalize (state.posters _) = before at calls
      cases calls
  | _ => exact push

end HandOver

/-! ## No task is stranded -/

/-- `commit_wait` has put the worker on the stack and no notify has popped it. -/
def State.parked (state : State Task Poster) (worker : ℕ) : Prop :=
  state.notifier.waiting worker = .parked false

/-- The queue holds a task. -/
def State.holdsTask (state : State Task Poster) (queue : QueueId) : Prop :=
  (state.levels queue).top < (state.levels queue).bottom

/-- The poster is between its push to the queue and the end of its notify. -/
def PosterPc.handsOver (queue : QueueId) : PosterPc Task → Prop
  | .push pushed (.idle _) => pushed = queue
  | .notifyWaiter worker _ => .own worker = queue
  | .notifyOne pushed => pushed = queue
  | _ => False

/-- What the slot maintains besides its event count. -/
structure Invariant (size : ℕ) (state : State Task Poster) : Prop where
  linked : state.linked
  explored : state.explored
  push : state.postersPush
  handed : ∀ queue, state.handedOver size queue

section Main

variable {size : ℕ} {state : State Task Poster}

theorem State.pending.handsOver {queue : QueueId} {poster : Poster}
    (pending : state.pending queue poster) :
    (state.posters poster).handsOver queue := by
  rcases pending with ⟨result, pushed⟩ | ⟨place, -⟩
  · rw [pushed]
    rfl
  · rw [place]
    cases queue <;> rfl

/-- A parked worker has found both its queues empty. -/
theorem Invariant.passed_of_parked (invariant : Invariant size state)
    {worker : ℕ} (parked : state.parked worker) :
    state.passed (.own worker) worker ∧ state.passed .shared worker := by
  have phase : state.phase worker = .committing := by
    rw [State.phase, parked]
    rfl
  have linked := invariant.linked worker
  have explored := invariant.explored worker
  rw [phase] at linked
  cases place : state.workers worker with
  | commitWait =>
      rw [place] at explored
      exact explored
  | _ => simp [place, Linked] at linked

/-- A queue whose watchers are all parked is empty, or a notify is coming. -/
theorem Invariant.empty_of_parked (invariant : Invariant size state)
    {queue : QueueId}
    (quiet : ∀ poster, ¬ (state.posters poster).handsOver queue)
    (parked : ∀ worker, watches size queue worker → state.parked worker) :
    ¬ state.holdsTask queue := by
  rcases invariant.handed queue with
    ⟨poster, pending⟩ | ⟨worker, watching, fresh⟩
  · exact absurd pending.handsOver (quiet poster)
  · have passed := invariant.passed_of_parked (parked worker watching)
    have here : state.passed queue worker := by
      cases queue with
      | shared => exact passed.2
      | own owner =>
          have same : worker = owner := watching
          subst same
          exact passed.1
    rcases here with ⟨bottom, seen, below⟩
    rcases fresh with awake | unseen | current
    · exact absurd (.inr (parked worker watching)) awake
    · simp [seen] at unseen
    · rw [seen, Option.some.injEq] at current
      unfold State.holdsTask
      omega

theorem Invariant.initial {memory : QueueId → ℕ → ℤ → Option Task}
    {waiters : ℕ → WorkNotifier.Waiter} (positive : 0 < size) :
    Invariant size (State.initial size memory waiters : State Task Poster) where
  linked := fun _ => rfl
  explored := fun _ => trivial
  push := by
    intro poster queue pc place
    simp [State.initial] at place
  handed := by
    intro queue
    right
    cases queue with
    | shared => exact ⟨0, positive, .inr (.inl rfl)⟩
    | own owner => exact ⟨owner, rfl, .inr (.inl rfl)⟩

variable [DecidableEq Poster]

theorem invariant_of_reachable {cpus : List ℕ} (positive : 0 < cpus.length)
    (size_lt : cpus.length < 2 ^ 16 - 1)
    (reachable :
      (system Task Poster cpus).ReachableUnder epochsBounded state) :
    Invariant cpus.length state := by
  refine reachable.invariant ?_ ?_
  · rintro start ⟨memory, waiters, rfl⟩
    exact .initial positive
  · intro source action target reached bounded taken invariant
    have step := step_of_next bounded taken
    have notifier := notifier_invariant size_lt reached
    exact
      ⟨step.linked invariant.linked, step.explored invariant.explored,
        step.postersPush invariant.push, fun queue =>
          step.handedOver positive invariant.linked invariant.push notifier
            (invariant.handed queue)⟩

/--
In every state of every run within the epoch bounds: if the shared queue holds a
task and no post to it is between its push and the end of its notify, some
worker is not parked; and if the queue of a worker holds a task and no post to
that worker is between its push and the end of `notify_waiter`, that worker is
not parked.
-/
theorem no_task_stranded {cpus : List ℕ} {state : State Task Poster}
    (positive : 1 ≤ cpus.length) (size_lt : cpus.length < 2 ^ 16 - 1)
    (reachable :
      (system Task Poster cpus).ReachableUnder epochsBounded state) :
    (state.holdsTask .shared →
        (∀ poster, ¬ (state.posters poster).handsOver .shared) →
        ∃ worker, worker < cpus.length ∧ ¬ state.parked worker) ∧
      ∀ worker, worker < cpus.length →
        state.holdsTask (.own worker) →
        (∀ poster, ¬ (state.posters poster).handsOver (.own worker)) →
        ¬ state.parked worker := by
  have invariant := invariant_of_reachable positive size_lt reachable
  constructor
  · intro holds quiet
    by_contra asleep
    refine invariant.empty_of_parked quiet ?_ holds
    intro worker worker_lt
    by_contra awake
    exact asleep ⟨worker, worker_lt, awake⟩
  · intro worker worker_lt holds quiet parked
    refine invariant.empty_of_parked quiet ?_ holds
    intro other same
    have same : other = worker := same
    rw [same]
    exact parked

end Main

/-- The only worker goes to sleep, a task is posted, and the worker is woken. -/
theorem no_task_stranded_wokenByPost :
    ∃ state : State Unit Unit,
      (system Unit Unit [0]).ReachableUnder epochsBounded state ∧
        state.holdsTask .shared ∧ state.posters () = .idle ∧
        ∃ worker, worker < 1 ∧ ¬ state.parked worker := by
  rcases TransitionSystem.exists_reachableUnder_of_run
      (system Unit Unit [0]) epochsBounded
      ⟨fun _ _ _ => none, fun _ => ⟨none, 0, .kNotSignaled⟩, rfl⟩
      (List.replicate 163 (.worker 0 false) ++ .post () () none ::
        List.replicate 15 (.poster () false))
      (fun state =>
        decide ((state.levels .shared).top < (state.levels .shared).bottom) &&
          decide (state.posters () = .idle))
      (by decide +kernel) with ⟨state, reachable, facts⟩
  rw [Bool.and_eq_true, decide_eq_true_eq, decide_eq_true_eq] at facts
  have quiet (poster : Unit) : ¬ (state.posters poster).handsOver .shared := by
    rw [facts.2]
    exact id
  exact
    ⟨state, reachable, facts.1, facts.2,
      (no_task_stranded (by decide) (by decide) reachable).1 facts.1 quiet⟩

end AsyncRuntime.ExecutorSlot
