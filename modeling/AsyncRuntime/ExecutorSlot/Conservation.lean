import AsyncRuntime.ExecutorSlot.Stranding
import AsyncRuntime.TaskQueue.Shared

/-!
# The tasks of a slot are neither lost nor run twice

An observer sees the tasks that are posted, those whose `invoke` is called and those
that are deleted.  Every worker and every poster is one of the threads that share the
queues, with the mutex of a worker or of the slot as the lock of its queue.  So the
tasks posted are those invoked, those that a thread has in its hands and those in the
queues, each as often as it was posted.
-/

namespace AsyncRuntime.ExecutorSlot

open AsyncRuntime.Foundation
open AsyncRuntime.Foundation.StealingDeque (goods)
open AsyncRuntime.TaskQueue
  (Level OwnerPc ThiefPc ownerStep thiefStep Handling Shared SharedStep Settled Confined)

universe u v

variable {Task : Type u} {Poster : Type v}

/-- What an observer sees of a task. -/
inductive TaskEvent (Task : Type u) where
  | posted (task : Task)
  | invoked (task : Task)
  | deleted (task : Task)

/-- The task that the worker is about to invoke. -/
def WorkerPc.invoking : WorkerPc Task → Option Task
  | .invoke task => some task
  | _ => none

/-- The task that the worker has invoked and is about to delete. -/
def WorkerPc.deleting : WorkerPc Task → Option Task
  | .delete task => some task
  | _ => none

/-- What a step shows. -/
def shows (state : State Task Poster) : Action Task Poster → List (TaskEvent Task)
  | .post _ task _ => [.posted task]
  | .worker worker _ =>
      (state.workers worker).invoking.toList.map .invoked ++
        (state.workers worker).deleting.toList.map .deleted
  | _ => []

/-- The slot with what happens to its tasks. -/
def observed (Task : Type u) (Poster : Type v) [DecidableEq Poster] (cpus : List ℕ) :
    ObservedSystem (State Task Poster) (Action Task Poster) (TaskEvent Task) where
  toTransitionSystem := system Task Poster cpus
  shows := fun state action _ => shows state action

/-- The tasks posted. -/
def posted (events : List (TaskEvent Task)) : Multiset Task :=
  Multiset.ofList <| events.filterMap fun event =>
    match event with
    | .posted task => some task
    | _ => none

/-- The tasks invoked. -/
def invoked (events : List (TaskEvent Task)) : Multiset Task :=
  Multiset.ofList <| events.filterMap fun event =>
    match event with
    | .invoked task => some task
    | _ => none

/-- The tasks deleted. -/
def deleted (events : List (TaskEvent Task)) : Multiset Task :=
  Multiset.ofList <| events.filterMap fun event =>
    match event with
    | .deleted task => some task
    | _ => none

section Counts

variable (first second : List (TaskEvent Task)) (task : Option Task)

theorem posted_append : posted (first ++ second) = posted first + posted second := by
  rw [posted, List.filterMap_append, ← Multiset.coe_add]
  rfl

theorem invoked_append : invoked (first ++ second) = invoked first + invoked second := by
  rw [invoked, List.filterMap_append, ← Multiset.coe_add]
  rfl

theorem deleted_append : deleted (first ++ second) = deleted first + deleted second := by
  rw [deleted, List.filterMap_append, ← Multiset.coe_add]
  rfl

end Counts

/-! ## The threads of the slot -/

/-- What a worker does with the queues. -/
def WorkerPc.handling (worker : ℕ) : WorkerPc Task → Handling QueueId Task
  | .exploitPop pc => .owns (.own worker) pc
  | .exploitSteal pc => .steals .shared pc
  | .exploitStealOther other pc => .steals (.own other) pc
  | .executeStore task => .free (some task)
  | .invoke task => .free (some task)
  | _ => .free none

/-- What a poster does with the queues. -/
def PosterPc.handling : PosterPc Task → Handling QueueId Task
  | .idle => .free none
  | .lock _ task => .free (some task)
  | .push queue pc => .owns queue pc
  | .notifyWaiter worker _ => .holds (.own worker)
  | .notifyOne queue => .holds queue
  | .unlock queue => .holds queue

/-- The slot as queues that threads share. -/
def State.shared (state : State Task Poster) : Shared QueueId (Caller Poster) Task where
  levels := state.levels
  locked := state.locked
  threads
    | .worker worker => (state.workers worker).handling worker
    | .poster poster => (state.posters poster).handling
    | .destructor => .free none

/-- The slot's own queue and those of its workers. -/
def used (size : ℕ) : QueueId → Prop
  | .shared => True
  | .own worker => worker < size

theorem used_postQueue (cpus : List ℕ) (processor : Option ℕ) :
    used cpus.length (postQueue cpus processor) := by
  cases processor with
  | none => trivial
  | some processor =>
      rw [postQueue]
      split
      · rename_i worker found
        exact (List.findIdx?_eq_some_iff_getElem.mp found).1
      · trivial

variable [DecidableEq Poster] {state target : State Task Poster}

/-- A worker is somewhere else. -/
theorem shared_of_worker {worker : ℕ} {pc : WorkerPc Task}
    (workers_eq : target.workers = Function.update state.workers worker pc)
    (posters_eq : target.posters = state.posters) :
    target.shared =
      { levels := target.levels
        locked := target.locked
        threads :=
          Function.update state.shared.threads (.worker worker) (pc.handling worker) } := by
  rw [State.shared, workers_eq, posters_eq]
  congr 1
  funext thread
  cases thread with
  | worker other =>
      dsimp only
      rcases eq_or_ne other worker with rfl | elsewhere
      · rw [Function.update_self, Function.update_self]
      · rw [Function.update_of_ne elsewhere,
          Function.update_of_ne fun same => elsewhere (Caller.worker.inj same)]
        rfl
  | poster poster => rfl
  | destructor => rfl

/-- A poster is somewhere else. -/
theorem shared_of_poster {poster : Poster} {pc : PosterPc Task}
    (posters_eq : target.posters = Function.update state.posters poster pc)
    (workers_eq : target.workers = state.workers) :
    target.shared =
      { levels := target.levels
        locked := target.locked
        threads := Function.update state.shared.threads (.poster poster) pc.handling } := by
  rw [State.shared, workers_eq, posters_eq]
  congr 1
  funext thread
  cases thread with
  | worker other => rfl
  | poster other =>
      dsimp only
      rcases eq_or_ne other poster with rfl | elsewhere
      · rw [Function.update_self, Function.update_self]
      · rw [Function.update_of_ne elsewhere,
          Function.update_of_ne fun same => elsewhere (Caller.poster.inj same)]
        rfl
  | destructor => rfl

/-! ## The steps of a worker -/

/-- What a step of a worker does with the tasks. -/
structure WorkerMoves (size : ℕ) (state : State Task Poster) (worker : ℕ)
    (target : State Task Poster) : Prop where
  shared :
    SharedStep (used size) state.shared 0 (goods (state.workers worker).invoking) target.shared
  workers :
    ∃ pc, target.workers = Function.update state.workers worker pc ∧
      pc.deleting = (state.workers worker).invoking
  posters : target.posters = state.posters

variable {size worker : ℕ}

/-- A step that touches no queue. -/
theorem WorkerMoves.of_same {pc : WorkerPc Task}
    (workers_eq : target.workers = Function.update state.workers worker pc)
    (same : target.levels = state.levels ∧ target.locked = state.locked ∧
      target.posters = state.posters)
    (handling_eq : pc.handling worker = (state.workers worker).handling worker)
    (invoking : (state.workers worker).invoking = none) (deleting : pc.deleting = none) :
    WorkerMoves size state worker target := by
  obtain ⟨levels_eq, locked_eq, posters_eq⟩ := same
  refine ⟨?_, ⟨pc, workers_eq, by rw [deleting, invoking]⟩, posters_eq⟩
  have unchanged : target.shared = state.shared := by
    rw [shared_of_worker workers_eq posters_eq, levels_eq, locked_eq, handling_eq]
    exact congrArg (Shared.mk _ _) (Function.update_eq_self _ _)
  rw [unchanged, invoking]
  exact .stays

/-- A step of a queue, of its lock or of the hands of the worker. -/
theorem WorkerMoves.of_step {pc : WorkerPc Task}
    (workers_eq : target.workers = Function.update state.workers worker pc)
    (posters_eq : target.posters = state.posters)
    (deleting : pc.deleting = (state.workers worker).invoking)
    (step :
      SharedStep (used size) state.shared 0 (goods (state.workers worker).invoking)
        { levels := target.levels
          locked := target.locked
          threads :=
            Function.update state.shared.threads (.worker worker) (pc.handling worker) }) :
    WorkerMoves size state worker target := by
  refine ⟨?_, ⟨pc, workers_eq, deleting⟩, posters_eq⟩
  rw [shared_of_worker workers_eq posters_eq]
  exact step

/-- The event count does not touch the queues. -/
theorem exists_of_callNotifier {label : WorkNotifier.Action (Caller Poster)}
    {after : State Task Poster → State Task Poster}
    (taken : (state.callNotifier size label).map after = some target) :
    ∃ notifier, target = after (state.setNotifier notifier) := by
  simp only [State.callNotifier, Option.map_map, Option.map_eq_some_iff] at taken
  obtain ⟨notifier, -, rfl⟩ := taken
  exact ⟨notifier, rfl⟩

theorem workerMoves_of_found {iteration : ℕ} {pc : ExplorePc}
    (exploring : state.workers worker = .explore iteration pc)
    (taken : state.found size worker = some target) : WorkerMoves size state worker target := by
  obtain ⟨notifier, rfl⟩ := exists_of_callNotifier taken
  refine .of_same rfl ⟨rfl, rfl, rfl⟩ ?_ ?_ rfl
  · rw [exploring]
    rfl
  · rw [exploring]
    rfl

theorem workerMoves_of_exploreStep {iteration : ℕ} {pc : ExplorePc}
    (exploring : state.workers worker = .explore iteration pc)
    (taken : exploreStep state size worker iteration pc = some target) :
    WorkerMoves size state worker target := by
  have moves {next : WorkerPc Task} {last : State Task Poster}
      (workers_eq : last.workers = Function.update state.workers worker next)
      (same : last.levels = state.levels ∧ last.locked = state.locked ∧
        last.posters = state.posters)
      (handling_eq : next.handling worker = .free none) (deleting : next.deleting = none) :
      WorkerMoves size state worker last :=
    .of_same workers_eq same (by rw [exploring, handling_eq]; rfl) (by rw [exploring]; rfl)
      deleting
  cases pc with
  | ownBottom =>
      cases taken
      exact moves rfl ⟨rfl, rfl, rfl⟩ rfl rfl
  | ownTop bottom =>
      simp only [exploreStep] at taken
      split at taken
      · cases taken
        exact moves rfl ⟨rfl, rfl, rfl⟩ rfl rfl
      · exact workerMoves_of_found exploring taken
  | sharedBottom =>
      cases taken
      exact moves rfl ⟨rfl, rfl, rfl⟩ rfl rfl
  | sharedTop bottom =>
      simp only [exploreStep] at taken
      split at taken
      · cases taken
        exact moves rfl ⟨rfl, rfl, rfl⟩ rfl rfl
      · exact workerMoves_of_found exploring taken
  | scan other =>
      simp only [exploreStep] at taken
      split at taken
      · split at taken
        · cases taken
          exact moves rfl ⟨rfl, rfl, rfl⟩ rfl rfl
        · cases taken
          exact moves rfl ⟨rfl, rfl, rfl⟩ rfl rfl
      · cases taken
        refine moves rfl ⟨rfl, rfl, rfl⟩ ?_ ?_
        · unfold afterIteration
          split <;> rfl
        · unfold afterIteration
          split <;> rfl
  | otherBottom other =>
      cases taken
      exact moves rfl ⟨rfl, rfl, rfl⟩ rfl rfl
  | otherTop other bottom =>
      simp only [exploreStep] at taken
      split at taken
      · cases taken
        exact moves rfl ⟨rfl, rfl, rfl⟩ rfl rfl
      · exact workerMoves_of_found exploring taken

theorem workerMoves_of_workerStep {spurious : Bool} (inside : worker < size)
    (taken : workerStep state size worker spurious = some target) :
    WorkerMoves size state worker target := by
  have moves {pc next : WorkerPc Task} {last : State Task Poster}
      (place : state.workers worker = pc)
      (workers_eq : last.workers = Function.update state.workers worker next)
      (same : last.levels = state.levels ∧ last.locked = state.locked ∧
        last.posters = state.posters)
      (handling_eq : next.handling worker = pc.handling worker)
      (invoking : pc.invoking = none) (deleting : next.deleting = none) :
      WorkerMoves size state worker last :=
    .of_same workers_eq same (by rw [place, handling_eq]) (by rw [place, invoking]) deleting
  have stays {pc : WorkerPc Task} (place : state.workers worker = pc)
      (invoking : pc.invoking = none) (deleting : pc.deleting = none)
      {label : WorkNotifier.Action (Caller Poster)}
      (called : state.callNotifier size label = some target) :
      WorkerMoves size state worker target := by
    obtain ⟨notifier, -, rfl⟩ := Option.map_eq_some_iff.mp called
    refine moves place ?_ ⟨rfl, rfl, rfl⟩ rfl invoking deleting
    rw [← place, Function.update_eq_self]
    rfl
  unfold workerStep at taken
  cases place : state.workers worker with
  | loopTest =>
      simp only [place, Option.some.injEq] at taken
      subst taken
      refine moves place rfl ⟨rfl, rfl, rfl⟩ ?_ rfl ?_
      · split <;> rfl
      · split <;> rfl
  | exploitLock =>
      simp only [place] at taken
      split at taken
      · cases taken
      · rename_i unlocked
        cases taken
        refine .of_step rfl rfl (by rw [place]; rfl) ?_
        rw [place]
        exact .pops inside (eq_false_of_ne_true unlocked)
          (congrArg (WorkerPc.handling worker) place)
  | exploitPop pc =>
      have owns : state.shared.threads (.worker worker) = .owns (.own worker) pc :=
        congrArg (WorkerPc.handling worker) place
      cases pc with
      | idle result =>
          simp only [place, Option.some.injEq] at taken
          subst taken
          refine .of_step rfl rfl (by rw [place]; cases result <;> rfl) ?_
          rw [place]
          cases result with
          | some task => exact .returns owns
          | none => exact .movesOn trivial owns
      | _ =>
          simp only [place, Option.some.injEq] at taken
          subst taken
          refine .of_step rfl rfl (by rw [place]; rfl) ?_
          rw [place]
          exact .owner owns nofun
  | exploitSteal pc =>
      have steals : state.shared.threads (.worker worker) = .steals .shared pc :=
        congrArg (WorkerPc.handling worker) place
      cases pc with
      | idle result =>
          simp only [place, Option.some.injEq] at taken
          subst taken
          refine .of_step rfl rfl (by rw [place]; cases result <;> rfl) ?_
          rw [place]
          cases result <;> exact .stole steals
      | _ =>
          simp only [place, Option.some.injEq] at taken
          subst taken
          refine .of_step rfl rfl (by rw [place]; rfl) ?_
          rw [place]
          exact .thief steals nofun
  | exploitScan other =>
      simp only [place] at taken
      split at taken
      · rename_i known
        split at taken
        · cases taken
          refine .of_step rfl rfl (by rw [place]; rfl) ?_
          rw [place]
          exact @SharedStep.steals _ _ _ _ _ (used size) state.shared (.worker worker) (.own other)
            known (congrArg (WorkerPc.handling worker) place)
        · cases taken
          exact moves place rfl ⟨rfl, rfl, rfl⟩ rfl rfl rfl
      · cases taken
        exact moves place rfl ⟨rfl, rfl, rfl⟩ rfl rfl rfl
  | exploitStealOther other pc =>
      have steals : state.shared.threads (.worker worker) = .steals (.own other) pc :=
        congrArg (WorkerPc.handling worker) place
      cases pc with
      | idle result =>
          simp only [place, Option.some.injEq] at taken
          subst taken
          refine .of_step rfl rfl (by rw [place]; cases result <;> rfl) ?_
          rw [place]
          cases result <;> exact .stole steals
      | _ =>
          simp only [place, Option.some.injEq] at taken
          subst taken
          refine .of_step rfl rfl (by rw [place]; rfl) ?_
          rw [place]
          exact .thief steals nofun
  | prepareWait =>
      simp only [place] at taken
      obtain ⟨notifier, rfl⟩ := exists_of_callNotifier taken
      exact moves place rfl ⟨rfl, rfl, rfl⟩ rfl rfl rfl
  | explore iteration pc =>
      simp only [place] at taken
      exact workerMoves_of_exploreStep place taken
  | cancelWait =>
      simp only [place] at taken
      split at taken
      · obtain ⟨notifier, rfl⟩ := exists_of_callNotifier taken
        exact moves place rfl ⟨rfl, rfl, rfl⟩ rfl rfl rfl
      · exact stays place rfl rfl taken
  | notify =>
      simp only [place] at taken
      split at taken
      · cases taken
        exact moves place rfl ⟨rfl, rfl, rfl⟩ rfl rfl rfl
      · exact stays place rfl rfl taken
  | executeStore task =>
      simp only [place, Option.some.injEq] at taken
      subst taken
      exact moves place rfl ⟨rfl, rfl, rfl⟩ rfl rfl rfl
  | invoke task =>
      simp only [place, Option.some.injEq] at taken
      subst taken
      refine .of_step rfl rfl (by rw [place]; rfl) ?_
      rw [place]
      exact .gives (congrArg (WorkerPc.handling worker) place)
  | delete task =>
      simp only [place, Option.some.injEq] at taken
      subst taken
      exact moves place rfl ⟨rfl, rfl, rfl⟩ rfl rfl rfl
  | idleStore =>
      simp only [place] at taken
      obtain ⟨notifier, rfl⟩ := exists_of_callNotifier taken
      exact moves place rfl ⟨rfl, rfl, rfl⟩ rfl rfl rfl
  | commitWait =>
      simp only [place] at taken
      split at taken
      · cases taken
        exact moves place rfl ⟨rfl, rfl, rfl⟩ rfl rfl rfl
      · exact stays place rfl rfl taken
  | exited =>
      simp only [place] at taken
      cases taken

/-! ## The steps of a poster -/

/-- A poster calls only `push`, and only on a queue of the slot. -/
def PosterPc.Pushes (size : ℕ) : PosterPc Task → Prop
  | .lock queue _ => used size queue
  | .push _ pc => pc.pushing ≠ none ∨ pc = .idle none
  | _ => True

theorem ownerStep_pushes (level : Level Task) {pc : OwnerPc Task} (pushing : pc.pushing ≠ none) :
    (ownerStep level pc).2.pushing ≠ none ∨ (ownerStep level pc).2 = .idle none := by
  rcases TaskQueue.pushing_ownerStep level pc with ⟨same, -⟩ | ⟨-, completes⟩
  · left
    rwa [same]
  · right
    cases pc with
    | pushStoreBottom item bottom => rfl
    | _ => exact absurd completes.symm pushing

/-- What a step of a poster does with the tasks. -/
structure PosterMoves (size : ℕ) (state : State Task Poster) (arrives : Multiset Task)
    (target : State Task Poster) : Prop where
  shared : SharedStep (used size) state.shared arrives 0 target.shared
  workers : target.workers = state.workers
  pushes : ∀ poster, (target.posters poster).Pushes size

/-- Only the poster is somewhere else. -/
theorem PosterMoves.of_step {poster : Poster} {pc : PosterPc Task} {arrives : Multiset Task}
    (pushes : ∀ poster, (state.posters poster).Pushes size)
    (posters_eq : target.posters = Function.update state.posters poster pc)
    (workers_eq : target.workers = state.workers) (here : pc.Pushes size)
    (step :
      SharedStep (used size) state.shared arrives 0
        { levels := target.levels
          locked := target.locked
          threads := Function.update state.shared.threads (.poster poster) pc.handling }) :
    PosterMoves size state arrives target := by
  refine ⟨?_, workers_eq, ?_⟩
  · rw [shared_of_poster posters_eq workers_eq]
    exact step
  · intro other
    rw [posters_eq]
    rcases eq_or_ne other poster with rfl | elsewhere
    · rwa [Function.update_self]
    · rw [Function.update_of_ne elsewhere]
      exact pushes other

theorem PosterMoves.of_same {poster : Poster} {pc : PosterPc Task}
    (pushes : ∀ poster, (state.posters poster).Pushes size)
    (posters_eq : target.posters = Function.update state.posters poster pc)
    (same : target.levels = state.levels ∧ target.locked = state.locked ∧
      target.workers = state.workers)
    (here : pc.Pushes size) (handling_eq : pc.handling = (state.posters poster).handling) :
    PosterMoves size state 0 target := by
  refine .of_step pushes posters_eq same.2.2 here ?_
  rw [same.1, same.2.1, handling_eq]
  have unchanged : Function.update state.shared.threads (.poster poster)
      (state.posters poster).handling = state.shared.threads := Function.update_eq_self _ _
  rw [unchanged]
  exact .stays

theorem posterMoves_of_notifyWaiterLoop {poster : Poster} {waiter round : ℕ}
    (step : ∀ (pc : PosterPc Task) (notifier : WorkNotifier.State (Caller Poster)),
      pc.handling = .holds (.own waiter) → pc.Pushes size →
      PosterMoves size state 0 ((state.setNotifier notifier).setPoster poster pc))
    (taken : state.notifyWaiterLoop size poster waiter round = some target) :
    PosterMoves size state 0 target := by
  unfold State.notifyWaiterLoop at taken
  split at taken
  · obtain ⟨notifier, rfl⟩ := exists_of_callNotifier taken
    exact step _ _ rfl trivial
  · obtain ⟨notifier, rfl⟩ := exists_of_callNotifier taken
    exact step _ _ rfl trivial

theorem posterMoves_of_posterStep {poster : Poster} {spurious : Bool}
    (pushes : ∀ poster, (state.posters poster).Pushes size)
    (taken : posterStep state size poster spurious = some target) :
    PosterMoves size state 0 target := by
  have here := pushes poster
  have stays {label : WorkNotifier.Action (Caller Poster)}
      (called : state.callNotifier size label = some target) :
      PosterMoves size state 0 target := by
    obtain ⟨notifier, -, rfl⟩ := Option.map_eq_some_iff.mp called
    exact .of_same pushes (Function.update_eq_self _ _).symm ⟨rfl, rfl, rfl⟩ here rfl
  unfold posterStep at taken
  cases place : state.posters poster with
  | idle =>
      simp only [place] at taken
      cases taken
  | lock queue task =>
      rw [place] at here
      simp only [place] at taken
      split at taken
      · cases taken
      · rename_i unlocked
        cases taken
        refine .of_step pushes rfl rfl (.inl nofun) ?_
        exact .pushes here (eq_false_of_ne_true unlocked) (congrArg PosterPc.handling place)
  | push queue pc =>
      have owns : state.shared.threads (.poster poster) = .owns queue pc :=
        congrArg PosterPc.handling place
      rw [place] at here
      by_cases finished : ∃ result, pc = .idle result
      · obtain ⟨result, rfl⟩ := finished
        obtain rfl : result = none := by
          rcases here with pushing | idle
          · exact absurd rfl pushing
          · exact OwnerPc.idle.inj idle
        have settles : ∀ (pc : PosterPc Task)
            (notifier : WorkNotifier.State (Caller Poster)), pc.handling = .holds queue →
            pc.Pushes size →
            PosterMoves size state 0 ((state.setNotifier notifier).setPoster poster pc) := by
          intro pc notifier handling_eq inner
          refine .of_step pushes rfl rfl inner ?_
          rw [handling_eq]
          exact .settles owns
        cases queue with
        | own waiter =>
            simp only [place] at taken
            exact posterMoves_of_notifyWaiterLoop settles taken
        | shared =>
            simp only [place] at taken
            obtain ⟨notifier, rfl⟩ := exists_of_callNotifier taken
            exact settles _ _ rfl trivial
      · have busy : ∀ result, pc ≠ .idle result := fun result idle => finished ⟨result, idle⟩
        have pushing : pc.pushing ≠ none := here.resolve_right (busy none)
        have moved :
            some
                ((state.setLevel queue (ownerStep (state.levels queue) pc).1).setPoster
                  poster (.push queue (ownerStep (state.levels queue) pc).2)) =
              some target := by
          rw [← taken, place]
          cases pc with
          | idle result => exact absurd rfl (busy result)
          | _ => cases queue <;> rfl
        cases moved
        exact .of_step pushes rfl rfl (ownerStep_pushes _ pushing) (.owner owns busy)
  | notifyWaiter waiter round =>
      have holds : ∀ (pc : PosterPc Task) (notifier : WorkNotifier.State (Caller Poster)),
          pc.handling = .holds (.own waiter) → pc.Pushes size →
          PosterMoves size state 0 ((state.setNotifier notifier).setPoster poster pc) := by
        intro pc notifier handling_eq inner
        exact .of_same pushes rfl ⟨rfl, rfl, rfl⟩ inner (by rw [handling_eq, place]; rfl)
      simp only [place] at taken
      split at taken
      · split at taken
        · cases taken
          exact .of_same pushes rfl ⟨rfl, rfl, rfl⟩ trivial (by rw [place]; rfl)
        · exact posterMoves_of_notifyWaiterLoop holds taken
      · exact stays taken
  | notifyOne queue =>
      simp only [place] at taken
      split at taken
      · cases taken
        exact .of_same pushes rfl ⟨rfl, rfl, rfl⟩ trivial (by rw [place]; rfl)
      · exact stays taken
  | unlock queue =>
      simp only [place, Option.some.injEq] at taken
      subst taken
      exact .of_step pushes rfl rfl trivial (.unlocks (congrArg PosterPc.handling place))

/-! ## Whole runs -/

/-- What a step does with the tasks, against what it shows. -/
structure Accounts (size : ℕ) (state : State Task Poster) (events : List (TaskEvent Task))
    (target : State Task Poster) : Prop where
  shared :
    SharedStep (used size) state.shared (posted events) (invoked events) target.shared
  pushes : ∀ poster, (target.posters poster).Pushes size
  deleting :
    ∀ total, Holdings (fun worker => goods (state.workers worker).deleting) total →
      ∃ next, Holdings (fun worker => goods (target.workers worker).deleting) next ∧
        next + deleted events = total + invoked events
  beyond : ∀ worker, size ≤ worker → target.workers worker = state.workers worker

theorem counts_worker (pc : WorkerPc Task) :
    posted (pc.invoking.toList.map .invoked ++ pc.deleting.toList.map .deleted) = 0 ∧
      invoked (pc.invoking.toList.map .invoked ++ pc.deleting.toList.map .deleted) =
        goods pc.invoking ∧
      deleted (pc.invoking.toList.map .invoked ++ pc.deleting.toList.map .deleted) =
        goods pc.deleting := by
  cases pc <;> exact ⟨rfl, rfl, rfl⟩

theorem WorkerMoves.accounts {spurious : Bool} (moves : WorkerMoves size state worker target)
    (inside : worker < size) (pushes : ∀ poster, (state.posters poster).Pushes size) :
    Accounts size state (shows state (.worker worker spurious)) target := by
  obtain ⟨posted_eq, invoked_eq, deleted_eq⟩ := counts_worker (state.workers worker)
  obtain ⟨pc, workers_eq, deleting⟩ := moves.workers
  refine ⟨?_, moves.posters ▸ pushes, ?_, ?_⟩
  · rw [shows, posted_eq, invoked_eq]
    exact moves.shared
  · intro total holdings
    rw [shows, invoked_eq, deleted_eq]
    have after_eq : (fun other => goods (target.workers other).deleting) =
        Function.update (fun other => goods (state.workers other).deleting) worker
          (goods pc.deleting) := by
      rw [workers_eq]
      funext other
      rcases eq_or_ne other worker with rfl | elsewhere
      · rw [Function.update_self, Function.update_self]
      · rw [Function.update_of_ne elsewhere, Function.update_of_ne elsewhere]
    rw [after_eq]
    refine holdings.change ?_
    rw [deleting, add_comm]
  · intro other above
    rw [workers_eq, Function.update_of_ne (inside.trans_le above).ne']

theorem Accounts.of_poster {events : List (TaskEvent Task)}
    (moves : PosterMoves size state (posted events) target) (invoked_eq : invoked events = 0)
    (deleted_eq : deleted events = 0) : Accounts size state events target := by
  refine ⟨?_, moves.pushes, ?_, fun worker _ => by rw [moves.workers]⟩
  · rw [invoked_eq]
    exact moves.shared
  · intro total holdings
    rw [moves.workers, invoked_eq, deleted_eq]
    exact ⟨total, holdings, rfl⟩

/-- The destructor does not touch the tasks. -/
theorem accounts_of_destructor {spurious : Bool}
    (pushes : ∀ poster, (state.posters poster).Pushes size)
    (taken : destructorStep state size spurious = some target) :
    Accounts size state [] target := by
  have stays {last : State Task Poster} (posters_eq : last.posters = state.posters)
      (same : last.levels = state.levels ∧ last.locked = state.locked ∧
        last.workers = state.workers) : Accounts size state [] last := by
    refine .of_poster ⟨?_, same.2.2, posters_eq ▸ pushes⟩ rfl rfl
    have unchanged : last.shared = state.shared := by
      rw [State.shared, same.1, same.2.1, same.2.2, posters_eq]
      rfl
    rw [unchanged]
    exact .stays
  unfold destructorStep at taken
  cases place : state.destructor with
  | idle =>
      simp only [place] at taken
      cases taken
  | storeDone =>
      simp only [place] at taken
      obtain ⟨notifier, rfl⟩ := exists_of_callNotifier taken
      exact stays rfl ⟨rfl, rfl, rfl⟩
  | notify =>
      simp only [place] at taken
      split at taken
      · cases taken
        exact stays rfl ⟨rfl, rfl, rfl⟩
      · obtain ⟨notifier, -, rfl⟩ := Option.map_eq_some_iff.mp taken
        exact stays rfl ⟨rfl, rfl, rfl⟩
  | join thread =>
      simp only [place] at taken
      split at taken
      · split at taken
        · cases taken
          exact stays rfl ⟨rfl, rfl, rfl⟩
        · cases taken
      · cases taken
        exact stays rfl ⟨rfl, rfl, rfl⟩
  | finished =>
      simp only [place] at taken
      cases taken

/-- Everything a step of the slot does with the tasks. -/
theorem accounts_of_next {cpus : List ℕ} {action : Action Task Poster}
    (pushes : ∀ poster, (state.posters poster).Pushes cpus.length)
    (taken : next cpus state action = some target) :
    Accounts cpus.length state (shows state action) target := by
  cases action with
  | worker worker spurious =>
      simp only [next] at taken
      split at taken
      · rename_i inside
        exact (workerMoves_of_workerStep inside taken).accounts inside pushes
      · cases taken
  | post poster task processor =>
      simp only [next] at taken
      split at taken
      · rename_i idle
        cases taken
        refine .of_poster ?_ rfl rfl
        refine .of_step pushes rfl rfl (used_postQueue cpus processor) ?_
        exact .gets (congrArg PosterPc.handling idle)
      · cases taken
  | poster poster spurious =>
      exact .of_poster (posterMoves_of_posterStep pushes taken) rfl rfl
  | destroy =>
      simp only [next] at taken
      split at taken
      · cases taken
        exact .of_poster ⟨.stays, rfl, pushes⟩ rfl rfl
      · cases taken
  | destructor spurious => exact accounts_of_destructor pushes taken

/-- The tasks that have been posted are accounted for. -/
structure Accounted (size : ℕ) (state : State Task Poster) (events : List (TaskEvent Task)) :
    Prop where
  pushes : ∀ poster, (state.posters poster).Pushes size
  confined : Confined (used size) state.shared
  beyond : ∀ worker, size ≤ worker → state.workers worker = .loopTest
  settled :
    ∃ rest, Settled state.shared rest ∧ posted events = invoked events + rest
  deleting :
    ∃ rest, Holdings (fun worker => goods (state.workers worker).deleting) rest ∧
      invoked events = deleted events + rest

omit [DecidableEq Poster] in
theorem Accounted.initial (size : ℕ) (memory : QueueId → ℕ → ℤ → Option Task)
    (waiters : ℕ → WorkNotifier.Waiter) :
    Accounted size (State.initial size memory waiters : State Task Poster) [] := by
  have threads_eq : (State.initial size memory waiters : State Task Poster).shared =
      ⟨fun queue => .create 512 (memory queue), fun _ => false, fun _ => .free none⟩ := by
    rw [State.shared]
    congr 1
    funext thread
    cases thread <;> rfl
  refine ⟨fun _ => trivial, ?_, fun _ _ => rfl, ⟨0, ?_, rfl⟩, ⟨0, holdings_zero, rfl⟩⟩
  · rw [threads_eq]
    exact ⟨nofun, fun _ _ => rfl⟩
  · rw [threads_eq]
    refine Settled.initial (fun _ => rfl) fun queue => ⟨?_, rfl⟩
    exact (TaskQueue.inv_initial 9 (memory queue) :
      TaskQueue.Inv (TaskQueue.State.initial _ _ : TaskQueue.State Task Unit)).level

theorem Accounted.step {cpus : List ℕ} {action : Action Task Poster}
    {events : List (TaskEvent Task)} (accounted : Accounted cpus.length state events)
    (taken : next cpus state action = some target) :
    Accounted cpus.length target (events ++ shows state action) := by
  obtain ⟨pushes, confined, beyond, ⟨rest, settled, balance⟩, ⟨left, holdings, left_eq⟩⟩ := accounted
  have accounts := accounts_of_next pushes taken
  obtain ⟨after, settles, after_eq⟩ := accounts.shared.settled settled
  obtain ⟨next, holds, next_eq⟩ := accounts.deleting left holdings
  refine ⟨accounts.pushes, accounts.shared.confined confined, ?_, ⟨after, settles, ?_⟩,
    ⟨next, holds, ?_⟩⟩
  · intro worker above
    rw [accounts.beyond worker above, beyond worker above]
  · rw [posted_append, invoked_append, balance, add_assoc, ← after_eq, add_assoc,
      add_comm after]
  · rw [invoked_append, deleted_append, left_eq, add_assoc, ← next_eq, add_assoc,
      add_comm next]

theorem accounted_of_history {cpus : List ℕ}
    {permitted : State Task Poster → Action Task Poster → Prop} {events : List (TaskEvent Task)}
    (history : (observed Task Poster cpus).HistoryUnder permitted state events) :
    Accounted cpus.length state events := by
  induction history with
  | start isInitial =>
      obtain ⟨memory, waiters, rfl⟩ := isInitial
      exact .initial _ memory waiters
  | step earlier allowed taken inductionHypothesis => exact inductionHypothesis.step taken

/-- The worker has no task and looks into no queue. -/
def WorkerPc.betweenTasks : WorkerPc Task → Bool
  | .exploitPop _ => false
  | .exploitSteal _ => false
  | .exploitStealOther _ _ => false
  | .executeStore _ => false
  | .invoke _ => false
  | .delete _ => false
  | _ => true

theorem WorkerPc.handling_of_betweenTasks {pc : WorkerPc Task}
    (between : pc.betweenTasks = true) : pc.handling worker = .free none := by
  cases pc <;> first | rfl | cases between

theorem WorkerPc.deleting_of_betweenTasks {pc : WorkerPc Task}
    (between : pc.betweenTasks = true) : pc.deleting = none := by
  cases pc <;> first | rfl | cases between

/-- The poster is outside of its call, or its task is in the queue. -/
def PosterPc.handedOver : PosterPc Task → Bool
  | .lock _ _ => false
  | .push _ _ => false
  | _ => true

theorem PosterPc.handling_of_handedOver {pc : PosterPc Task} (handed : pc.handedOver = true) :
    pc.handling = .free none ∨ ∃ queue, pc.handling = .holds queue := by
  cases pc with
  | idle => exact .inl rfl
  | lock queue task => cases handed
  | push queue pc => cases handed
  | notifyWaiter worker round => exact .inr ⟨.own worker, rfl⟩
  | notifyOne queue => exact .inr ⟨queue, rfl⟩
  | unlock queue => exact .inr ⟨queue, rfl⟩

/-- No worker has a task or looks into a queue, and no poster has its task still. -/
structure State.handsEmpty (state : State Task Poster) : Prop where
  workers : ∀ worker, (state.workers worker).betweenTasks = true
  posters : ∀ poster, (state.posters poster).handedOver = true

omit [DecidableEq Poster] in
theorem State.handsEmpty.threads (empty : state.handsEmpty) (thread : Caller Poster) :
    state.shared.threads thread = .free none ∨
      ∃ queue, state.shared.threads thread = .holds queue := by
  cases thread with
  | worker worker => exact .inl (WorkerPc.handling_of_betweenTasks (empty.workers worker))
  | poster poster => exact PosterPc.handling_of_handedOver (empty.posters poster)
  | destructor => exact .inl rfl

omit [DecidableEq Poster] in
/-- What is not in a queue has been run and deleted. -/
theorem Accounted.at_rest {events : List (TaskEvent Task)}
    (accounted : Accounted size state events) (empty : state.handsEmpty) :
    invoked events = deleted events ∧
      ∃ (items : QueueId → List Task) (rest : Multiset Task),
        (∀ queue, (state.levels queue).Holds (items queue)) ∧
          Holdings (fun queue => (items queue : Multiset Task)) rest ∧
          posted events = invoked events + rest := by
  obtain ⟨-, -, -, ⟨rest, settled, balance⟩, ⟨left, holdings, left_eq⟩⟩ := accounted
  have outside : ∀ thread queue pc, state.shared.threads thread ≠ .owns queue pc := by
    intro thread queue pc owns
    rcases empty.threads thread with free | ⟨other, held⟩
    · rw [free] at owns
      cases owns
    · rw [held] at owns
      cases owns
  have hands : ∀ thread, (state.shared.threads thread).hand state.shared.levels = none := by
    intro thread
    rcases empty.threads thread with free | ⟨other, held⟩
    · rw [free]
      rfl
    · rw [held]
      rfl
  have nothing : ∀ worker, goods (state.workers worker).deleting = 0 := by
    intro worker
    rw [WorkerPc.deleting_of_betweenTasks (empty.workers worker)]
    rfl
  obtain ⟨items, holds, held⟩ := settled.at_rest outside hands
  refine ⟨?_, items, rest, holds, held, balance⟩
  rw [left_eq, holdings.eq_zero nothing, add_zero]

/--
In every run no task is invoked more often than it has been posted, and none deleted
that has not been invoked.  Whenever no thread has a task in its hands, the tasks
posted are those that have been invoked, all of which have been deleted, and those
that the queues hold.
-/
theorem tasks_conserved {cpus : List ℕ} {events : List (TaskEvent Task)}
    (history : (observed Task Poster cpus).History state events) :
    deleted events ≤ invoked events ∧ invoked events ≤ posted events ∧
      (state.handsEmpty → invoked events = deleted events ∧
        ∃ (items : QueueId → List Task) (rest : Multiset Task),
          (∀ queue, (state.levels queue).Holds (items queue)) ∧
            Holdings (fun queue => (items queue : Multiset Task)) rest ∧
            posted events = invoked events + rest) := by
  have accounted := accounted_of_history history
  refine ⟨?_, ?_, accounted.at_rest⟩
  · obtain ⟨left, -, left_eq⟩ := accounted.deleting
    rw [left_eq]
    exact Multiset.le_add_right _ _
  · obtain ⟨rest, -, balance⟩ := accounted.settled
    rw [balance]
    exact Multiset.le_add_right _ _

/-- A task is posted, and the worker takes this many steps. -/
def runOneTask (steps : ℕ) : List (Action ℕ Unit) :=
  .post () 7 none :: List.replicate 10 (.poster () false) ++
    List.replicate steps (.worker 0 false)

/-- The task has been run and deleted. -/
theorem tasks_conserved_runOneTask :
    ∃ (state : State ℕ Unit) (events : List (TaskEvent ℕ)),
      (observed ℕ Unit [0]).History state events ∧ deleted events = {7} ∧
        deleted events ≤ invoked events ∧ invoked events ≤ posted events := by
  obtain ⟨state, events, history, holds⟩ :=
    (observed ℕ Unit [0]).exists_history_of_replay (fun _ _ => True)
      ⟨fun _ _ _ => none, fun _ => ⟨none, 0, .kNotSignaled⟩, rfl⟩ (runOneTask 17)
      (fun reached => decide (deleted reached.2 = {7})) (by decide +kernel)
  rw [decide_eq_true_eq] at holds
  have conserved := tasks_conserved history
  exact ⟨state, events, history, holds, conserved.1, conserved.2.1⟩

/-! ## A slot at rest has done its work -/

omit [DecidableEq Poster] in
theorem Invariant.commitWait_of_parked (invariant : Invariant size state)
    (parked : state.parked worker) : state.workers worker = .commitWait := by
  have phase : state.phase worker = .committing := by
    rw [State.phase, parked]
    rfl
  have linked := invariant.linked worker
  rw [phase] at linked
  cases place : state.workers worker with
  | commitWait => rfl
  | _ =>
      rw [place] at linked
      simp [Linked] at linked

/--
When all workers sleep and no post is under way, every task that has been posted has
been invoked and deleted.
-/
theorem all_done_of_all_parked {cpus : List ℕ} {events : List (TaskEvent Task)}
    (positive : 1 ≤ cpus.length) (size_lt : cpus.length < 2 ^ 16 - 1)
    (history : (observed Task Poster cpus).HistoryUnder epochsBounded state events)
    (parked : ∀ worker, worker < cpus.length → state.parked worker)
    (idle : ∀ poster, state.posters poster = .idle) :
    posted events = invoked events ∧ invoked events = deleted events := by
  have accounted := accounted_of_history history
  have invariant := invariant_of_reachable positive size_lt history.reachable
  have empty : state.handsEmpty := by
    refine ⟨fun worker => ?_, fun poster => ?_⟩
    · rcases lt_or_ge worker cpus.length with inside | above
      · rw [invariant.commitWait_of_parked (parked worker inside)]
        rfl
      · rw [accounted.beyond worker above]
        rfl
    · rw [idle poster]
      rfl
  have quiet : ∀ queue poster, ¬ (state.posters poster).handsOver queue := by
    intro queue poster
    rw [idle poster]
    exact id
  have drained : ∀ queue, (state.levels queue).bottom ≤ (state.levels queue).top := by
    intro queue
    by_cases known : used cpus.length queue
    · have watched : ∀ worker, watches cpus.length queue worker → state.parked worker := by
        intro worker watching
        cases queue with
        | shared => exact parked worker watching
        | own owner =>
            obtain rfl : worker = owner := watching
            exact parked worker known
      exact not_lt.mp (invariant.empty_of_parked (quiet queue) watched)
    · exact (accounted.confined.unused queue known).ge
  obtain ⟨invoked_eq, items, rest, holds, holdings, balance⟩ := accounted.at_rest empty
  have nothing : ∀ queue, (items queue : Multiset Task) = 0 := by
    intro queue
    rw [(holds queue).eq_nil (drained queue)]
    rfl
  refine ⟨?_, invoked_eq⟩
  rw [balance, holdings.eq_zero nothing, add_zero]

/-- The worker has run the task and sleeps again. -/
theorem all_done_of_all_parked_runOneTask :
    ∃ (state : State ℕ Unit) (events : List (TaskEvent ℕ)),
      (observed ℕ Unit [0]).HistoryUnder epochsBounded state events ∧
        invoked events = {7} ∧ posted events = invoked events ∧
        invoked events = deleted events := by
  obtain ⟨state, events, history, holds⟩ :=
    (observed ℕ Unit [0]).exists_history_of_replay epochsBounded
      ⟨fun _ _ _ => none, fun _ => ⟨none, 0, .kNotSignaled⟩, rfl⟩ (runOneTask 180)
      (fun reached =>
        decide (invoked reached.2 = {7}) &&
          (decide (reached.1.notifier.waiting 0 = .parked false) &&
            decide (reached.1.posters () = .idle)))
      (by decide +kernel)
  rw [Bool.and_eq_true, Bool.and_eq_true, decide_eq_true_eq, decide_eq_true_eq,
    decide_eq_true_eq] at holds
  obtain ⟨invoked_eq, asleep, idle⟩ := holds
  have parked : ∀ worker, worker < 1 → state.parked worker := by
    intro worker inside
    obtain rfl : worker = 0 := Nat.lt_one_iff.mp inside
    exact asleep
  have done := all_done_of_all_parked (by decide) (by decide) history parked fun _ => idle
  exact ⟨state, events, history, invoked_eq, done⟩

end AsyncRuntime.ExecutorSlot
