import AsyncRuntime.ExecutorSlot.Model
import AsyncRuntime.WorkNotifier.Asleep

/-!
# What one step of the slot can do

`Step` lists the steps of the slot as far as the hand-over of tasks depends on
them.  The steps of a worker outside the event count are summarised: they move
no other worker, no seen bottom and no bottom of another queue, and tops only
grow.  Everything else is listed with its guard and effect.
-/

namespace AsyncRuntime.ExecutorSlot

open AsyncRuntime.Foundation
open AsyncRuntime.TaskQueue (Level OwnerPc ThiefPc ownerStep thiefStep isEmpty)

universe u v

variable {Task : Type u} {Poster : Type v}

/-! ## Tops and bottoms -/

theorem ownerStep_top_le (level : Level Task) (pc : OwnerPc Task) :
    level.top ≤ (ownerStep level pc).1.top := by
  cases pc <;> simp only [ownerStep] <;> (try split) <;>
    simp_all [Level.allocate, Level.storeSlot]

theorem thiefStep_top_le (level : Level Task) (pc : ThiefPc Task) :
    level.top ≤ (thiefStep level pc).1.top := by
  cases pc <;> simp only [thiefStep] <;> (try split) <;> simp_all

theorem thiefStep_bottom (level : Level Task) (pc : ThiefPc Task) :
    (thiefStep level pc).1.bottom = level.bottom := by
  cases pc <;> simp only [thiefStep] <;> (try split) <;> rfl

/-- The owner is inside `push`. -/
def pushing : OwnerPc Task → Bool
  | .pushLoadBottom _ => true
  | .pushLoadTop _ _ => true
  | .pushLoadArray _ _ _ => true
  | .resizeLoad _ _ _ _ _ _ => true
  | .resizeStore _ _ _ _ _ _ _ => true
  | .resizePublish _ _ _ _ => true
  | .pushStoreSlot _ _ _ => true
  | .pushStoreBottom _ _ => true
  | _ => false

theorem pushing_resizeLoop (item : Task) (bottom top : ℤ) (old new : ℕ)
    (index : ℤ) :
    pushing (TaskQueue.resizeLoop item bottom top old new index) = true := by
  unfold TaskQueue.resizeLoop
  split <;> rfl

/-- `push` stores the bottom last. -/
theorem ownerStep_pushing (level : Level Task) {pc : OwnerPc Task}
    (inside : pushing pc = true) :
    (∃ result, (ownerStep level pc).2 = .idle result) ∨
      pushing (ownerStep level pc).2 = true ∧
        (ownerStep level pc).1.bottom = level.bottom := by
  cases pc with
  | pushLoadBottom item => exact .inr ⟨rfl, rfl⟩
  | pushLoadTop item bottom => exact .inr ⟨rfl, rfl⟩
  | pushLoadArray item bottom top =>
      right
      simp only [ownerStep]
      split
      · exact ⟨pushing_resizeLoop _ _ _ _ _ _, rfl⟩
      · exact ⟨rfl, rfl⟩
  | resizeLoad item bottom top old new index => exact .inr ⟨rfl, rfl⟩
  | resizeStore item bottom top old new index copied =>
      exact .inr ⟨pushing_resizeLoop _ _ _ _ _ _, rfl⟩
  | resizePublish item bottom old new => exact .inr ⟨rfl, rfl⟩
  | pushStoreSlot item bottom array => exact .inr ⟨rfl, rfl⟩
  | pushStoreBottom item bottom => exact .inl ⟨none, rfl⟩
  | idle result => simp [pushing] at inside
  | popLoadBottom => simp [pushing] at inside
  | popLoadArray bottom => simp [pushing] at inside
  | popStoreBottom bottom array => simp [pushing] at inside
  | popLoadTop bottom array => simp [pushing] at inside
  | popLoadSlot bottom array top => simp [pushing] at inside
  | popCompareExchange bottom top item => simp [pushing] at inside
  | popRestoreBottom bottom item => simp [pushing] at inside

/-! ## The steps -/

/-- The worker has no business with the event count. -/
def WorkerPc.outside : WorkerPc Task → Bool
  | .explore _ _ => false
  | .cancelWait => false
  | .idleStore => false
  | .commitWait => false
  | _ => true

/-- The worker has seen its own and the shared queue empty in this iteration. -/
def ExplorePc.scanning : ExplorePc → Bool
  | .scan _ => true
  | .otherBottom _ => true
  | .otherTop _ _ => true
  | _ => false

/-- A step of a worker outside the event count. -/
structure OutsideStep (state target : State Task Poster) (worker : ℕ)
    (pc : WorkerPc Task) : Prop where
  running : state.workers worker ≠ .exited
  before : (state.workers worker).outside = true
  after : pc.outside = true
  workers_eq : target.workers = Function.update state.workers worker pc
  notifier_eq : target.notifier = state.notifier
  posters_eq : target.posters = state.posters
  destructor_eq : target.destructor = state.destructor
  seenOwn_eq : target.seenOwn = state.seenOwn
  seenShared_eq : target.seenShared = state.seenShared
  top_le : ∀ queue, (state.levels queue).top ≤ (target.levels queue).top
  bottom_eq :
    ∀ queue, queue ≠ .own worker →
      (target.levels queue).bottom = (state.levels queue).bottom

/-- A move that touches no queue. -/
theorem OutsideStep.of_levels_eq {state target : State Task Poster}
    {worker : ℕ} {pc : WorkerPc Task}
    (running : state.workers worker ≠ .exited)
    (before : (state.workers worker).outside = true) (after : pc.outside = true)
    (workers_eq : target.workers = Function.update state.workers worker pc)
    (same :
      target.notifier = state.notifier ∧ target.posters = state.posters ∧
        target.destructor = state.destructor ∧
        target.seenOwn = state.seenOwn ∧ target.seenShared = state.seenShared ∧
        target.levels = state.levels) :
    OutsideStep state target worker pc := by
  rcases same with
    ⟨notifier_eq, posters_eq, destructor_eq, seenOwn_eq, seenShared_eq, levels_eq⟩
  refine
    ⟨running, before, after, workers_eq, notifier_eq, posters_eq, destructor_eq,
      seenOwn_eq, seenShared_eq, ?_, ?_⟩
  · intro queue
    rw [levels_eq]
  · intro queue _
    rw [levels_eq]

/-- A step inside an operation of a queue. -/
theorem OutsideStep.of_setLevel {state : State Task Poster} {worker : ℕ}
    {pc : WorkerPc Task} {queue : QueueId} {level : Level Task}
    (running : state.workers worker ≠ .exited)
    (before : (state.workers worker).outside = true) (after : pc.outside = true)
    (top_le : (state.levels queue).top ≤ level.top)
    (bottom_eq :
      queue ≠ .own worker → level.bottom = (state.levels queue).bottom) :
    OutsideStep state ((state.setLevel queue level).setWorker worker pc)
      worker pc := by
  refine ⟨running, before, after, rfl, rfl, rfl, rfl, rfl, rfl, ?_, ?_⟩
  · intro other
    by_cases same : other = queue
    · subst same
      simpa using top_le
    · simp [same]
  · intro other elsewhere
    by_cases same : other = queue
    · subst same
      simpa using bottom_eq elsewhere
    · simp [same]

theorem outside_afterPop (result : Option Task) :
    (afterPop result).outside = true := by
  cases result <;> rfl

theorem outside_afterSteal (result : Option Task) :
    (afterSteal result).outside = true := by
  cases result <;> rfl

theorem outside_afterStealOther (other : ℕ) (result : Option Task) :
    (afterStealOther other result).outside = true := by
  cases result <;> rfl

variable [DecidableEq Poster]

/-- A step of the event count within its epoch bounds. -/
structure Called (size : ℕ) (state : State Task Poster)
    (label : WorkNotifier.Action (Caller Poster))
    (notifier : WorkNotifier.State (Caller Poster)) : Prop where
  taken : WorkNotifier.next size state.notifier label = some notifier
  bounded : WorkNotifier.epochsBounded state.notifier label

/-- Where a poster goes without touching a queue or the event count. -/
inductive PosterMove : PosterPc Task → PosterPc Task → Prop where
  | post {queue : QueueId} {task : Task} : PosterMove .idle (.lock queue task)
  | locks {queue : QueueId} {task : Task} :
      PosterMove (.lock queue task) (.push queue (.pushLoadBottom task))
  | unlocks {queue : QueueId} : PosterMove (.unlock queue) .idle

/-- The calls of `notify` a poster makes, with the place where it waits for them. -/
inductive PosterCall (size : ℕ) : PosterPc Task → Bool → PosterPc Task → Prop where
  | own {worker : ℕ} {result : Option Task} (positive : 0 < size) :
      PosterCall size (.push (.own worker) (.idle result)) true
        (.notifyWaiter worker 0)
  | nobody {worker : ℕ} {result : Option Task} (empty : size = 0) :
      PosterCall size (.push (.own worker) (.idle result)) false
        (.notifyOne (.own worker))
  | shared {result : Option Task} :
      PosterCall size (.push .shared (.idle result)) false (.notifyOne .shared)
  | again {worker round : ℕ} :
      PosterCall size (.notifyWaiter worker round) true
        (.notifyWaiter worker (round + 1))
  | last {worker round : ℕ} :
      PosterCall size (.notifyWaiter worker round) false
        (.notifyOne (.own worker))

/-- The poster waits for a `notify`. -/
def PosterPc.notifies : PosterPc Task → Bool
  | .notifyWaiter _ _ => true
  | .notifyOne _ => true
  | _ => false

/-- The steps of the slot. -/
inductive Step (size : ℕ) (state : State Task Poster) :
    Action Task Poster → State Task Poster → Prop where
  | outside {target : State Task Poster} {worker : ℕ} {pc : WorkerPc Task}
      {spurious : Bool}
      (step : OutsideStep state target worker pc) :
      Step size state (.worker worker spurious) target
  | prepare {worker : ℕ} {notifier : WorkNotifier.State (Caller Poster)}
      {spurious : Bool}
      (at_prepare : state.workers worker = .prepareWait)
      (called : Called size state (.prepareWait worker) notifier) :
      Step size state (.worker worker spurious)
        ((((state.setNotifier notifier).seeOwn worker none).seeShared
          worker none).setWorker worker (.explore 0 .ownBottom))
  | lookOwn {worker iteration : ℕ} {spurious : Bool}
      (at_bottom : state.workers worker = .explore iteration .ownBottom) :
      Step size state (.worker worker spurious)
        ((state.seeOwn worker
            (some (state.levels (.own worker)).bottom)).setWorker worker
          (.explore iteration (.ownTop (state.levels (.own worker)).bottom)))
  | ownEmpty {worker iteration : ℕ} {bottom : ℤ} {spurious : Bool}
      (at_top : state.workers worker = .explore iteration (.ownTop bottom))
      (empty : bottom ≤ (state.levels (.own worker)).top) :
      Step size state (.worker worker spurious)
        (state.setWorker worker (.explore iteration .sharedBottom))
  | lookShared {worker iteration : ℕ} {spurious : Bool}
      (at_bottom : state.workers worker = .explore iteration .sharedBottom) :
      Step size state (.worker worker spurious)
        ((state.seeShared worker
            (some (state.levels .shared).bottom)).setWorker worker
          (.explore iteration (.sharedTop (state.levels .shared).bottom)))
  | sharedEmpty {worker iteration : ℕ} {bottom : ℤ} {spurious : Bool}
      (at_top : state.workers worker = .explore iteration (.sharedTop bottom))
      (empty : bottom ≤ (state.levels .shared).top) :
      Step size state (.worker worker spurious)
        (state.setWorker worker (.explore iteration (.scan 0)))
  | scans {worker iteration : ℕ} {pc after : ExplorePc} {spurious : Bool}
      (at_scan : state.workers worker = .explore iteration pc)
      (before : pc.scanning = true) (scanning : after.scanning = true) :
      Step size state (.worker worker spurious)
        (state.setWorker worker (.explore iteration after))
  | iterates {worker iteration : ℕ} {pc : ExplorePc} {spurious : Bool}
      (at_scan : state.workers worker = .explore iteration pc)
      (before : pc.scanning = true) :
      Step size state (.worker worker spurious)
        (state.setWorker worker (afterIteration iteration))
  | found {worker iteration : ℕ} {pc : ExplorePc}
      {notifier : WorkNotifier.State (Caller Poster)} {spurious : Bool}
      (at_explore : state.workers worker = .explore iteration pc)
      (called : Called size state (.cancelWait worker) notifier) :
      Step size state (.worker worker spurious)
        ((state.setNotifier notifier).setWorker worker .cancelWait)
  | cancels {worker : ℕ} {spurious : Bool}
      {notifier : WorkNotifier.State (Caller Poster)}
      (at_cancel : state.workers worker = .cancelWait)
      (called : Called size state (.waiter worker spurious) notifier) :
      Step size state (.worker worker spurious) (state.setNotifier notifier)
  | cancelled {worker : ℕ} {notifier : WorkNotifier.State (Caller Poster)}
      {spurious : Bool}
      (at_cancel : state.workers worker = .cancelWait)
      (idle : state.notifier.waiting worker = .idle)
      (called : Called size state (.notify (.worker worker) false) notifier) :
      Step size state (.worker worker spurious)
        ((state.setNotifier notifier).setWorker worker .notify)
  | notifies {worker : ℕ} {spurious : Bool}
      {notifier : WorkNotifier.State (Caller Poster)}
      (at_notify : state.workers worker = .notify)
      (called :
        Called size state (.notifier (.worker worker) spurious) notifier) :
      Step size state (.worker worker spurious) (state.setNotifier notifier)
  | commits {worker : ℕ} {notifier : WorkNotifier.State (Caller Poster)}
      {spurious : Bool}
      (at_store : state.workers worker = .idleStore)
      (called : Called size state (.commitWait worker) notifier) :
      Step size state (.worker worker spurious)
        (((state.setExecute worker false).setNotifier notifier).setWorker worker
          .commitWait)
  | waits {worker : ℕ} {spurious : Bool}
      {notifier : WorkNotifier.State (Caller Poster)}
      (at_commit : state.workers worker = .commitWait)
      (called : Called size state (.waiter worker spurious) notifier) :
      Step size state (.worker worker spurious) (state.setNotifier notifier)
  | woken {worker : ℕ} {spurious : Bool}
      (at_commit : state.workers worker = .commitWait)
      (idle : state.notifier.waiting worker = .idle) :
      Step size state (.worker worker spurious)
        (state.setWorker worker .loopTest)
  | posterMoves {poster : Poster} {pc : PosterPc Task} {locked : QueueId → Bool}
      {action : Action Task Poster}
      (move : PosterMove (state.posters poster) pc) :
      Step size state action { state.setPoster poster pc with locked := locked }
  | posterReturns {poster : Poster} {queue : QueueId} {result : Option ℕ}
      {spurious : Bool} (at_notify : (state.posters poster).notifies = true)
      (returned :
        state.notifier.notifying (.poster poster) = .returned result) :
      Step size state (.poster poster spurious)
        (state.setPoster poster (.unlock queue))
  | pushes {poster : Poster} {queue : QueueId} {pc : OwnerPc Task} {spurious : Bool}
      (at_push : state.posters poster = .push queue pc)
      (inside : ∀ result, pc ≠ .idle result) :
      Step size state (.poster poster spurious)
        ((state.setLevel queue (ownerStep (state.levels queue) pc).1).setPoster
          poster (.push queue (ownerStep (state.levels queue) pc).2))
  | posterCalls {poster : Poster} {pc : PosterPc Task} {all : Bool}
      {notifier : WorkNotifier.State (Caller Poster)} {spurious : Bool}
      (calls : PosterCall size (state.posters poster) all pc)
      (called : Called size state (.notify (.poster poster) all) notifier) :
      Step size state (.poster poster spurious)
        ((state.setNotifier notifier).setPoster poster pc)
  | posterNotifies {poster : Poster} {spurious : Bool}
      {notifier : WorkNotifier.State (Caller Poster)}
      (at_notify : (state.posters poster).notifies = true)
      (called :
        Called size state (.notifier (.poster poster) spurious) notifier) :
      Step size state (.poster poster spurious) (state.setNotifier notifier)
  | destroy (idle : state.destructor = .idle) :
      Step size state .destroy (state.setDestructor .storeDone)
  | storesDone {notifier : WorkNotifier.State (Caller Poster)} {spurious : Bool}
      (at_store : state.destructor = .storeDone)
      (called : Called size state (.notify .destructor true) notifier) :
      Step size state (.destructor spurious)
        ((state.setDone.setNotifier notifier).setDestructor .notify)
  | destructorNotifies {spurious : Bool}
      {notifier : WorkNotifier.State (Caller Poster)}
      (at_notify : state.destructor = .notify)
      (called :
        Called size state (.notifier .destructor spurious) notifier) :
      Step size state (.destructor spurious) (state.setNotifier notifier)
  | destructorReturns {result : Option ℕ} {spurious : Bool}
      (at_notify : state.destructor = .notify)
      (returned : state.notifier.notifying .destructor = .returned result) :
      Step size state (.destructor spurious) (state.setDestructor (.join 0))
  | joins {thread : ℕ} {spurious : Bool}
      (at_join : state.destructor = .join thread)
      (exited : state.workers thread = .exited) :
      Step size state (.destructor spurious)
        (state.setDestructor (.join (thread + 1)))
  | finishes {thread : ℕ} {spurious : Bool}
      (at_join : state.destructor = .join thread) (last : size ≤ thread) :
      Step size state (.destructor spurious) (state.setDestructor .finished)

/-! ## The step function takes only these steps -/

theorem called_of_callNotifier {size : ℕ} {state target : State Task Poster}
    {label : WorkNotifier.Action (Caller Poster)}
    {after : State Task Poster → State Task Poster}
    (bounded : WorkNotifier.epochsBounded state.notifier label)
    (taken : (state.callNotifier size label).map after = some target) :
    ∃ notifier,
      Called size state label notifier ∧
        target = after (state.setNotifier notifier) := by
  simp only [State.callNotifier, Option.map_map, Option.map_eq_some_iff] at taken
  rcases taken with ⟨notifier, moved, rfl⟩
  exact ⟨notifier, ⟨moved, bounded⟩, rfl⟩

theorem called_of_callNotifier_id {size : ℕ} {state target : State Task Poster}
    {label : WorkNotifier.Action (Caller Poster)}
    (bounded : WorkNotifier.epochsBounded state.notifier label)
    (taken : state.callNotifier size label = some target) :
    ∃ notifier,
      Called size state label notifier ∧ target = state.setNotifier notifier := by
  simp only [State.callNotifier, Option.map_eq_some_iff] at taken
  rcases taken with ⟨notifier, moved, rfl⟩
  exact ⟨notifier, ⟨moved, bounded⟩, rfl⟩

theorem step_of_found {size worker iteration : ℕ}
    {state target : State Task Poster} {pc : ExplorePc}
    (at_explore : state.workers worker = .explore iteration pc)
    {spurious : Bool} (taken : state.found size worker = some target) :
    Step size state (.worker worker spurious) target := by
  have bounded :
      WorkNotifier.epochsBounded state.notifier (.cancelWait worker) := trivial
  rcases called_of_callNotifier bounded taken with ⟨notifier, called, rfl⟩
  exact .found at_explore called

theorem step_of_exploreStep {size worker iteration : ℕ}
    {state target : State Task Poster} {pc : ExplorePc} {spurious : Bool}
    (at_explore : state.workers worker = .explore iteration pc)
    (taken : exploreStep state size worker iteration pc = some target) :
    Step size state (.worker worker spurious) target := by
  cases pc with
  | ownBottom =>
      simp only [exploreStep, Option.some.injEq] at taken
      subst taken
      exact .lookOwn at_explore
  | ownTop bottom =>
      simp only [exploreStep] at taken
      split at taken
      · rename_i empty
        rw [Option.some.injEq] at taken
        subst taken
        exact .ownEmpty at_explore (by simpa [isEmpty] using empty)
      · exact step_of_found at_explore taken
  | sharedBottom =>
      simp only [exploreStep, Option.some.injEq] at taken
      subst taken
      exact .lookShared at_explore
  | sharedTop bottom =>
      simp only [exploreStep] at taken
      split at taken
      · rename_i empty
        rw [Option.some.injEq] at taken
        subst taken
        exact .sharedEmpty at_explore (by simpa [isEmpty] using empty)
      · exact step_of_found at_explore taken
  | scan other =>
      simp only [exploreStep] at taken
      split at taken
      · split at taken
        · rw [Option.some.injEq] at taken
          subst taken
          exact .scans at_explore rfl rfl
        · rw [Option.some.injEq] at taken
          subst taken
          exact .scans at_explore rfl rfl
      · rw [Option.some.injEq] at taken
        subst taken
        exact .iterates at_explore rfl
  | otherBottom other =>
      simp only [exploreStep, Option.some.injEq] at taken
      subst taken
      exact .scans at_explore rfl rfl
  | otherTop other bottom =>
      simp only [exploreStep] at taken
      split at taken
      · rw [Option.some.injEq] at taken
        subst taken
        exact .scans at_explore rfl rfl
      · exact step_of_found at_explore taken

theorem step_of_workerStep {size worker : ℕ} {spurious : Bool}
    {state target : State Task Poster}
    (bounded : epochsBounded state (.worker worker spurious))
    (taken : workerStep state size worker spurious = some target) :
    Step size state (.worker worker spurious) target := by
  have moves {pc : WorkerPc Task} {next : State Task Poster}
      (running : state.workers worker ≠ .exited)
      (before : (state.workers worker).outside = true)
      (after : pc.outside = true)
      (workers_eq : next.workers = Function.update state.workers worker pc)
      (same :
        next.notifier = state.notifier ∧ next.posters = state.posters ∧
          next.destructor = state.destructor ∧
          next.seenOwn = state.seenOwn ∧ next.seenShared = state.seenShared ∧
          next.levels = state.levels) :
      Step size state (.worker worker spurious) next :=
    .outside (.of_levels_eq running before after workers_eq same)
  unfold workerStep at taken
  cases place : state.workers worker with
  | loopTest =>
      simp only [place, Option.some.injEq] at taken
      subst taken
      refine moves (by simp [place]) (by simp [place, WorkerPc.outside]) ?_ rfl (by simp)
      split <;> rfl
  | exploitLock =>
      simp only [place] at taken
      split at taken
      · simp at taken
      · rw [Option.some.injEq] at taken
        subst taken
        exact moves (by simp [place]) (by simp [place, WorkerPc.outside]) rfl rfl (by simp)
  | exploitPop pc =>
      have outside : (state.workers worker).outside = true := by
        simp [place, WorkerPc.outside]
      cases pc with
      | idle result =>
          simp only [place, Option.some.injEq] at taken
          subst taken
          exact moves (by simp [place]) outside (outside_afterPop result) rfl (by simp)
      | _ =>
          simp only [place, Option.some.injEq] at taken
          subst taken
          exact
            .outside
              (.of_setLevel (by simp [place]) outside rfl (ownerStep_top_le _ _)
                fun elsewhere => absurd rfl elsewhere)
  | exploitSteal pc =>
      have outside : (state.workers worker).outside = true := by
        simp [place, WorkerPc.outside]
      cases pc with
      | idle result =>
          simp only [place, Option.some.injEq] at taken
          subst taken
          exact moves (by simp [place]) outside (outside_afterSteal result) rfl (by simp)
      | _ =>
          simp only [place, Option.some.injEq] at taken
          subst taken
          exact
            .outside
              (.of_setLevel (by simp [place]) outside rfl (thiefStep_top_le _ _)
                fun _ => thiefStep_bottom _ _)
  | exploitScan other =>
      have outside : (state.workers worker).outside = true := by
        simp [place, WorkerPc.outside]
      simp only [place] at taken
      split at taken
      · split at taken
        · rw [Option.some.injEq] at taken
          subst taken
          exact moves (by simp [place]) outside rfl rfl (by simp)
        · rw [Option.some.injEq] at taken
          subst taken
          exact moves (by simp [place]) outside rfl rfl (by simp)
      · rw [Option.some.injEq] at taken
        subst taken
        exact moves (by simp [place]) outside rfl rfl (by simp)
  | exploitStealOther other pc =>
      have outside : (state.workers worker).outside = true := by
        simp [place, WorkerPc.outside]
      cases pc with
      | idle result =>
          simp only [place, Option.some.injEq] at taken
          subst taken
          exact moves (by simp [place]) outside (outside_afterStealOther other result) rfl (by simp)
      | _ =>
          simp only [place, Option.some.injEq] at taken
          subst taken
          exact
            .outside
              (.of_setLevel (by simp [place]) outside rfl (thiefStep_top_le _ _)
                fun _ => thiefStep_bottom _ _)
  | prepareWait =>
      have unbounded :
          WorkNotifier.epochsBounded state.notifier (.prepareWait worker) :=
        trivial
      simp only [place] at taken
      rcases called_of_callNotifier unbounded taken with ⟨notifier, called, rfl⟩
      exact .prepare place called
  | explore iteration pc =>
      simp only [place] at taken
      exact step_of_exploreStep place taken
  | cancelWait =>
      simp only [place] at taken
      split at taken
      · rename_i idle
        have unbounded :
            WorkNotifier.epochsBounded state.notifier
              (.notify (.worker worker) false) := trivial
        rcases called_of_callNotifier unbounded taken with
          ⟨notifier, called, rfl⟩
        exact .cancelled place idle called
      · rcases called_of_callNotifier_id bounded.1 taken with
          ⟨notifier, called, rfl⟩
        exact .cancels place called
  | notify =>
      simp only [place] at taken
      split at taken
      · rw [Option.some.injEq] at taken
        subst taken
        exact moves (by simp [place]) (by simp [place, WorkerPc.outside]) rfl rfl (by simp)
      · rcases called_of_callNotifier_id bounded.2 taken with
          ⟨notifier, called, rfl⟩
        exact .notifies place called
  | executeStore task =>
      simp only [place, Option.some.injEq] at taken
      subst taken
      exact moves (by simp [place]) (by simp [place, WorkerPc.outside]) rfl rfl (by simp)
  | invoke task =>
      simp only [place, Option.some.injEq] at taken
      subst taken
      exact moves (by simp [place]) (by simp [place, WorkerPc.outside]) rfl rfl (by simp)
  | delete task =>
      simp only [place, Option.some.injEq] at taken
      subst taken
      exact moves (by simp [place]) (by simp [place, WorkerPc.outside]) rfl rfl (by simp)
  | idleStore =>
      have unbounded :
          WorkNotifier.epochsBounded (state.setExecute worker false).notifier
            (.commitWait worker) := trivial
      simp only [place] at taken
      rcases called_of_callNotifier unbounded taken with ⟨notifier, called, rfl⟩
      exact .commits place ⟨called.taken, called.bounded⟩
  | commitWait =>
      simp only [place] at taken
      split at taken
      · rename_i idle
        rw [Option.some.injEq] at taken
        subst taken
        exact .woken place idle
      · rcases called_of_callNotifier_id bounded.1 taken with
          ⟨notifier, called, rfl⟩
        exact .waits place called
  | exited => simp [place] at taken

/-- A call of `notify` by a poster. -/
theorem step_of_posterCall {size : ℕ} {poster : Poster} {all : Bool}
    {state target : State Task Poster} {pc : PosterPc Task} {spurious : Bool}
    (calls : PosterCall size (state.posters poster) all pc)
    (taken :
      (state.callNotifier size (.notify (.poster poster) all)).map
          (fun called => called.setPoster poster pc) = some target) :
    Step size state (.poster poster spurious) target := by
  have unbounded :
      WorkNotifier.epochsBounded state.notifier
        (.notify (.poster poster) all) := trivial
  rcases called_of_callNotifier unbounded taken with ⟨notifier, called, rfl⟩
  exact .posterCalls calls called

theorem step_of_posterStep {size : ℕ} {poster : Poster} {spurious : Bool}
    {state target : State Task Poster}
    (bounded : epochsBounded state (.poster poster spurious))
    (taken : posterStep state size poster spurious = some target) :
    Step size state (.poster poster spurious) target := by
  have within :
      WorkNotifier.epochsBounded state.notifier
        (.notifier (.poster poster) spurious) := bounded
  unfold posterStep at taken
  cases place : state.posters poster with
  | idle => simp [place] at taken
  | lock queue task =>
      simp only [place] at taken
      split at taken
      · simp at taken
      · rw [Option.some.injEq] at taken
        subst taken
        exact .posterMoves (by rw [place]; exact .locks)
  | push queue pc =>
      by_cases finished : ∃ result, pc = .idle result
      · rcases finished with ⟨result, rfl⟩
        cases queue with
        | own worker =>
            simp only [place, State.notifyWaiterLoop] at taken
            split at taken
            · rename_i positive
              exact step_of_posterCall (by rw [place]; exact .own positive) taken
            · exact
                step_of_posterCall
                  (by rw [place]; exact .nobody (by omega)) taken
        | shared =>
            simp only [place] at taken
            exact step_of_posterCall (by rw [place]; exact .shared) taken
      · have inside (result : Option Task) : pc ≠ .idle result := by
          rintro rfl
          exact finished ⟨result, rfl⟩
        have moved :
            some
                ((state.setLevel queue
                    (ownerStep (state.levels queue) pc).1).setPoster
                  poster (.push queue (ownerStep (state.levels queue) pc).2)) =
              some target := by
          rw [← taken, place]
          cases pc with
          | idle result => exact absurd rfl (inside result)
          | _ => cases queue <;> rfl
        rw [Option.some.injEq] at moved
        subst moved
        exact .pushes place inside
  | notifyWaiter worker round =>
      have at_notify : (state.posters poster).notifies = true := by
        simp [place, PosterPc.notifies]
      simp only [place] at taken
      split at taken
      · rename_i result returned
        split at taken
        · rw [Option.some.injEq] at taken
          subst taken
          exact .posterReturns at_notify returned
        · simp only [State.notifyWaiterLoop] at taken
          split at taken
          · exact step_of_posterCall (by rw [place]; exact .again) taken
          · exact step_of_posterCall (by rw [place]; exact .last) taken
      · rcases called_of_callNotifier_id within taken with
          ⟨notifier, called, rfl⟩
        exact .posterNotifies at_notify called
  | notifyOne queue =>
      have at_notify : (state.posters poster).notifies = true := by
        simp [place, PosterPc.notifies]
      simp only [place] at taken
      split at taken
      · rename_i result returned
        rw [Option.some.injEq] at taken
        subst taken
        exact .posterReturns at_notify returned
      · rcases called_of_callNotifier_id within taken with
          ⟨notifier, called, rfl⟩
        exact .posterNotifies at_notify called
  | unlock queue =>
      simp only [place, Option.some.injEq] at taken
      subst taken
      exact .posterMoves (by rw [place]; exact .unlocks)

theorem step_of_destructorStep {size : ℕ} {spurious : Bool}
    {state target : State Task Poster}
    (bounded : epochsBounded state (.destructor spurious))
    (taken : destructorStep state size spurious = some target) :
    Step size state (.destructor spurious) target := by
  have within :
      WorkNotifier.epochsBounded state.notifier
        (.notifier .destructor spurious) := bounded
  unfold destructorStep at taken
  cases place : state.destructor with
  | idle => simp [place] at taken
  | storeDone =>
      have unbounded :
          WorkNotifier.epochsBounded state.setDone.notifier
            (.notify .destructor true) := trivial
      simp only [place] at taken
      rcases called_of_callNotifier unbounded taken with ⟨notifier, called, rfl⟩
      exact .storesDone place ⟨called.taken, called.bounded⟩
  | notify =>
      simp only [place] at taken
      split at taken
      · rename_i result returned
        rw [Option.some.injEq] at taken
        subst taken
        exact .destructorReturns place returned
      · rcases called_of_callNotifier_id within taken with
          ⟨notifier, called, rfl⟩
        exact .destructorNotifies place called
  | join thread =>
      simp only [place] at taken
      split at taken
      · split at taken
        · rename_i exited
          rw [Option.some.injEq] at taken
          subst taken
          exact .joins place exited
        · simp at taken
      · rename_i last
        rw [Option.some.injEq] at taken
        subst taken
        exact .finishes place (by omega)
  | finished => simp [place] at taken

/-- The step function of the slot takes only the listed steps. -/
theorem step_of_next {cpus : List ℕ} {state target : State Task Poster}
    {action : Action Task Poster} (bounded : epochsBounded state action)
    (taken : next cpus state action = some target) :
    Step cpus.length state action target := by
  cases action with
  | worker worker spurious =>
      simp only [next] at taken
      split at taken
      · exact step_of_workerStep bounded taken
      · simp at taken
  | post poster task processor =>
      simp only [next] at taken
      split at taken
      · rename_i idle
        rw [Option.some.injEq] at taken
        subst taken
        exact .posterMoves (by rw [idle]; exact .post)
      · simp at taken
  | poster poster spurious => exact step_of_posterStep bounded taken
  | destroy =>
      simp only [next] at taken
      split at taken
      · rename_i idle
        rw [Option.some.injEq] at taken
        subst taken
        exact .destroy idle
      · simp at taken
  | destructor spurious => exact step_of_destructorStep bounded taken

end AsyncRuntime.ExecutorSlot
