import AsyncRuntime.Foundation.Potential
import Mathlib.Algebra.Order.BigOperators.Group.Finset
import Mathlib.Logic.Function.Basic

/-!
# The start of the workers of a slot

`spawn` starts a thread for every worker and waits on a condition variable until all
of them have registered themselves.  The mutex, the condition variable and the count
are local variables of `spawn`, which the threads use through references.

Every operation on the mutex, the condition variable, the count and the map is a step,
and the waiting thread may wake up without a notification.  The worker that completes
the count notifies before it releases the mutex, so the constructor returns, and when
it does no worker will use the local variables again.
-/

namespace AsyncRuntime.ExecutorSlot.Startup

open AsyncRuntime.Foundation

/-- Who may hold the mutex. -/
inductive Thread where
  | constructor
  | worker (index : ℕ)
  deriving DecidableEq

/-- Where the constructor is in `spawn`. -/
inductive SpawnPc where
  | create (index : ℕ)
  | lock
  | test
  | waiting
  | reacquire
  | unlock
  | returned
  deriving DecidableEq

/-- Where the thread of a worker is, before its loop. -/
inductive WorkerPc where
  | unborn
  | storeThread
  | lock
  | register
  | count
  | notify
  | unlock
  | running
  deriving DecidableEq

/-- The threads, the local variables of `spawn`, `wids`, and `Worker::thread`. -/
structure State where
  spawn : SpawnPc
  workers : ℕ → WorkerPc
  mutex : Option Thread
  n : ℕ
  wids : ℕ → Option ℕ
  thread : ℕ → Option ℕ

/-- A step of the constructor or of a worker, or a spurious wake-up. -/
inductive Action where
  | spawn
  | worker (index : ℕ)
  | wake
  deriving DecidableEq

/-- A spurious wake-up is no progress. -/
def Action.progress : Action → Bool
  | .wake => false
  | _ => true

namespace State

variable (state : State)

def setWorker (index : ℕ) (pc : WorkerPc) : State :=
  { state with workers := Function.update state.workers index pc }

/-- `cond.notify_one()` -/
def notifyOne : State :=
  match state.spawn with
  | .waiting => { state with spawn := .reacquire }
  | _ => state

/-- A step of `spawn` for a number of CPUs. -/
def spawnStep (size : ℕ) : Option State :=
  match state.spawn with
  | .create index =>
      some <|
        if index < size then
          { state.setWorker index .storeThread with spawn := .create (index + 1) }
        else
          { state with spawn := .lock }
  | .lock =>
      if state.mutex = none then
        some { state with spawn := .test, mutex := some .constructor }
      else
        none
  | .test =>
      some <|
        if state.n = size then
          { state with spawn := .unlock }
        else
          { state with spawn := .waiting, mutex := none }
  | .waiting => none
  | .reacquire =>
      if state.mutex = none then
        some { state with spawn := .test, mutex := some .constructor }
      else
        none
  | .unlock => some { state with spawn := .returned, mutex := none }
  | .returned => none

/-- A step of the thread of a worker. -/
def workerStep (size index : ℕ) : Option State :=
  match state.workers index with
  | .unborn => none
  | .storeThread =>
      some
        { state.setWorker index .lock with
          thread := Function.update state.thread index (some index) }
  | .lock =>
      if state.mutex = none then
        some { state.setWorker index .register with mutex := some (.worker index) }
      else
        none
  | .register =>
      some
        { state.setWorker index .count with
          wids := Function.update state.wids index (some index) }
  | .count =>
      let counted := { state with n := state.n + 1 }
      some (counted.setWorker index (if counted.n = size then .notify else .unlock))
  | .notify => some (state.notifyOne.setWorker index .unlock)
  | .unlock => some { state.setWorker index .running with mutex := none }
  | .running => none

/-- One step. -/
def next (size : ℕ) : Action → Option State
  | .spawn => state.spawnStep size
  | .worker index => state.workerStep size index
  | .wake =>
      match state.spawn with
      | .waiting => some { state with spawn := .reacquire }
      | _ => none

/-- The constructor enters `spawn`. -/
def initial : State where
  spawn := .create 0
  workers := fun _ => .unborn
  mutex := none
  n := 0
  wids := fun _ => none
  thread := fun _ => none

end State

/-- `spawn` for a number of CPUs. -/
def system (size : ℕ) : TransitionSystem State Action where
  initial := fun state => state = State.initial
  next := fun state => state.next size

/-! ## The invariant -/

/-- How many threads have been started. -/
def SpawnPc.created (size : ℕ) : SpawnPc → ℕ
  | .create index => index
  | _ => size

/-- The constructor holds the mutex. -/
def SpawnPc.holds : SpawnPc → Bool
  | .test => true
  | .unlock => true
  | _ => false

/-- The worker holds the mutex. -/
def WorkerPc.holds : WorkerPc → Bool
  | .register => true
  | .count => true
  | .notify => true
  | .unlock => true
  | _ => false

/-- What the worker has added to the count. -/
def WorkerPc.counted : WorkerPc → ℕ
  | .notify => 1
  | .unlock => 1
  | .running => 1
  | _ => 0

/-- What the worker has registered its thread as. -/
def WorkerPc.registered (index : ℕ) : WorkerPc → Option ℕ
  | .count => some index
  | .notify => some index
  | .unlock => some index
  | .running => some index
  | _ => none

/-- Where the worker has stored that its thread is. -/
def WorkerPc.stored (index : ℕ) : WorkerPc → Option ℕ
  | .unborn => none
  | .storeThread => none
  | _ => some index

/-- What holds in every state of a run. -/
structure Sound (size : ℕ) (state : State) : Prop where
  created_le : state.spawn.created size ≤ size
  born : ∀ index, state.workers index ≠ .unborn ↔ index < state.spawn.created size
  spawnHolds : state.spawn.holds = true ↔ state.mutex = some .constructor
  workerHolds :
    ∀ index, (state.workers index).holds = true ↔ state.mutex = some (.worker index)
  counted : state.n = ∑ index ∈ Finset.range size, (state.workers index).counted
  wids : ∀ index, state.wids index = (state.workers index).registered index
  thread : ∀ index, state.thread index = (state.workers index).stored index
  notified : state.spawn = .waiting → state.n = size → ∃ index, state.workers index = .notify
  complete : state.spawn = .unlock → state.n = size
  settled :
    state.spawn = .returned → ∀ index, index < size → state.workers index = .running

section Counting

variable {size : ℕ} {workers : ℕ → WorkerPc}

theorem WorkerPc.counted_le (pc : WorkerPc) : pc.counted ≤ 1 := by
  cases pc <;> decide

/-- When the count is complete, every worker has been counted. -/
theorem counted_of_complete
    (complete : ∑ index ∈ Finset.range size, (workers index).counted = size) {index : ℕ}
    (inside : index < size) : (workers index).counted = 1 := by
  have ones : ∑ index ∈ Finset.range size, (workers index).counted =
      ∑ index ∈ Finset.range size, 1 := by
    rw [complete, ← Finset.card_eq_sum_ones, Finset.card_range]
  have equal := (Finset.sum_eq_sum_iff_of_le fun index _ => (workers index).counted_le).mp ones
  exact equal index (Finset.mem_range.mpr inside)

/-- When it is not, some worker has not. -/
theorem exists_uncounted
    (incomplete : ∑ index ∈ Finset.range size, (workers index).counted ≠ size) :
    ∃ index, index < size ∧ (workers index).counted = 0 := by
  by_contra! all
  refine incomplete ?_
  calc
    ∑ index ∈ Finset.range size, (workers index).counted
      = ∑ index ∈ Finset.range size, 1 := by
        refine Finset.sum_congr rfl fun index listed => ?_
        have positive := all index (Finset.mem_range.mp listed)
        have bounded := (workers index).counted_le
        omega
    _ = size := by rw [← Finset.card_eq_sum_ones, Finset.card_range]

end Counting

section Steps

variable {size index : ℕ} {state target : State}

theorem sound_initial (size : ℕ) : Sound size State.initial where
  created_le := Nat.zero_le size
  born := fun index => by simp [State.initial, SpawnPc.created]
  spawnHolds := by simp [State.initial, SpawnPc.holds]
  workerHolds := fun index => by simp [State.initial, WorkerPc.holds]
  counted := by simp [State.initial, WorkerPc.counted]
  wids := fun _ => rfl
  thread := fun _ => rfl
  notified := nofun
  complete := nofun
  settled := nofun

/-- The constructor moves, and perhaps takes or releases the mutex. -/
theorem Sound.setSpawn (sound : Sound size state) {spawn : SpawnPc} {mutex : Option Thread}
    (created : spawn.created size = state.spawn.created size)
    (spawnHolds : spawn.holds = true ↔ mutex = some .constructor)
    (others :
      ∀ index, mutex = some (.worker index) ↔ state.mutex = some (.worker index))
    (notified : spawn = .waiting → state.n ≠ size) (complete : spawn = .unlock → state.n = size)
    (settled : spawn = .returned → ∀ index, index < size → state.workers index = .running) :
    Sound size { state with spawn := spawn, mutex := mutex } where
  created_le := created.trans_le sound.created_le
  born := by
    intro index
    rw [sound.born, ← created]
  spawnHolds := spawnHolds
  workerHolds := fun index => (sound.workerHolds index).trans (others index).symm
  counted := sound.counted
  wids := sound.wids
  thread := sound.thread
  notified := fun waiting all => absurd all (notified waiting)
  complete := complete
  settled := settled

/-- The mutex is free, or it is held by the constructor or by a worker that can go on. -/
theorem Sound.worker_free (sound : Sound size state) (free : state.spawn.holds = true)
    (index : ℕ) : (state.workers index).holds = false := by
  rw [Bool.eq_false_iff]
  intro holds
  have taken := (sound.workerHolds index).mp holds
  rw [sound.spawnHolds.mp free] at taken
  cases taken

/-- All workers have left the mutex when the constructor is about to release it. -/
theorem Sound.all_running (sound : Sound size state) (leaving : state.spawn = .unlock)
    (inside : index < size) : state.workers index = .running := by
  have complete := sound.complete leaving
  have counted := counted_of_complete (sound.counted.symm.trans complete) inside
  have free := sound.worker_free (by rw [leaving]; rfl) index
  cases place : state.workers index with
  | running => rfl
  | notify => simp [place, WorkerPc.holds] at free
  | unlock => simp [place, WorkerPc.holds] at free
  | _ => simp [place, WorkerPc.counted] at counted

/-- The thread that the constructor starts next does not exist yet. -/
theorem Sound.fresh (sound : Sound size state) (place : state.spawn = .create index) :
    state.workers index = .unborn := by
  by_contra born
  have below := (sound.born index).mp born
  rw [place] at below
  exact lt_irrefl index below

/-- What does not change where a worker moves does not change at all. -/
theorem observe_update {Value : Type*} {workers : ℕ → WorkerPc} (observe : WorkerPc → Value)
    {pc : WorkerPc} (same : observe pc = observe (workers index)) (other : ℕ) :
    observe (Function.update workers index pc other) = observe (workers other) := by
  rcases eq_or_ne other index with rfl | elsewhere
  · rw [Function.update_self, same]
  · rw [Function.update_of_ne elsewhere]

/-- The constructor starts the thread of the next worker. -/
theorem Sound.start (sound : Sound size state) (place : state.spawn = .create index)
    (fresh : state.workers index = .unborn) (more : index < size) :
    Sound size { state.setWorker index .storeThread with spawn := .create (index + 1) } := by
  have unlocked : state.mutex ≠ some (.worker index) := by
    rw [Ne, ← sound.workerHolds, fresh]
    nofun
  refine ⟨more, ?_, ?_, ?_, ?_, ?_, ?_, nofun, nofun, nofun⟩
  · intro other
    have born := sound.born other
    rw [place] at born
    simp only [State.setWorker, SpawnPc.created] at born ⊢
    rcases eq_or_ne other index with rfl | elsewhere
    · simp
    · rw [Function.update_of_ne elsewhere, born]
      omega
  · have held := sound.spawnHolds
    rw [place] at held
    exact held
  · intro other
    have same : WorkerPc.storeThread.holds = (state.workers index).holds := by rw [fresh]; rfl
    have kept := observe_update WorkerPc.holds same other
    dsimp only [State.setWorker]
    rw [kept]
    exact sound.workerHolds other
  · have same : WorkerPc.storeThread.counted = (state.workers index).counted := by
      rw [fresh]
      rfl
    exact sound.counted.trans
      (Finset.sum_congr rfl fun other _ => (observe_update WorkerPc.counted same other).symm)
  · intro other
    have same :
        WorkerPc.storeThread.registered other = (state.workers index).registered other := by
      rw [fresh]
      rfl
    have kept := observe_update (WorkerPc.registered other) same other
    exact (sound.wids other).trans kept.symm
  · intro other
    have same : WorkerPc.storeThread.stored other = (state.workers index).stored other := by
      rw [fresh]
      rfl
    have kept := observe_update (WorkerPc.stored other) same other
    exact (sound.thread other).trans kept.symm

theorem Sound.spawnStep (sound : Sound size state)
    (taken : state.spawnStep size = some target) : Sound size target := by
  have idle : state.spawn.holds = false → state.mutex ≠ some .constructor := by
    intro released held
    rw [sound.spawnHolds.mpr held] at released
    cases released
  unfold State.spawnStep at taken
  cases place : state.spawn with
  | create created =>
      have created_le := sound.created_le
      rw [place] at created_le idle
      simp only [place, Option.some.injEq] at taken
      split at taken
      · rename_i more
        subst taken
        exact sound.start place (sound.fresh place) more
      · rename_i done
        subst taken
        have whole : created = size := le_antisymm created_le (not_lt.mp done)
        refine sound.setSpawn ?_ ?_ (fun _ => Iff.rfl) nofun nofun nofun
        · rw [place]
          exact whole.symm
        · simp only [SpawnPc.holds, Bool.false_eq_true, false_iff]
          exact idle rfl
  | lock =>
      simp only [place] at taken
      split at taken <;> cases taken
      rename_i free
      refine sound.setSpawn (by rw [place]; rfl) (by simp [SpawnPc.holds]) ?_ nofun nofun nofun
      intro index
      simp [free]
  | test =>
      have free := sound.worker_free (by rw [place]; rfl)
      simp only [place, Option.some.injEq] at taken
      split at taken
      · rename_i complete
        subst taken
        refine sound.setSpawn (by rw [place]; rfl) ?_ (fun _ => Iff.rfl) nofun (fun _ => complete)
          nofun
        exact iff_of_true rfl (sound.spawnHolds.mp (by rw [place]; rfl))
      · rename_i incomplete
        subst taken
        refine sound.setSpawn (by rw [place]; rfl) (by simp [SpawnPc.holds]) ?_
          (fun _ => incomplete) nofun nofun
        intro index
        rw [← sound.workerHolds, free index]
        simp
  | waiting => simp only [place, reduceCtorEq] at taken
  | reacquire =>
      simp only [place] at taken
      split at taken <;> cases taken
      rename_i free
      refine sound.setSpawn (by rw [place]; rfl) (by simp [SpawnPc.holds]) ?_ nofun nofun nofun
      intro index
      simp [free]
  | unlock =>
      have free := sound.worker_free (by rw [place]; rfl)
      simp only [place, Option.some.injEq] at taken
      subst taken
      refine sound.setSpawn (by rw [place]; rfl) (by simp [SpawnPc.holds]) ?_ nofun nofun
        fun _ index inside => sound.all_running place inside
      intro index
      rw [← sound.workerHolds, free index]
      simp
  | returned => simp only [place, reduceCtorEq] at taken

/-- A worker that has been started moves. -/
theorem Sound.moveWorker (sound : Sound size state) (alive : state.workers index ≠ .unborn)
    {pc : WorkerPc} {spawn : SpawnPc} {mutex : Option Thread} {n : ℕ} {wids thread : ℕ → Option ℕ}
    (stays : pc ≠ .unborn) (created : spawn.created size = state.spawn.created size)
    (spawnHolds : spawn.holds = true ↔ mutex = some .constructor)
    (own : pc.holds = true ↔ mutex = some (.worker index))
    (others :
      ∀ other, other ≠ index →
        (mutex = some (.worker other) ↔ state.mutex = some (.worker other)))
    (n_eq : n + (state.workers index).counted = state.n + pc.counted)
    (wids_eq : wids = Function.update state.wids index (pc.registered index))
    (thread_eq : thread = Function.update state.thread index (pc.stored index))
    (notified :
      spawn = .waiting → n = size →
        ∃ other, Function.update state.workers index pc other = .notify)
    (complete : spawn = .unlock → n = size) (unsettled : spawn ≠ .returned) :
    Sound size
      { spawn := spawn
        workers := Function.update state.workers index pc
        mutex := mutex
        n := n
        wids := wids
        thread := thread } where
  created_le := created.trans_le sound.created_le
  born := by
    intro other
    dsimp only
    rw [created, ← sound.born]
    rcases eq_or_ne other index with rfl | elsewhere
    · rw [Function.update_self]
      exact iff_of_true stays alive
    · rw [Function.update_of_ne elsewhere]
  spawnHolds := spawnHolds
  workerHolds := by
    intro other
    dsimp only
    rcases eq_or_ne other index with rfl | elsewhere
    · rw [Function.update_self]
      exact own
    · rw [Function.update_of_ne elsewhere, others other elsewhere]
      exact sound.workerHolds other
  counted := by
    have inside : index ∈ Finset.range size :=
      Finset.mem_range.mpr (((sound.born index).mp alive).trans_le sound.created_le)
    have updated := @TransitionSystem.sum_update _ _ _
      (fun other => (state.workers other).counted) index inside pc.counted
    have changed :
        ∑ other ∈ Finset.range size, (Function.update state.workers index pc other).counted =
          ∑ other ∈ Finset.range size,
            Function.update (fun other => (state.workers other).counted) index pc.counted other :=
      Finset.sum_congr rfl fun other _ =>
        Function.apply_update (fun _ => WorkerPc.counted) state.workers index pc other
    have whole := sound.counted
    dsimp only
    omega
  wids := by
    intro other
    dsimp only
    rw [wids_eq]
    rcases eq_or_ne other index with rfl | elsewhere
    · rw [Function.update_self, Function.update_self]
    · rw [Function.update_of_ne elsewhere, Function.update_of_ne elsewhere, sound.wids]
  thread := by
    intro other
    dsimp only
    rw [thread_eq]
    rcases eq_or_ne other index with rfl | elsewhere
    · rw [Function.update_self, Function.update_self]
    · rw [Function.update_of_ne elsewhere, Function.update_of_ne elsewhere, sound.thread]
  notified := notified
  complete := complete
  settled := fun returned => absurd returned unsettled

/-- The constructor is not in its critical section while a worker is. -/
theorem Sound.spawn_free (sound : Sound size state)
    (holds : (state.workers index).holds = true) : state.spawn.holds = false := by
  rw [Bool.eq_false_iff]
  intro held
  have taken := sound.spawnHolds.mp held
  rw [(sound.workerHolds index).mp holds] at taken
  cases taken

/-- The constructor has not returned while a worker that was started has not its loop. -/
theorem Sound.not_returned (sound : Sound size state) (alive : state.workers index ≠ .unborn)
    (starting : state.workers index ≠ .running) : state.spawn ≠ .returned := by
  intro returned
  have inside := ((sound.born index).mp alive).trans_le sound.created_le
  exact starting (sound.settled returned index inside)

/-- A step of a worker that changes neither the count nor the constructor. -/
theorem Sound.moveQuietly (sound : Sound size state) (alive : state.workers index ≠ .unborn)
    (starting : state.workers index ≠ .running) {pc : WorkerPc} {mutex : Option Thread}
    {wids thread : ℕ → Option ℕ} (stays : pc ≠ .unborn)
    (spawnHolds : state.spawn.holds = true ↔ mutex = some .constructor)
    (own : pc.holds = true ↔ mutex = some (.worker index))
    (others :
      ∀ other, other ≠ index →
        (mutex = some (.worker other) ↔ state.mutex = some (.worker other)))
    (counted : pc.counted = (state.workers index).counted)
    (wids_eq : wids = Function.update state.wids index (pc.registered index))
    (thread_eq : thread = Function.update state.thread index (pc.stored index))
    (silent : state.spawn = .waiting → state.n = size → state.workers index ≠ .notify) :
    Sound size
      { spawn := state.spawn
        workers := Function.update state.workers index pc
        mutex := mutex
        n := state.n
        wids := wids
        thread := thread } := by
  refine sound.moveWorker alive stays rfl spawnHolds own others (by rw [counted]) wids_eq
    thread_eq ?_ sound.complete (sound.not_returned alive starting)
  intro waiting all
  obtain ⟨other, notifies⟩ := sound.notified waiting all
  refine ⟨other, ?_⟩
  rw [Function.update_of_ne, notifies]
  rintro rfl
  exact silent waiting all notifies

theorem Sound.wids_kept (sound : Sound size state) {pc : WorkerPc}
    (same : pc.registered index = (state.workers index).registered index) :
    state.wids = Function.update state.wids index (pc.registered index) := by
  rw [same, ← sound.wids, Function.update_eq_self]

theorem Sound.thread_kept (sound : Sound size state) {pc : WorkerPc}
    (same : pc.stored index = (state.workers index).stored index) :
    state.thread = Function.update state.thread index (pc.stored index) := by
  rw [same, ← sound.thread, Function.update_eq_self]

/-- The worker increments the count, and notifies when it is complete. -/
theorem Sound.count (sound : Sound size state) (place : state.workers index = .count)
    {pc : WorkerPc} (chosen : pc = if state.n + 1 = size then .notify else .unlock) :
    Sound size
      { state with n := state.n + 1, workers := Function.update state.workers index pc } := by
  have holds : (state.workers index).holds = true := by rw [place]; rfl
  have taken := (sound.workerHolds index).mp holds
  have free := sound.spawn_free holds
  have alive : state.workers index ≠ .unborn := by rw [place]; simp
  have observed :
      pc ≠ .unborn ∧ pc.holds = true ∧ pc.counted = 1 ∧ pc.registered index = some index ∧
        pc.stored index = some index := by
    subst chosen
    split <;> simp [WorkerPc.holds, WorkerPc.counted, WorkerPc.registered, WorkerPc.stored]
  obtain ⟨stays, keeps, counted, registered, stored⟩ := observed
  refine sound.moveWorker alive stays rfl sound.spawnHolds (iff_of_true keeps taken)
    (fun _ _ => Iff.rfl) ?_ (sound.wids_kept ?_) (sound.thread_kept ?_) ?_ ?_
    (sound.not_returned alive ?_)
  · rw [counted, place]
    rfl
  · rw [registered, place]
    rfl
  · rw [stored, place]
    rfl
  · intro _ complete
    refine ⟨index, ?_⟩
    rw [Function.update_self, chosen, if_pos complete]
  · intro leaving
    rw [leaving] at free
    cases free
  · rw [place]
    simp

/-- The worker that completes the count wakes the constructor. -/
theorem Sound.notify (sound : Sound size state) (place : state.workers index = .notify) :
    Sound size (state.notifyOne.setWorker index .unlock) := by
  have holds : (state.workers index).holds = true := by rw [place]; rfl
  have taken := (sound.workerHolds index).mp holds
  have free := sound.spawn_free holds
  have alive : state.workers index ≠ .unborn := by rw [place]; simp
  have unsettled := sound.not_returned alive (by rw [place]; simp)
  have moved : ∀ {spawn : SpawnPc}, spawn.created size = state.spawn.created size →
      spawn.holds = false → spawn ≠ .waiting → spawn ≠ .returned →
      Sound size
        { state with spawn := spawn, workers := Function.update state.workers index .unlock } := by
    intro spawn created released awake unsettled
    refine sound.moveWorker alive (by simp) created ?_ (iff_of_true rfl taken)
      (fun _ _ => Iff.rfl) (by rw [place]; rfl) (sound.wids_kept (by rw [place]; rfl))
      (sound.thread_kept (by rw [place]; rfl)) (fun waiting => absurd waiting awake) ?_ unsettled
    · rw [released, taken]
      simp
    · rintro rfl
      cases released
  unfold State.notifyOne State.setWorker
  split
  · rename_i waiting
    exact moved (by rw [waiting]; rfl) rfl (by simp) (by simp)
  · rename_i awake
    exact moved rfl free awake unsettled

theorem Sound.workerStep (sound : Sound size state)
    (taken : state.workerStep size index = some target) : Sound size target := by
  have unnoticed {pc : WorkerPc} (place : state.workers index = pc) (quiet : pc ≠ .notify) :
      state.spawn = .waiting → state.n = size → state.workers index ≠ .notify := by
    intro _ _
    rwa [place]
  unfold State.workerStep at taken
  cases place : state.workers index with
  | unborn => simp only [place, reduceCtorEq] at taken
  | storeThread =>
      simp only [place, Option.some.injEq] at taken
      subst taken
      have free : state.mutex ≠ some (.worker index) := by
        rw [Ne, ← sound.workerHolds, place]
        simp [WorkerPc.holds]
      refine sound.moveQuietly (by rw [place]; simp) (by rw [place]; simp) (by simp)
        sound.spawnHolds ?_ (fun _ _ => Iff.rfl) (by rw [place]; rfl)
        (sound.wids_kept (by rw [place]; rfl)) rfl (unnoticed place (by simp))
      exact iff_of_false (by simp [WorkerPc.holds]) free
  | lock =>
      simp only [place] at taken
      split at taken <;> cases taken
      rename_i free
      refine sound.moveQuietly (by rw [place]; simp) (by rw [place]; simp) (by simp) ?_ ?_ ?_
        (by rw [place]; rfl) (sound.wids_kept (by rw [place]; rfl))
        (sound.thread_kept (by rw [place]; rfl)) (unnoticed place (by simp))
      · rw [sound.spawnHolds, free]
        simp
      · simp [WorkerPc.holds]
      · intro other elsewhere
        simp [free, elsewhere.symm]
  | register =>
      have held := (sound.workerHolds index).mp (by rw [place]; rfl)
      simp only [place, Option.some.injEq] at taken
      subst taken
      exact sound.moveQuietly (by rw [place]; simp) (by rw [place]; simp) (by simp)
        sound.spawnHolds (iff_of_true rfl held) (fun _ _ => Iff.rfl) (by rw [place]; rfl) rfl
        (sound.thread_kept (by rw [place]; rfl)) (unnoticed place (by simp))
  | count =>
      simp only [place, Option.some.injEq] at taken
      subst taken
      exact sound.count place rfl
  | notify =>
      simp only [place, Option.some.injEq] at taken
      subst taken
      exact sound.notify place
  | unlock =>
      have held := (sound.workerHolds index).mp (by rw [place]; rfl)
      simp only [place, Option.some.injEq] at taken
      subst taken
      refine sound.moveQuietly (by rw [place]; simp) (by rw [place]; simp) (by simp) ?_ ?_ ?_
        (by rw [place]; rfl) (sound.wids_kept (by rw [place]; rfl))
        (sound.thread_kept (by rw [place]; rfl)) (unnoticed place (by simp))
      · rw [sound.spawnHolds, held]
        simp
      · simp [WorkerPc.holds]
      · intro other elsewhere
        simp [held, elsewhere.symm]
  | running => simp only [place, reduceCtorEq] at taken

/-- A spurious wake-up. -/
theorem Sound.wake (sound : Sound size state) (taken : state.next size .wake = some target) :
    Sound size target := by
  simp only [State.next] at taken
  split at taken <;> cases taken
  rename_i waiting
  refine sound.setSpawn (by rw [waiting]; rfl) ?_ (fun _ => Iff.rfl) (by simp) (by simp) (by simp)
  have held := sound.spawnHolds
  rw [waiting] at held
  exact held

/-- The invariant holds in every state of every run. -/
theorem sound_of_reachable (reachable : (system size).Reachable state) : Sound size state := by
  refine reachable.invariant ?_ ?_
  · rintro start rfl
    exact sound_initial size
  · intro source action target _ _ taken sound
    cases action with
    | spawn => exact sound.spawnStep taken
    | worker index => exact sound.workerStep taken
    | wake => exact sound.wake taken

end Steps

/-! ## The end of the start -/

/-- The steps that a worker has still to take, and a wake-up that it may cause. -/
def WorkerPc.weight : WorkerPc → ℕ
  | .unborn => 9
  | .storeThread => 8
  | .lock => 7
  | .register => 6
  | .count => 5
  | .notify => 4
  | .unlock => 1
  | .running => 0

/-- The steps that the constructor has still to take after the workers are started. -/
def SpawnPc.weight : SpawnPc → ℕ
  | .create _ => 4
  | .lock => 3
  | .test => 2
  | .waiting => 1
  | .reacquire => 3
  | .unlock => 1
  | .returned => 0

/-- A measure of what is still to be done. -/
def State.weight (size : ℕ) (state : State) : ℕ :=
  (∑ index ∈ Finset.range size, (state.workers index).weight) + state.spawn.weight

section Progress

variable {size index : ℕ} {state target : State}

theorem State.weight_initial (size : ℕ) : State.initial.weight size = 9 * size + 4 := by
  simp [State.weight, State.initial, WorkerPc.weight, SpawnPc.weight, Nat.mul_comm]

/-- What the move of one worker does to the sum. -/
theorem sum_weight_update {workers : ℕ → WorkerPc} (inside : index < size) (pc : WorkerPc) :
    (∑ other ∈ Finset.range size, (Function.update workers index pc other).weight) +
        (workers index).weight =
      (∑ other ∈ Finset.range size, (workers other).weight) + pc.weight := by
  have updated := @TransitionSystem.sum_update _ _ _
    (fun other => (workers other).weight) index (Finset.mem_range.mpr inside) pc.weight
  have changed :
      ∑ other ∈ Finset.range size, (Function.update workers index pc other).weight =
        ∑ other ∈ Finset.range size,
          Function.update (fun other => (workers other).weight) index pc.weight other :=
    Finset.sum_congr rfl fun other _ =>
      Function.apply_update (fun _ => WorkerPc.weight) workers index pc other
  omega

theorem weight_spawnStep (sound : Sound size state)
    (taken : state.spawnStep size = some target) : target.weight size < state.weight size := by
  unfold State.spawnStep at taken
  cases place : state.spawn with
  | create created =>
      simp only [place, Option.some.injEq] at taken
      split at taken
      · rename_i more
        subst taken
        have updated := @sum_weight_update size created state.workers more .storeThread
        rw [sound.fresh place] at updated
        simp only [State.weight, State.setWorker, place, WorkerPc.weight, SpawnPc.weight] at *
        omega
      · subst taken
        simp [State.weight, place, SpawnPc.weight]
  | test =>
      simp only [place, Option.some.injEq] at taken
      split at taken <;> subst taken <;> simp [State.weight, place, SpawnPc.weight]
  | waiting => simp only [place, reduceCtorEq] at taken
  | unlock =>
      simp only [place, Option.some.injEq] at taken
      subst taken
      simp [State.weight, place, SpawnPc.weight]
  | returned => simp only [place, reduceCtorEq] at taken
  | _ =>
      simp only [place] at taken
      split at taken <;> cases taken
      simp [State.weight, place, SpawnPc.weight]

theorem Sound.inside (sound : Sound size state) (alive : state.workers index ≠ .unborn) :
    index < size :=
  ((sound.born index).mp alive).trans_le sound.created_le

/-- A notification costs no more than what it gives the constructor to do. -/
theorem weight_notifyOne (state : State) :
    state.notifyOne.spawn.weight ≤ state.spawn.weight + 2 := by
  unfold State.notifyOne
  split
  · rename_i waiting
    rw [waiting]
    exact le_refl 3
  · exact Nat.le_add_right _ _

theorem workers_notifyOne (state : State) : state.notifyOne.workers = state.workers := by
  unfold State.notifyOne
  split <;> rfl

/-- A worker that moves on pays for what it gives the constructor to do. -/
theorem weight_move (inside : index < size) {pc : WorkerPc} {extra : ℕ}
    (moved : target.workers = Function.update state.workers index pc)
    (given : target.spawn.weight ≤ state.spawn.weight + extra)
    (lower : pc.weight + extra < (state.workers index).weight) :
    target.weight size < state.weight size := by
  have updated := @sum_weight_update size index state.workers inside pc
  unfold State.weight
  rw [moved]
  omega

theorem weight_workerStep (sound : Sound size state)
    (taken : state.workerStep size index = some target) :
    target.weight size < state.weight size := by
  have alive : state.workers index ≠ .unborn := by
    intro unborn
    simp only [State.workerStep, unborn, reduceCtorEq] at taken
  have inside := sound.inside alive
  unfold State.workerStep at taken
  cases place : state.workers index with
  | unborn => exact absurd place alive
  | running => simp only [place, reduceCtorEq] at taken
  | lock =>
      simp only [place] at taken
      split at taken <;> cases taken
      exact @weight_move _ _ _ _ inside _ 0 rfl le_rfl (by rw [place]; decide)
  | count =>
      simp only [place, Option.some.injEq] at taken
      subst taken
      refine @weight_move _ _ _ _ inside _ 0 rfl le_rfl ?_
      rw [place]
      split <;> decide
  | notify =>
      simp only [place, Option.some.injEq] at taken
      subst taken
      refine @weight_move _ _ _ _ inside .unlock 2 ?_ (weight_notifyOne state)
        (by rw [place]; decide)
      rw [State.setWorker, workers_notifyOne]
  | _ =>
      simp only [place, Option.some.injEq] at taken
      subst taken
      exact @weight_move _ _ _ _ inside _ 0 rfl le_rfl (by rw [place]; decide)

/-- The steps of the threads lower the measure, and a spurious wake-up adds two to it. -/
def account (size : ℕ) :
    TransitionSystem.Potential (system size) (fun _ _ => True)
      (TransitionSystem.each Action.progress 1)
      (TransitionSystem.each (fun action => !action.progress) 2) where
  potential := fun state => state.weight size
  pays := by
    intro source action target reachable _ taken
    cases action with
    | spawn =>
        have lower := weight_spawnStep (sound_of_reachable reachable) taken
        simp only [TransitionSystem.each, Action.progress, Bool.not_true, Bool.false_eq_true,
          if_true, if_false]
        omega
    | worker index =>
        have lower := weight_workerStep (sound_of_reachable reachable) taken
        simp only [TransitionSystem.each, Action.progress, Bool.not_true, Bool.false_eq_true,
          if_true, if_false]
        omega
    | wake =>
        simp only [system, State.next] at taken
        split at taken <;> cases taken
        rename_i waiting
        simp only [TransitionSystem.each, Action.progress, Bool.not_false, Bool.false_eq_true,
          if_true, if_false, State.weight, waiting, SpawnPc.weight]
        omega

/-- While the constructor has not returned, one of the threads can take a step. -/
theorem Sound.goes_on (sound : Sound size state) (unfinished : state.spawn ≠ .returned) :
    ∃ action : Action, action.progress = true ∧ (state.next size action).isSome := by
  cases held : state.mutex with
  | some holder =>
      cases holder with
      | constructor =>
          have holds := sound.spawnHolds.mpr held
          refine ⟨.spawn, rfl, ?_⟩
          cases place : state.spawn with
          | test => simp [State.next, State.spawnStep, place]
          | unlock => simp [State.next, State.spawnStep, place]
          | _ => simp [place, SpawnPc.holds] at holds
      | worker index =>
          have holds := (sound.workerHolds index).mpr held
          refine ⟨.worker index, rfl, ?_⟩
          cases place : state.workers index with
          | unborn => simp [place, WorkerPc.holds] at holds
          | storeThread => simp [place, WorkerPc.holds] at holds
          | lock => simp [place, WorkerPc.holds] at holds
          | running => simp [place, WorkerPc.holds] at holds
          | _ => simp [State.next, State.workerStep, place]
  | none =>
      cases place : state.spawn with
      | returned => exact absurd place unfinished
      | waiting =>
          have released (index : ℕ) : (state.workers index).holds = false := by
            rw [Bool.eq_false_iff]
            intro holds
            rw [(sound.workerHolds index).mp holds] at held
            cases held
          -- the worker that completes the count notifies before it releases the mutex
          have incomplete : state.n ≠ size := by
            intro complete
            obtain ⟨index, notifies⟩ := sound.notified place complete
            have free := released index
            rw [notifies] at free
            cases free
          rw [sound.counted] at incomplete
          obtain ⟨index, inside, uncounted⟩ := exists_uncounted incomplete
          have born := (sound.born index).mpr (by rw [place]; exact inside)
          have free := released index
          refine ⟨.worker index, rfl, ?_⟩
          cases stage : state.workers index with
          | unborn => exact absurd stage born
          | storeThread => simp [State.next, State.workerStep, stage]
          | lock => simp [State.next, State.workerStep, stage, held]
          | running => simp [stage, WorkerPc.counted] at uncounted
          | _ => simp [stage, WorkerPc.holds] at free
      | _ => exact ⟨.spawn, rfl, by simp [State.next, State.spawnStep, place, held]⟩

/-- What holds when the constructor has returned. -/
structure Started (size : ℕ) (state : State) : Prop where
  running : ∀ index, index < size → state.workers index = .running
  alone : ∀ index, size ≤ index → state.workers index = .unborn
  counted : state.n = size
  released : state.mutex = none
  wids : ∀ index, state.wids index = if index < size then some index else none
  thread : ∀ index, state.thread index = if index < size then some index else none

theorem Sound.started (sound : Sound size state) (returned : state.spawn = .returned) :
    Started size state := by
  have running := sound.settled returned
  have alone : ∀ index, size ≤ index → state.workers index = .unborn := by
    intro index outside
    by_contra alive
    exact absurd (sound.inside alive) (not_lt.mpr outside)
  refine ⟨running, alone, ?_, ?_, ?_, ?_⟩
  · rw [sound.counted]
    calc
      ∑ index ∈ Finset.range size, (state.workers index).counted
        = ∑ index ∈ Finset.range size, 1 :=
          Finset.sum_congr rfl fun index listed => by
            rw [running index (Finset.mem_range.mp listed)]
            rfl
      _ = size := by rw [← Finset.card_eq_sum_ones, Finset.card_range]
  · by_contra taken
    obtain ⟨holder, held⟩ := Option.ne_none_iff_exists'.mp taken
    cases holder with
    | constructor =>
        have holds := sound.spawnHolds.mpr held
        rw [returned] at holds
        cases holds
    | worker index =>
        have holds := (sound.workerHolds index).mpr held
        rcases lt_or_ge index size with inside | outside
        · rw [running index inside] at holds
          cases holds
        · rw [alone index outside] at holds
          cases holds
  · intro index
    rw [sound.wids]
    split
    · rename_i inside
      rw [running index inside]
      rfl
    · rename_i outside
      rw [alone index (not_lt.mp outside)]
      rfl
  · intro index
    rw [sound.thread]
    split
    · rename_i inside
      rw [running index inside]
      rfl
    · rename_i outside
      rw [alone index (not_lt.mp outside)]
      rfl

end Progress

/-- What `spawn` guarantees for a number of CPUs, however the threads interleave. -/
structure SpawnLaws (size : ℕ) : Prop where
  started : ∀ state, (system size).Reachable state → state.spawn = .returned → Started size state
  goes_on :
    ∀ state, (system size).Reachable state → state.spawn ≠ .returned →
      ∃ action : Action, action.progress = true ∧ (state.next size action).isSome
  ends :
    ∀ actions state, (system size).run (fun _ _ => True) State.initial actions = some state →
      actions.countP Action.progress ≤
        9 * size + 4 + 2 * actions.countP fun action => !action.progress

/--
The constructor returns with all workers registered and out of the critical section,
some thread can go on until it does, and the number of steps is bounded by the number of
spurious wake-ups.
-/
theorem spawn_laws (size : ℕ) : SpawnLaws size where
  started := fun _ reachable returned => (sound_of_reachable reachable).started returned
  goes_on := fun _ reachable unfinished => (sound_of_reachable reachable).goes_on unfinished
  ends := by
    intro actions state replayed
    have bounded := (account size).run (.start rfl) actions replayed
    rw [TransitionSystem.sum_each, TransitionSystem.sum_each] at bounded
    have initially := State.weight_initial size
    dsimp only [account] at bounded
    omega

end AsyncRuntime.ExecutorSlot.Startup
