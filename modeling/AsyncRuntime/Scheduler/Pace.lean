import Mathlib.Algebra.BigOperators.Group.List.Basic
import Mathlib.Algebra.Order.Group.Multiset
import Mathlib.Data.List.Chain
import Mathlib.Order.Monotone.Basic
import Mathlib.Tactic.Abel
import AsyncRuntime.Scheduler.Ticker
import AsyncRuntime.Scheduler.Order
import AsyncRuntime.WorkGroup.Calls

/-!
# No tick is early

Between its post and its execution a task is in one place at a time: it waits to
be pushed, lies in a heap or is queued in a slot.  What matters of it is its
owner and its deadline, which no move changes, so the tasks on the way are a
multiset of alarms, and a step adds an alarm, removes one or keeps them all.

A task gets into a slot only if a reading of the clock has reached its deadline.
At most one task of the ticker is on its way, while the ticker waits for it, and
its deadline is at least a period after the timestamp stored last.
-/

namespace AsyncRuntime.Scheduler.Ticking

open AsyncRuntime.Foundation
open AsyncRuntime.Scheduler.Clocked (Readings Readings.Nondecreasing)
open AsyncRuntime.WorkGroup (ExecutionState Group Task)

/-- The timestamps, the last one first, are at least a period apart. -/
def Apart (period : ℤ) (timestamps : List ℤ) : Prop :=
  timestamps.IsChain fun later earlier => earlier + period ≤ later

/-- No task has been executed before its deadline. -/
def State.Punctual (state : State) : Prop :=
  ∀ execution ∈ state.executed, execution.job.task.createdAt ≤ execution.now

/-! ## The tasks on their way -/

/-- The owner of a task and its deadline. -/
structure Alarm where
  owner : Owner
  deadline : ℤ
  deriving DecidableEq

/-- What matters of a task. -/
def Job.alarm (job : Job) : Alarm :=
  ⟨job.owner, job.task.createdAt⟩

/-- The tasks in a heap; the top is gone once the callback has queued it. -/
def Site.remaining (site : Site) : List Job :=
  if site.loop = .popping then site.heap.tail else site.heap

/-- The tasks that are with a scheduler. -/
def Site.alarms (site : Site) : Multiset Alarm :=
  site.pushing.map Job.alarm + site.remaining.map Job.alarm

/-- The tasks that have been posted and not been executed. -/
def State.alarms (state : State) : Multiset Alarm :=
  state.queued.map Job.alarm + (state.sites.map Site.alarms).sum

section

variable {readings : Readings} {period : ℤ} {source target state : State}

theorem sum_alarms_set {sites : List Site} {index : ℕ} {site : Site}
    (found : sites[index]? = some site) (other : Site) :
    ((sites.set index other).map Site.alarms).sum + site.alarms =
      (sites.map Site.alarms).sum + other.alarms := by
  induction sites generalizing index with
  | nil => cases found
  | cons first rest inductionHypothesis =>
      cases index with
      | zero =>
          obtain rfl : first = site := Option.some.inj found
          simp only [List.set_cons_zero, List.map_cons, List.sum_cons]
          abel
      | succ index =>
          have remaining := inductionHypothesis found
          simp only [List.set_cons_succ, List.map_cons, List.sum_cons]
          rw [add_assoc, remaining, add_assoc]

/-- A change of a scheduler and of the slots keeps the alarms if they do together. -/
theorem alarms_setSite {index : ℕ} {site other : Site} {queued : List Job}
    {added : Multiset Alarm} {ticks : ℕ} (found : state.sites[index]? = some site)
    (kept : queued.map Job.alarm + other.alarms =
      added + (state.queued.map Job.alarm + site.alarms)) :
    ({ state.setSite index other with ticks := ticks, queued := queued } : State).alarms =
      added + state.alarms := by
  refine add_right_cancel (b := site.alarms) ?_
  have moved := sum_alarms_set found other
  simp only [State.alarms, State.setSite]
  calc
    _ = (queued.map Job.alarm : Multiset Alarm) +
          (((state.sites.set index other).map Site.alarms).sum + site.alarms) := by abel
    _ = (queued.map Job.alarm + other.alarms) + (state.sites.map Site.alarms).sum := by
      rw [moved]
      abel
    _ = _ := by
      rw [kept]
      abel

theorem alarms_eraseIdx {jobs : List Job} {index : ℕ} {job : Job}
    (found : jobs[index]? = some job) :
    (jobs.map Job.alarm : Multiset Alarm) =
      job.alarm ::ₘ ((jobs.eraseIdx index).map Job.alarm : Multiset Alarm) := by
  obtain ⟨bound, rfl⟩ := List.getElem?_eq_some_iff.mp found
  have whole := (List.getElem_cons_eraseIdx_perm bound).map Job.alarm
  exact (Multiset.coe_eq_coe.mpr whole).symm

/-! ## The steps of posters and schedulers -/

/-- The task for which the callback is running is on top of the heap. -/
def Site.Held (site : Site) : Prop :=
  ∀ job, site.loop = .calling job → site.heap[0]? = some job

/-- A step that adds some tasks, queues what is due and leaves the ticker alone. -/
structure Moved (readings : Readings) (added : Multiset Alarm)
    (source target : State) : Prop where
  ticks : source.ticks ≤ target.ticks
  ticker : target.ticker = source.ticker
  trueTicks : target.trueTicks = source.trueTicks
  executed : target.executed = source.executed
  alarms : target.alarms = added + source.alarms
  queued : ∀ job ∈ target.queued,
    job ∈ source.queued ∨ job.task.createdAt ≤ source.now readings
  held : (∀ site ∈ source.sites, site.Held) → ∀ site ∈ target.sites, site.Held

theorem held_set {sites : List Site} {index : ℕ} {other : Site} (held : other.Held)
    (all : ∀ site ∈ sites, site.Held) : ∀ site ∈ sites.set index other, site.Held := by
  intro site member
  rcases List.mem_or_eq_of_mem_set member with old | rfl
  · exact all site old
  · exact held

/-- A change of one scheduler that keeps its tasks and queues none. -/
theorem moved_setSite {index ticks : ℕ} {site other : Site} {added : Multiset Alarm}
    (found : state.sites[index]? = some site) (later : state.ticks ≤ ticks)
    (kept : other.alarms = added + site.alarms) (held : site.Held → other.Held) :
    Moved readings added state { state.setSite index other with ticks := ticks } where
  ticks := later
  ticker := rfl
  trueTicks := rfl
  executed := rfl
  alarms := by
    refine alarms_setSite found ?_
    rw [kept]
    exact add_left_comm _ _ _
  queued := fun job member => .inl member
  held := fun all => held_set (held (all site (List.mem_of_getElem? found))) all

theorem Site.alarms_ready {site : Site} (ready : site.loop ≠ .popping) :
    site.alarms = site.pushing.map Job.alarm + site.heap.map Job.alarm := by
  rw [Site.alarms, Site.remaining, if_neg ready]

theorem coe_alarms_perm {first second : List Job} (perm : first.Perm second) :
    (first.map Job.alarm : Multiset Alarm) = second.map Job.alarm :=
  Multiset.coe_eq_coe.mpr (perm.map Job.alarm)

/-- A task is due when its deadline has been reached. -/
theorem getDelay_nonpos_iff {task : Task} {now : ℤ} :
    task.getDelay now ≤ 0 ↔ task.createdAt ≤ now :=
  sub_nonpos

/-- `Post` of a group keeps the deadline of a task, and queues only due ones. -/
theorem post_queues {group after : Group} {task : Task} {now : ℤ}
    {posted : WorkGroup.Posted} (result : group.post task now = some (after, posted)) :
    posted.task.createdAt = task.createdAt ∧
      ((∃ slot queue, posted.destination = .slot slot queue) → task.createdAt ≤ now) := by
  obtain ⟨moved, ⟨-, destination, -⟩ | ⟨due, -⟩⟩ := WorkGroup.Group.post_cases result
  · refine ⟨by rw [moved]; rfl, ?_⟩
    rintro ⟨slot, queue, slotted⟩
    rw [destination] at slotted
    cases slotted
  · exact ⟨by rw [moved]; rfl, fun _ => getDelay_nonpos_iff.mp due⟩

theorem moved_post {index : ℕ} {group : Group} {job : Job}
    (taken : source.post readings index group job = some target) :
    Moved readings {job.alarm} source target := by
  unfold State.post at taken
  split at taken
  case h_2 => cases taken
  rename_i after posted site result found
  obtain ⟨deadline, due⟩ := post_queues result
  have alarm_eq : (Job.alarm { job with task := posted.task }) = job.alarm := by
    rw [Job.alarm, deadline, Job.alarm]
  simp only at taken
  split at taken
  · rename_i slot queue slotted
    cases taken
    refine ⟨Nat.le_succ _, rfl, rfl, rfl, ?_, ?_, id⟩
    · simp only [State.alarms, List.map_cons, ← Multiset.cons_coe, alarm_eq,
        ← Multiset.singleton_add, add_assoc]
    · intro other member
      rcases List.mem_cons.mp member with rfl | old
      · exact .inr (deadline.trans_le (due ⟨slot, queue, slotted⟩))
      · exact .inl old
  · cases taken
    refine moved_setSite found (Nat.le_succ _) ?_ id
    simp only [Site.alarms, Site.remaining, List.map_cons, ← Multiset.cons_coe, alarm_eq,
      ← Multiset.singleton_add, add_assoc]

theorem le_tick (tick : ℕ) : tick ≤ (comparator readings).tick tick :=
  Nat.le_add_right tick 2

theorem moved_push {index poster : ℕ} {site : Site} {job : Job}
    (found : source.sites[index]? = some site) (ready : site.loop = .ready)
    (waiting : site.pushing[poster]? = some job) :
    Moved readings 0 source (source.push readings index poster site job) := by
  refine moved_setSite found (le_push_moment le_tick) ?_ ?_
  · have notPopping : site.loop ≠ .popping := by simp [ready]
    rw [Site.alarms_ready notPopping, Site.alarms_ready, alarms_eraseIdx waiting,
      coe_alarms_perm push_perm, List.map_cons, ← Multiset.cons_coe, zero_add,
      Multiset.add_cons, Multiset.cons_add]
    exact notPopping
  · intro held other calling
    rw [ready] at calling
    cases calling

theorem moved_examine {index : ℕ} {site : Site}
    (found : source.sites[index]? = some site) (ready : site.loop = .ready) :
    Moved readings 0 source (source.examine readings index site) := by
  unfold State.examine
  split
  · exact ⟨Nat.le_refl _, rfl, rfl, rfl, (zero_add _).symm, fun _ member => .inl member, id⟩
  · rename_i job top
    refine moved_setSite found (Nat.le_succ _) ?_ ?_
    · rw [Site.alarms_ready, Site.alarms_ready, zero_add]
      · simp [ready]
      · split <;> simp
    · intro held other calling
      simp only at calling
      split at calling
      · cases calling
        exact top
      · cases calling

theorem moved_call {index : ℕ} {group : Group} {site : Site} {job : Job}
    (found : source.sites[index]? = some site) (calling : site.loop = .calling job)
    (top : site.heap[0]? = some job)
    (taken : source.call readings index group site job = some target) :
    Moved readings 0 source target := by
  have notPopping : site.loop ≠ .popping := by simp [calling]
  unfold State.call at taken
  split at taken
  case h_1 => cases taken
  rename_i after posted result
  obtain ⟨deadline, due⟩ := post_queues result
  have alarm_eq : (Job.alarm { job with task := posted.task }) = job.alarm := by
    rw [Job.alarm, deadline, Job.alarm]
  split at taken
  · rename_i slot queue slotted
    cases taken
    refine ⟨Nat.le_succ _, rfl, rfl, rfl, ?_, ?_, ?_⟩
    · refine alarms_setSite found ?_
      rw [Site.alarms_ready notPopping, Site.alarms, Site.remaining, if_pos rfl]
      cases heap : site.heap with
      | nil =>
          rw [heap] at top
          cases top
      | cons first rest =>
          obtain rfl : first = job := by
            rw [heap] at top
            exact Option.some.inj top
          simp only [List.map_cons, List.tail_cons, ← Multiset.cons_coe, alarm_eq,
            Multiset.add_cons, Multiset.cons_add, zero_add]
    · intro other member
      rcases List.mem_cons.mp member with rfl | old
      · exact .inr (deadline.trans_le (due ⟨slot, queue, slotted⟩))
      · exact .inl old
    · exact held_set fun _ impossible => Loop.noConfusion impossible
  · cases taken
    refine moved_setSite found (Nat.le_succ _) ?_ ?_
    · rw [Site.alarms_ready notPopping, Site.alarms_ready Loop.noConfusion, zero_add]
    · exact fun _ _ impossible => Loop.noConfusion impossible

theorem moved_pop {index : ℕ} {site : Site}
    (found : source.sites[index]? = some site) (popping : site.loop = .popping) :
    Moved readings 0 source (source.pop readings index site) := by
  refine moved_setSite found (le_pop_moment le_tick) ?_ ?_
  · rw [Site.alarms_ready Loop.noConfusion, Site.alarms, Site.remaining, if_pos popping,
      coe_alarms_perm pop_perm, zero_add]
  · exact fun _ _ impossible => Loop.noConfusion impossible

/-! ## Deadlines -/

/-- A task in a slot is due, and so was every task that has been executed. -/
structure Timely (readings : Readings) (state : State) : Prop where
  due : ∀ job ∈ state.queued, job.task.createdAt ≤ state.now readings
  punctual : state.Punctual
  held : ∀ site ∈ state.sites, site.Held

theorem now_le (nondecreasing : readings.Nondecreasing) (later : source.ticks ≤ target.ticks) :
    source.now readings ≤ target.now readings :=
  monotone_nat_of_le_succ nondecreasing later

/-- Steps of the ticker do not touch the tasks on their way. -/
theorem Timely.later (timely : Timely readings source)
    (nondecreasing : readings.Nondecreasing) (ticks : source.ticks ≤ target.ticks)
    (queued : target.queued = source.queued) (executed : target.executed = source.executed)
    (sites : target.sites = source.sites) : Timely readings target where
  due := by
    rw [queued]
    exact fun job member => (timely.due job member).trans (now_le nondecreasing ticks)
  punctual := by
    rw [State.Punctual, executed]
    exact timely.punctual
  held := by
    rw [sites]
    exact timely.held

theorem Timely.moved {added : Multiset Alarm} (timely : Timely readings source)
    (nondecreasing : readings.Nondecreasing) (moved : Moved readings added source target) :
    Timely readings target where
  due := by
    intro job member
    refine le_trans ?_ (now_le nondecreasing moved.ticks)
    rcases moved.queued job member with old | due
    · exact timely.due job old
    · exact due
  punctual := by
    rw [State.Punctual, moved.executed]
    exact timely.punctual
  held := moved.held timely.held

/-- The reading that a worker takes has reached the deadline. -/
theorem Timely.execute {index : ℕ} {job : Job} (timely : Timely readings source)
    (nondecreasing : readings.Nondecreasing) (found : source.queued[index]? = some job) :
    Timely readings (source.execute readings index job) := by
  have due := timely.due job (List.mem_of_getElem? found)
  have taken : Timely readings
      { source with
        ticks := source.ticks + 1
        queued := source.queued.eraseIdx index
        executed := ⟨job, source.now readings⟩ :: source.executed } := by
    refine ⟨?_, ?_, timely.held⟩
    · intro other member
      exact (timely.due other (List.mem_of_mem_eraseIdx member)).trans
        (now_le nondecreasing (Nat.le_succ _))
    · intro execution member
      rcases List.mem_cons.mp member with rfl | old
      · exact due
      · exact timely.punctual execution old
  unfold State.execute
  split
  · exact taken.later nondecreasing (Nat.le_refl _) rfl rfl rfl
  · exact taken

/-! ## Timestamps -/

/-- What `AsyncTick` knows about the end of the period. -/
def Phase.Covers (period lastTickTs now : ℤ) : Phase → Prop
  | .due => lastTickTs + period ≤ now
  | .early currTickDelay _ => lastTickTs + period ≤ now + currTickDelay
  | .made _ currTickDelay _ => lastTickTs + period ≤ now + currTickDelay
  | .delayed task => lastTickTs + period ≤ task.createdAt
  | .idle => True
  | .stopped => True
  | .entered _ => True
  | .waiting => True

/-- How many tasks of the ticker are on their way. -/
def State.pending (state : State) : ℕ :=
  (state.alarms.map Alarm.owner).count .ticker

/--
The timestamps are apart so far, and the next one will be: whether the tick is
due or waits for its task, the period after the last timestamp will be over.
-/
structure Paced (readings : Readings) (period : ℤ) (state : State) : Prop where
  apart : Apart period state.trueTicks
  newest : ∀ latest ∈ state.trueTicks.head?, latest ≤ state.ticker.lastTickTs
  stored : state.ticker.lastTickTs ≤ state.now readings
  covers : state.ticker.phase.Covers period state.ticker.lastTickTs (state.now readings)
  pending : state.pending = if state.ticker.phase = .waiting then 1 else 0
  deadline : ∀ alarm ∈ state.alarms, alarm.owner = .ticker →
    state.ticker.lastTickTs + period ≤ alarm.deadline

theorem owner_ne_ticker (none : source.pending = 0) {alarm : Alarm}
    (member : alarm ∈ source.alarms) : alarm.owner ≠ .ticker :=
  fun mine => Multiset.count_eq_zero.mp none (Multiset.mem_map.mpr ⟨alarm, member, mine⟩)

theorem Phase.Covers.later {phase : Phase} {lastTickTs now later : ℤ}
    (covers : phase.Covers period lastTickTs now) (le : now ≤ later) :
    phase.Covers period lastTickTs later := by
  cases phase <;> simp only [Phase.Covers] at covers ⊢ <;> omega

/-- A step that stores no timestamp and posts no task of the ticker. -/
theorem Paced.proceed (paced : Paced readings period source)
    (nondecreasing : readings.Nondecreasing) (ticks : source.ticks ≤ target.ticks)
    (trueTicks : target.trueTicks = source.trueTicks)
    (alarms : target.alarms = source.alarms)
    (lastTickTs : target.ticker.lastTickTs = source.ticker.lastTickTs)
    (waiting : target.ticker.phase = .waiting ↔ source.ticker.phase = .waiting)
    (covers : target.ticker.phase.Covers period source.ticker.lastTickTs
      (target.now readings)) :
    Paced readings period target where
  apart := by
    rw [trueTicks]
    exact paced.apart
  newest := by
    rw [trueTicks, lastTickTs]
    exact paced.newest
  stored := by
    rw [lastTickTs]
    exact paced.stored.trans (now_le nondecreasing ticks)
  covers := by
    rw [lastTickTs]
    exact covers
  pending := by
    rw [State.pending, alarms, if_congr waiting rfl rfl]
    exact paced.pending
  deadline := by
    rw [alarms, lastTickTs]
    exact paced.deadline

/-- The ticker takes no part in the moves of other tasks. -/
theorem Paced.moved {added : Multiset Alarm} (paced : Paced readings period source)
    (nondecreasing : readings.Nondecreasing) (moved : Moved readings added source target)
    (others : ∀ alarm ∈ added, alarm.owner ≠ .ticker) : Paced readings period target where
  apart := by
    rw [moved.trueTicks]
    exact paced.apart
  newest := by
    rw [moved.trueTicks, moved.ticker]
    exact paced.newest
  stored := by
    rw [moved.ticker]
    exact paced.stored.trans (now_le nondecreasing moved.ticks)
  covers := by
    rw [moved.ticker]
    exact paced.covers.later (now_le nondecreasing moved.ticks)
  pending := by
    have none : (added.map Alarm.owner).count .ticker = 0 := by
      rw [Multiset.count_eq_zero, Multiset.mem_map]
      rintro ⟨alarm, member, same⟩
      exact others alarm member same
    rw [State.pending, moved.alarms, moved.ticker, Multiset.map_add, Multiset.count_add, none,
      zero_add]
    exact paced.pending
  deadline := by
    rw [moved.alarms, moved.ticker]
    intro alarm member mine
    rcases Multiset.mem_add.mp member with new | old
    · exact absurd mine (others alarm new)
    · exact paced.deadline alarm old mine

/-- The task that the ticker posts is the only one of its own on its way. -/
theorem Paced.posts {task : Task} (paced : Paced readings period source)
    (nondecreasing : readings.Nondecreasing) (place : source.ticker.phase = .delayed task)
    (moved : Moved readings {(⟨.ticker, task⟩ : Job).alarm} source target) :
    Paced readings period (target.setPhase .waiting) where
  apart := by
    rw [show (target.setPhase .waiting).trueTicks = target.trueTicks from rfl,
      moved.trueTicks]
    exact paced.apart
  newest := by
    rw [show (target.setPhase .waiting).trueTicks = target.trueTicks from rfl,
      moved.trueTicks, State.setPhase, moved.ticker]
    exact paced.newest
  stored := by
    rw [State.setPhase, moved.ticker]
    exact paced.stored.trans (now_le nondecreasing moved.ticks)
  covers := trivial
  pending := by
    have none : source.pending = 0 := by
      rw [paced.pending, place]
      rfl
    rw [State.pending] at none ⊢
    rw [show (target.setPhase .waiting).alarms = target.alarms from rfl, moved.alarms,
      Multiset.map_add, Multiset.count_add, none]
    rfl
  deadline := by
    have covers := paced.covers
    rw [place] at covers
    rw [show (target.setPhase .waiting).alarms = target.alarms from rfl, moved.alarms,
      State.setPhase, moved.ticker]
    intro alarm member mine
    rcases Multiset.mem_add.mp member with new | old
    · rw [Multiset.mem_singleton.mp new]
      exact covers
    · exact paced.deadline alarm old mine

/-- A tick stores its timestamp when the period is over and no task is on its way. -/
theorem Paced.resolveTrue {lastTickTs : ℤ} (nondecreasing : readings.Nondecreasing)
    (apart : Apart period source.trueTicks)
    (newest : ∀ latest ∈ source.trueTicks.head?, latest ≤ lastTickTs)
    (elapsed : lastTickTs + period ≤ source.now readings) (pending : source.pending = 0) :
    Paced readings period (source.resolveTrue readings) where
  apart := by
    refine List.isChain_cons.mpr ⟨?_, apart⟩
    intro latest head
    exact le_trans (Int.add_le_add_right (newest latest head) period) elapsed
  newest := by
    intro latest head
    exact (Option.some.inj head).ge
  stored := now_le nondecreasing (Nat.le_succ _)
  covers := trivial
  pending := pending
  deadline _ member mine := absurd mine (owner_ne_ticker pending member)

theorem Paced.advance (paced : Paced readings period source)
    (nondecreasing : readings.Nondecreasing)
    (taken : source.advance readings period = some target) :
    Paced readings period target := by
  have later : source.ticks ≤ source.ticks + 1 := Nat.le_succ _
  have nowLater : source.now readings ≤ readings.clock (source.ticks + 1) :=
    nondecreasing source.ticks
  have covers := paced.covers
  have pending := paced.pending
  unfold State.advance at taken
  split at taken
  case h_1 place =>
    -- A stopped tick stores a timestamp, but resolves to false.
    cases taken
    rw [place] at pending
    refine ⟨paced.apart, ?_, nowLater, trivial, pending, ?_⟩
    · intro latest head
      exact (paced.newest latest head).trans paced.stored
    · intro alarm member mine
      exact absurd mine (owner_ne_ticker pending member)
  case h_2 executionState place =>
    cases taken
    refine paced.proceed nondecreasing later rfl rfl rfl ?_ ?_
    · rw [place]
      simp only [State.setPhase]
      split <;> simp
    · simp only [State.setPhase]
      by_cases early : source.now readings - source.ticker.lastTickTs < period
      · rw [if_pos early]
        change source.ticker.lastTickTs + period ≤ readings.clock (source.ticks + 1) + _
        omega
      · rw [if_neg early]
        change source.ticker.lastTickTs + period ≤ readings.clock (source.ticks + 1)
        omega
  case h_3 place =>
    cases taken
    rw [place] at covers pending
    exact Paced.resolveTrue nondecreasing paced.apart paced.newest covers pending
  case h_4 currTickDelay executionState place =>
    cases taken
    rw [place] at covers
    refine paced.proceed nondecreasing later rfl rfl rfl (by simp [place, State.setPhase]) ?_
    exact covers.trans (Int.add_le_add_right nowLater _)
  case h_5 task currTickDelay executionState place =>
    cases taken
    rw [place] at covers
    exact paced.proceed nondecreasing later rfl rfl rfl (by simp [place, State.setPhase]) covers
  all_goals cases taken

theorem alarms_execute {index : ℕ} {job : Job} (found : source.queued[index]? = some job) :
    source.alarms = job.alarm ::ₘ (source.execute readings index job).alarms := by
  have sites : (source.execute readings index job).sites = source.sites := by
    unfold State.execute
    split <;> rfl
  have queued : (source.execute readings index job).queued =
      source.queued.eraseIdx index := by
    unfold State.execute
    split <;> rfl
  rw [State.alarms, State.alarms, sites, queued, alarms_eraseIdx found, Multiset.cons_add]

/-- A task that is executed is on its way no more. -/
theorem pending_execute {index : ℕ} {job : Job} (found : source.queued[index]? = some job) :
    source.pending =
      (source.execute readings index job).pending + if .ticker = job.owner then 1 else 0 := by
  rw [State.pending, alarms_execute found, Multiset.map_cons, Multiset.count_cons]
  rfl

/-- The deadline of the task of the ticker ends the period, and it has been reached. -/
theorem Paced.execute {index : ℕ} {job : Job} (paced : Paced readings period source)
    (timely : Timely readings source) (nondecreasing : readings.Nondecreasing)
    (found : source.queued[index]? = some job) :
    Paced readings period (source.execute readings index job) := by
  have alarms := @alarms_execute readings source index job found
  have pending := paced.pending
  rw [pending_execute found] at pending
  cases mine : job.owner with
  | ticker =>
      have due := timely.due job (List.mem_of_getElem? found)
      have deadline :=
        paced.deadline job.alarm (by rw [alarms]; exact Multiset.mem_cons_self _ _) mine
      have rest : (source.execute readings index job).pending = 0 := by
        rw [mine, if_pos rfl] at pending
        split at pending
        · exact Nat.succ_injective pending
        · cases pending
      unfold State.execute at rest ⊢
      simp only [mine] at rest ⊢
      exact Paced.resolveTrue nondecreasing paced.apart paced.newest
        (deadline.trans due) rest
  | other =>
      have earlier := paced.deadline
      have nowLater : source.now readings ≤ readings.clock (source.ticks + 1) :=
        nondecreasing source.ticks
      rw [mine, if_neg Owner.noConfusion, Nat.add_zero] at pending
      rw [alarms] at earlier
      unfold State.execute at pending earlier ⊢
      simp only [mine] at pending earlier ⊢
      exact ⟨paced.apart, paced.newest, paced.stored.trans nowLater,
        paced.covers.later nowLater, pending,
        fun alarm member => earlier alarm (Multiset.mem_cons_of_mem member)⟩

/-! ## Runs -/

/-- What holds in every state of a run. -/
structure Sound (readings : Readings) (period : ℤ) (state : State) : Prop where
  timely : Timely readings state
  paced : Paced readings period state

theorem sound_start (nondecreasing : readings.Nondecreasing) (groups : ℕ) :
    Sound readings period (.start readings groups) := by
  have none : (State.start readings groups).alarms = 0 := by
    have sites : ((State.start readings groups).sites.map Site.alarms).sum = 0 := by
      rw [State.start, List.map_replicate, List.sum_replicate]
      exact nsmul_zero groups
    rw [State.alarms, sites]
    rfl
  refine ⟨⟨?_, ?_, ?_⟩, ⟨.nil, ?_, nondecreasing 0, trivial, ?_, ?_⟩⟩
  · intro job member
    cases member
  · intro execution member
    cases member
  · intro site member job calling
    rw [List.eq_of_mem_replicate member] at calling
    cases calling
  · intro latest head
    cases head
  · rw [State.pending, none]
    rfl
  · intro alarm member
    rw [none] at member
    cases Multiset.notMem_zero alarm member

theorem Sound.moved {added : Multiset Alarm} (sound : Sound readings period source)
    (nondecreasing : readings.Nondecreasing) (moved : Moved readings added source target)
    (others : ∀ alarm ∈ added, alarm.owner ≠ .ticker) : Sound readings period target :=
  ⟨sound.timely.moved nondecreasing moved, sound.paced.moved nondecreasing moved others⟩

/-- The steps of a scheduler add no task. -/
theorem Sound.scheduler (sound : Sound readings period source)
    (nondecreasing : readings.Nondecreasing) (moved : Moved readings 0 source target) :
    Sound readings period target :=
  sound.moved nondecreasing moved fun alarm member => absurd member (Multiset.notMem_zero alarm)

/-- The ticker goes to another place, and takes no reading. -/
theorem Sound.setPhase {phase : Phase} (sound : Sound readings period source)
    (nondecreasing : readings.Nondecreasing)
    (waiting : phase = .waiting ↔ source.ticker.phase = .waiting)
    (covers : phase.Covers period source.ticker.lastTickTs (source.now readings)) :
    Sound readings period (source.setPhase phase) where
  timely := sound.timely.later nondecreasing (Nat.le_refl _) rfl rfl rfl
  paced := sound.paced.proceed nondecreasing (Nat.le_refl _) rfl rfl rfl waiting covers

theorem Sound.step {action : Action} (sound : Sound readings period source)
    (nondecreasing : readings.Nondecreasing)
    (taken : next readings period source action = some target) :
    Sound readings period target := by
  have still : source.ticks ≤ source.ticks := Nat.le_refl _
  cases action with
  | stop =>
      cases taken
      exact ⟨sound.timely.later nondecreasing still rfl rfl rfl,
        sound.paced.proceed nondecreasing still rfl rfl rfl Iff.rfl sound.paced.covers⟩
  | asyncTick executionState =>
      simp only [next] at taken
      split at taken <;> cases taken
      rename_i idle
      refine sound.setPhase nondecreasing ?_ ?_
      · rw [idle]
        split <;> simp
      · split <;> trivial
  | advance =>
      refine ⟨?_, sound.paced.advance nondecreasing taken⟩
      simp only [next] at taken
      unfold State.advance at taken
      split at taken <;> cases taken <;>
        exact sound.timely.later nondecreasing (Nat.le_succ _) rfl rfl rfl
  | postTick index group =>
      simp only [next] at taken
      split at taken
      · rename_i task place
        obtain ⟨posted, result, rfl⟩ := Option.map_eq_some_iff.mp taken
        have moved := moved_post result
        exact ⟨(sound.timely.moved nondecreasing moved).later nondecreasing (Nat.le_refl _)
          rfl rfl rfl, sound.paced.posts nondecreasing place moved⟩
      · cases taken
  | postThrows =>
      simp only [next] at taken
      split at taken <;> cases taken
      rename_i task place
      exact sound.setPhase nondecreasing (by simp [place]) trivial
  | post index group task =>
      refine sound.moved nondecreasing (moved_post taken) ?_
      intro alarm member
      rw [Multiset.mem_singleton.mp member]
      exact Owner.noConfusion
  | push index poster =>
      obtain ⟨site, found, taken⟩ := Option.bind_eq_some_iff.mp taken
      split at taken
      · rename_i ready
        obtain ⟨job, waiting, rfl⟩ := Option.map_eq_some_iff.mp taken
        exact sound.scheduler nondecreasing (moved_push found ready waiting)
      · cases taken
  | examine index =>
      obtain ⟨site, found, taken⟩ := Option.bind_eq_some_iff.mp taken
      split at taken <;> cases taken
      rename_i ready
      exact sound.scheduler nondecreasing (moved_examine found ready)
  | call index group =>
      obtain ⟨site, found, taken⟩ := Option.bind_eq_some_iff.mp taken
      split at taken
      · rename_i job calling
        have top := sound.timely.held site (List.mem_of_getElem? found) job calling
        exact sound.scheduler nondecreasing (moved_call found calling top taken)
      · cases taken
  | pop index =>
      obtain ⟨site, found, taken⟩ := Option.bind_eq_some_iff.mp taken
      split at taken <;> cases taken
      rename_i popping
      exact sound.scheduler nondecreasing (moved_pop found popping)
  | execute index =>
      obtain ⟨job, found, rfl⟩ := Option.map_eq_some_iff.mp taken
      exact ⟨sound.timely.execute nondecreasing found,
        sound.paced.execute sound.timely nondecreasing found⟩

theorem sound_of_reachable (nondecreasing : readings.Nondecreasing) {groups : ℕ}
    (reachable : (system readings period groups).Reachable state) :
    Sound readings period state := by
  refine reachable.invariant ?_ ?_
  · rintro start rfl
    exact sound_start nondecreasing groups
  · intro source action target _ _ taken sound
    exact sound.step nondecreasing taken

end

/-- No task is executed and no tick resolves to true too early. -/
theorem ticks_never_early (readings : Readings) (nondecreasing : readings.Nondecreasing)
    (period : ℤ) (groups : ℕ) (state : State)
    (reachable : (system readings period groups).Reachable state) :
    state.Punctual ∧ Apart period state.trueTicks :=
  have sound := sound_of_reachable nondecreasing reachable
  ⟨sound.timely.punctual, sound.paced.apart⟩

/-- A tick on the posted path and then one on the immediate path. -/
theorem ticks_never_early_two :
    ∃ state : State, (system (Clocked.steadyClock true) 20 1).Reachable state ∧
      (state.trueTicks = [65, 40] ∧ state.executed.length = 2) ∧
        state.Punctual ∧ Apart 20 state.trueTicks := by
  have nondecreasing : (Clocked.steadyClock true).Nondecreasing := by
    intro tick
    simp only [Clocked.steadyClock]
    omega
  have start : (system (Clocked.steadyClock true) 20 1).initial
      (.start (Clocked.steadyClock true) 1) := rfl
  obtain ⟨state, reachable, ends⟩ :=
    TransitionSystem.exists_reachableUnder_of_run (system (Clocked.steadyClock true) 20 1)
      (fun _ _ => True) start
      [.asyncTick {}, .advance, .advance, .advance, .postTick 0 Clocked.sampleGroup,
        .push 0 0, .examine 0, .examine 0, .call 0 Clocked.sampleGroup, .pop 0, .execute 0,
        .post 0 Clocked.sampleGroup (Clocked.taskDueAt 0), .execute 0, .examine 0,
        .post 0 Clocked.sampleGroup (Clocked.taskDueAt 0), .asyncTick {}, .advance, .advance]
      (fun state => decide (state.trueTicks = [65, 40] ∧ state.executed.length = 2))
      (by decide)
  exact ⟨state, reachable, of_decide_eq_true ends,
    ticks_never_early (Clocked.steadyClock true) nondecreasing 20 1 state reachable⟩

end AsyncRuntime.Scheduler.Ticking
