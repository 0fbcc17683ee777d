import AsyncRuntime.Foundation.Refinement
import AsyncRuntime.Scheduler.Pace

/-!
# No delayed task is lost or doubled

On its way from `Post` to a worker a task passes through the hands of its poster, the
heap of a scheduler, the callback of the scheduler thread and the queues of a slot,
and for a moment it is both in the heap and in a queue.  Whatever the clock reads, and
even when it is set back, every task that has been posted has been executed once, or is
on its way once.
-/

namespace AsyncRuntime.Scheduler.Ticking

open AsyncRuntime.Foundation
open AsyncRuntime.Scheduler.Clocked (Readings)

/-- A task is posted to a group, or executed by a worker. -/
inductive AlarmEvent where
  | posted (alarm : Alarm)
  | executed (alarm : Alarm)
  deriving DecidableEq

/-- What a step shows. -/
def shows (source : State) : Action → List AlarmEvent
  | .postTick _ _ =>
      match source.ticker.phase with
      | .delayed task => [.posted ⟨.ticker, task.createdAt⟩]
      | _ => []
  | .post _ _ task => [.posted ⟨.other, task.createdAt⟩]
  | .execute index => source.queued[index]?.toList.map fun job => .executed job.alarm
  | _ => []

/-- The runtime, with the posts and the executions as its events. -/
def observed (readings : Readings) (period : ℤ) (groups : ℕ) :
    ObservedSystem State Action AlarmEvent where
  toTransitionSystem := system readings period groups
  shows := fun source action _ => shows source action

/-- The tasks posted. -/
def posted (events : List AlarmEvent) : Multiset Alarm :=
  Multiset.ofList <| events.filterMap fun event =>
    match event with
    | .posted alarm => some alarm
    | .executed _ => none

/-- The tasks executed. -/
def executed (events : List AlarmEvent) : Multiset Alarm :=
  Multiset.ofList <| events.filterMap fun event =>
    match event with
    | .posted _ => none
    | .executed alarm => some alarm

theorem posted_append (first second : List AlarmEvent) :
    posted (first ++ second) = posted first + posted second := by
  rw [posted, List.filterMap_append, ← Multiset.coe_add]
  rfl

theorem executed_append (first second : List AlarmEvent) :
    executed (first ++ second) = executed first + executed second := by
  rw [executed, List.filterMap_append, ← Multiset.coe_add]
  rfl

/-- A step adds the tasks that it shows as posted and removes the executed ones. -/
structure Carried (events : List AlarmEvent) (source target : State) : Prop where
  balance : target.alarms + executed events = posted events + source.alarms
  held : (∀ site ∈ source.sites, site.Held) → ∀ site ∈ target.sites, site.Held

section

variable {readings : Readings} {period : ℤ} {source middle target : State}

/-- The ticker moves, and no task does. -/
theorem Carried.still (queued : target.queued = source.queued)
    (sites : target.sites = source.sites) : Carried [] source target where
  balance := by
    rw [State.alarms, queued, sites]
    exact (add_zero _).trans (zero_add _).symm
  held := by
    rw [sites]
    exact id

/-- A step of a poster or a scheduler, after which the ticker may move on. -/
theorem Carried.of_moved {added : Multiset Alarm} {events : List AlarmEvent}
    (moved : Moved readings added source middle) (shown : posted events = added)
    (silent : executed events = 0) (queued : target.queued = middle.queued)
    (sites : target.sites = middle.sites) : Carried events source target where
  balance := by
    have alarms : target.alarms = middle.alarms := by
      rw [State.alarms, queued, sites]
      rfl
    rw [alarms, moved.alarms, shown, silent, add_zero]
  held := by
    rw [sites]
    exact moved.held

/-- A worker takes a task out of a slot. -/
theorem Carried.execute {index : ℕ} {job : Job} (found : source.queued[index]? = some job) :
    Carried [.executed job.alarm] source (source.execute readings index job) where
  balance := by
    have alarms := @alarms_execute readings source index job found
    rw [alarms, add_comm]
    exact (Multiset.singleton_add _ _).trans (zero_add _).symm
  held := by
    have sites : (source.execute readings index job).sites = source.sites := by
      unfold State.execute
      split <;> rfl
    rw [sites]
    exact id

theorem carried_of_next {action : Action} (held : ∀ site ∈ source.sites, site.Held)
    (taken : next readings period source action = some target) :
    Carried (shows source action) source target := by
  cases action with
  | stop =>
      cases taken
      exact .still rfl rfl
  | asyncTick executionState =>
      simp only [next] at taken
      split at taken <;> cases taken
      exact .still rfl rfl
  | advance =>
      simp only [next] at taken
      unfold State.advance at taken
      split at taken <;> cases taken <;> exact .still rfl rfl
  | postTick index group =>
      simp only [next] at taken
      split at taken
      · rename_i task place
        obtain ⟨middle, result, rfl⟩ := Option.map_eq_some_iff.mp taken
        simp only [shows, place]
        exact .of_moved (moved_post result) rfl rfl rfl rfl
      · cases taken
  | postThrows =>
      simp only [next] at taken
      split at taken <;> cases taken
      exact .still rfl rfl
  | post index group task => exact .of_moved (moved_post taken) rfl rfl rfl rfl
  | push index poster =>
      obtain ⟨site, found, taken⟩ := Option.bind_eq_some_iff.mp taken
      split at taken
      · rename_i ready
        obtain ⟨job, waiting, rfl⟩ := Option.map_eq_some_iff.mp taken
        exact .of_moved (moved_push found ready waiting) rfl rfl rfl rfl
      · cases taken
  | examine index =>
      obtain ⟨site, found, taken⟩ := Option.bind_eq_some_iff.mp taken
      split at taken <;> cases taken
      rename_i ready
      exact .of_moved (moved_examine found ready) rfl rfl rfl rfl
  | call index group =>
      obtain ⟨site, found, taken⟩ := Option.bind_eq_some_iff.mp taken
      split at taken
      · rename_i job calling
        have top := held site (List.mem_of_getElem? found) job calling
        exact .of_moved (moved_call found calling top taken) rfl rfl rfl rfl
      · cases taken
  | pop index =>
      obtain ⟨site, found, taken⟩ := Option.bind_eq_some_iff.mp taken
      split at taken <;> cases taken
      rename_i popping
      exact .of_moved (moved_pop found popping) rfl rfl rfl rfl
  | execute index =>
      obtain ⟨job, found, rfl⟩ := Option.map_eq_some_iff.mp taken
      simp only [shows, found, Option.toList_some, List.map_cons, List.map_nil]
      exact .execute found

end

/-- No task is with a scheduler or in a slot. -/
def State.idle (state : State) : Prop :=
  state.queued = [] ∧ ∀ site ∈ state.sites, site.pushing = [] ∧ site.heap = []

theorem State.idle.alarms {state : State} (idle : state.idle) : state.alarms = 0 := by
  obtain ⟨queued, sites⟩ := idle
  have none : ∀ alarms ∈ state.sites.map Site.alarms, alarms = 0 := by
    intro alarms member
    obtain ⟨site, listed, rfl⟩ := List.mem_map.mp member
    obtain ⟨pushing, heap⟩ := sites site listed
    rw [Site.alarms, Site.remaining, pushing, heap]
    split <;> rfl
  rw [State.alarms, queued, List.sum_eq_zero none]
  rfl

/--
Every task that has been posted has been executed or is on its way, as often as it was
posted, and when no task is on its way all of them have been executed.
-/
theorem delayed_tasks_conserved {readings : Readings} {period : ℤ} {groups : ℕ} {state : State}
    {events : List AlarmEvent} (history : (observed readings period groups).History state events) :
    posted events = executed events + state.alarms ∧
      (state.idle → posted events = executed events) := by
  have carried : (∀ site ∈ state.sites, site.Held) ∧
      posted events = executed events + state.alarms := by
    induction history with
    | start isInitial =>
        obtain rfl := isInitial
        have idle : (State.start readings groups).idle := by
          refine ⟨rfl, fun site member => ?_⟩
          rw [List.eq_of_mem_replicate member]
          exact ⟨rfl, rfl⟩
        refine ⟨fun site member => ?_, ?_⟩
        · rw [List.eq_of_mem_replicate member]
          exact nofun
        · rw [idle.alarms]
          rfl
    | @step source target action events earlier allowed taken inductionHypothesis =>
        obtain ⟨held, balance⟩ := inductionHypothesis
        have step := carried_of_next held taken
        refine ⟨step.held held, ?_⟩
        calc
          posted (events ++ shows source action)
            = executed events + (posted (shows source action) + source.alarms) := by
              rw [posted_append, balance, add_assoc, add_comm source.alarms]
          _ = executed (events ++ shows source action) + target.alarms := by
              rw [← step.balance, executed_append, add_assoc,
                add_comm target.alarms]
  refine ⟨carried.2, fun idle => ?_⟩
  rw [carried.2, idle.alarms, add_zero]

/-- A tick that goes through the heap, and a task that is due at once. -/
theorem delayed_tasks_conserved_two :
    ∃ (state : State) (events : List AlarmEvent), state.idle ∧ (executed events).card = 2 ∧
      posted events = executed events := by
  have start : (observed (Clocked.steadyClock true) 20 1).initial
      (.start (Clocked.steadyClock true) 1) := rfl
  obtain ⟨state, events, history, ends⟩ :=
    (observed (Clocked.steadyClock true) 20 1).exists_history_of_replay (fun _ _ => True) start
      [.asyncTick {}, .advance, .advance, .advance, .postTick 0 Clocked.sampleGroup,
        .push 0 0, .examine 0, .examine 0, .call 0 Clocked.sampleGroup, .pop 0, .execute 0,
        .post 0 Clocked.sampleGroup (Clocked.taskDueAt 0), .execute 0]
      (fun reached =>
        decide (reached.1.queued = [] ∧ reached.1.sites = [⟨[], [], .ready⟩] ∧
          (executed reached.2).card = 2))
      (by decide)
  obtain ⟨queued, sites, twice⟩ := of_decide_eq_true ends
  have idle : state.idle := by
    refine ⟨queued, fun site member => ?_⟩
    rw [sites, List.mem_singleton] at member
    rw [member]
    exact ⟨rfl, rfl⟩
  exact ⟨state, events, idle, twice, (delayed_tasks_conserved history).2 idle⟩

end AsyncRuntime.Scheduler.Ticking
