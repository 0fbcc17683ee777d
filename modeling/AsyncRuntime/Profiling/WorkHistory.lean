import AsyncRuntime.Profiling.WorkSteps

/-!
# The recent steps along a run

A run registers functions, adds events and updates.  Beside the profiler it records the
steps that have been processed so far, and with a clock that does not go back it keeps
the recent ones exactly if all its updates are timely.
-/

namespace AsyncRuntime.Profiling

open AsyncRuntime.Foundation

/-- The calls on a profiler. -/
inductive Action where
  | regAsyncFunction (id : ℕ) (name : String)
  | addEvent (entry : Entry)
  | update

/-- The steps of a function among these events, with the times that `Now` returns. -/
def timedSteps (clock : ℕ → ℤ) (registered : ℕ → Bool) (id : ℕ) : ℕ → List Event → TimedSteps
  | _, [] => []
  | readings, event :: events =>
      if event.type = .workTimeStep ∧ registered event.id then
        if event.id = id then
          (event.step, clock readings) :: timedSteps clock registered id (readings + 1) events
        else
          timedSteps clock registered id (readings + 1) events
      else
        timedSteps clock registered id readings events

namespace Profiler

/-- The function has been registered. -/
def registered (profiler : Profiler) (id : ℕ) : Bool :=
  (profiler.state.workGround id).isSome

/-- The steps of the function that the next `Update` processes. -/
def nextSteps (clock : ℕ → ℤ) (profiler : Profiler) (id : ℕ) : TimedSteps :=
  timedSteps clock profiler.registered id profiler.readings profiler.newEvents

end Profiler

/-- A profiler, and the steps of each function that `Update` has processed. -/
structure History where
  profiler : Profiler
  processed : ℕ → List WorkStep

namespace History

section Run

variable (clock : ℕ → ℤ) (memory : ℕ → ℤ → Event)

def act (history : History) : Action → History
  | .regAsyncFunction id name =>
      { history with profiler := history.profiler.regAsyncFunction clock id name }
  | .addEvent entry => { history with profiler := history.profiler.addEvent clock memory entry }
  | .update =>
      { profiler := history.profiler.update clock
        processed := fun id =>
          history.processed id ++ (history.profiler.nextSteps clock id).map Prod.fst }

/-- A run of a new profiler with this profiling interval. -/
def run (interval : ℤ) (actions : List Action) : History :=
  actions.foldl (act clock memory)
    { profiler := (Profiler.create memory).setProfilingInterval interval
      processed := fun _ => [] }

end Run

end History

/-! ## What the events of an update do with a function -/

namespace Profiler

variable {clock : ℕ → ℤ} {profiler : Profiler} {event : Event} {id : ℕ}

/-- A step of a registered function. -/
theorem applyEvent_step {work : Work} (type : event.type = .workTimeStep)
    (found : profiler.state.workGround event.id = some work) :
    (profiler.applyEvent clock event).state.workGround =
        Function.update profiler.state.workGround event.id
          (some (work.addStep profiler.state.profilingInterval (clock profiler.readings)
            event.step)) ∧
      (profiler.applyEvent clock event).readings = profiler.readings + 1 := by
  simp only [applyEvent, type, found, and_self]

/-- Any other event leaves the functions and the clock alone. -/
theorem applyEvent_other
    (other : ¬ (event.type = .workTimeStep ∧ profiler.registered event.id = true)) :
    (profiler.applyEvent clock event).state.workGround = profiler.state.workGround ∧
      (profiler.applyEvent clock event).readings = profiler.readings := by
  rw [applyEvent]
  cases type : event.type with
  | workTimeStep =>
      have unknown : profiler.state.workGround event.id = none := by
        rw [← Option.not_isSome_iff_eq_none]
        exact fun known => other ⟨type, known⟩
      simp only [unknown, and_self]
  | _ => exact ⟨rfl, rfl⟩

theorem profilingInterval_applyEvent (profiler : Profiler) (event : Event) :
    (profiler.applyEvent clock event).state.profilingInterval =
      profiler.state.profilingInterval := by
  rw [applyEvent]
  cases event.type with
  | workTimeStep =>
      dsimp only
      split <;> rfl
  | _ => rfl

/-- No event registers a function. -/
theorem registered_applyEvent (profiler : Profiler) (event : Event) :
    (profiler.applyEvent clock event).registered = profiler.registered := by
  by_cases step : event.type = .workTimeStep ∧ profiler.registered event.id = true
  · obtain ⟨work, found⟩ := Option.isSome_iff_exists.mp step.2
    funext id
    rw [registered, registered, (applyEvent_step step.1 found).1]
    by_cases here : id = event.id
    · subst here
      rw [Function.update_self, found]
      rfl
    · rw [Function.update_of_ne here]
  · funext id
    rw [registered, registered, (applyEvent_other step).1]

/-- A function gets its steps one after the other. -/
theorem workGround_foldl (profiler : Profiler) (events : List Event) (id : ℕ) :
    (events.foldl (applyEvent clock) profiler).state.workGround id =
      (profiler.state.workGround id).map fun work =>
        work.addSteps profiler.state.profilingInterval
          (timedSteps clock profiler.registered id profiler.readings events) := by
  induction events generalizing profiler with
  | nil =>
      rw [List.foldl_nil]
      exact Option.map_id'.symm
  | cons event events inductionHypothesis =>
      rw [List.foldl_cons, inductionHypothesis, registered_applyEvent,
        profilingInterval_applyEvent, timedSteps]
      by_cases step : event.type = .workTimeStep ∧ profiler.registered event.id = true
      · obtain ⟨work, found⟩ := Option.isSome_iff_exists.mp step.2
        obtain ⟨updated, readings⟩ := @applyEvent_step clock _ _ _ step.1 found
        rw [updated, readings, if_pos step]
        by_cases here : event.id = id
        · subst here
          rw [Function.update_self, if_pos rfl, found]
          rfl
        · rw [Function.update_of_ne (Ne.symm here), if_neg here]
      · rw [(applyEvent_other step).1, (applyEvent_other step).2, if_neg step]

/-- The times are what the clock shows from here on, and none is later than the next. -/
theorem timedSteps_bounds (nondecreasing : Monotone clock) (profiler : Profiler)
    (events : List Event) (id : ℕ) :
    clock profiler.readings ≤ clock (events.foldl (applyEvent clock) profiler).readings ∧
      ((timedSteps clock profiler.registered id profiler.readings events).map Prod.snd).Pairwise
        (· ≤ ·) ∧
      ∀ timed ∈ timedSteps clock profiler.registered id profiler.readings events,
        clock profiler.readings ≤ timed.2 ∧
          timed.2 ≤ clock (events.foldl (applyEvent clock) profiler).readings := by
  induction events generalizing profiler with
  | nil => exact ⟨le_refl _, .nil, by simp [timedSteps]⟩
  | cons event events inductionHypothesis =>
      obtain ⟨later, ordered, bounds⟩ := inductionHypothesis (profiler.applyEvent clock event)
      rw [registered_applyEvent] at ordered bounds
      rw [List.foldl_cons, timedSteps]
      by_cases step : event.type = .workTimeStep ∧ profiler.registered event.id = true
      · obtain ⟨work, found⟩ := Option.isSome_iff_exists.mp step.2
        rw [(applyEvent_step step.1 found).2] at later ordered bounds
        have next : clock profiler.readings ≤ clock (profiler.readings + 1) :=
          nondecreasing (Nat.le_succ _)
        have boundsHere : ∀ timed ∈ timedSteps clock profiler.registered id
            (profiler.readings + 1) events, clock profiler.readings ≤ timed.2 ∧
              timed.2 ≤ clock (events.foldl (applyEvent clock)
                (profiler.applyEvent clock event)).readings :=
          fun timed member => (bounds timed member).imp_left next.trans
        rw [if_pos step]
        by_cases here : event.id = id
        · rw [if_pos here, List.map_cons, List.pairwise_cons, List.forall_mem_map,
            List.forall_mem_cons]
          exact ⟨next.trans later, ⟨fun timed member => (boundsHere timed member).1, ordered⟩,
            ⟨le_refl _, next.trans later⟩, boundsHere⟩
        · rw [if_neg here]
          exact ⟨next.trans later, ordered, boundsHere⟩
      · rw [(applyEvent_other step).2] at later ordered bounds
        rw [if_neg step]
        exact ⟨later, ordered, bounds⟩

theorem nextSteps_bounds (nondecreasing : Monotone clock) (profiler : Profiler) (id : ℕ) :
    clock profiler.readings ≤ clock (profiler.update clock).readings ∧
      ((profiler.nextSteps clock id).map Prod.snd).Pairwise (· ≤ ·) ∧
      ∀ timed ∈ profiler.nextSteps clock id, clock profiler.readings ≤ timed.2 ∧
        timed.2 ≤ clock (profiler.update clock).readings :=
  timedSteps_bounds nondecreasing
    { profiler with events := (stealEvents profiler.events.size profiler.events).1 } _ id

/-- A function that has not been registered has no steps. -/
theorem nextSteps_eq_nil (unknown : profiler.state.workGround id = none) :
    profiler.nextSteps clock id = [] := by
  have none (readings : ℕ) (events : List Event) :
      timedSteps clock profiler.registered id readings events = [] := by
    induction events generalizing readings with
    | nil => rfl
    | cons event events inductionHypothesis =>
        rw [timedSteps, inductionHypothesis, inductionHypothesis, ite_eq_right_iff]
        rintro ⟨-, known⟩
        rw [if_neg]
        rintro rfl
        rw [registered, unknown] at known
        cases known
  exact none _ _

theorem workGround_update (profiler : Profiler) (id : ℕ) :
    (profiler.update clock).state.workGround id =
      (profiler.state.workGround id).map fun work =>
        work.addSteps profiler.state.profilingInterval (profiler.nextSteps clock id) :=
  workGround_foldl _ _ _

theorem profilingInterval_update (profiler : Profiler) :
    (profiler.update clock).state.profilingInterval = profiler.state.profilingInterval := by
  rw [update, foldl_applyEvent (·.state.profilingInterval) profilingInterval_applyEvent]

end Profiler

/-! ## What holds between the calls -/

/-- Of the steps of the function that have been processed, those that are gone are old. -/
structure Settled (clock : ℕ → ℤ) (interval : ℤ) (id : ℕ) (history : History) : Prop where
  interval_eq : history.profiler.state.profilingInterval = interval
  unregistered : history.profiler.state.workGround id = none → history.processed id = []
  shown : ∀ work, history.profiler.state.workGround id = some work →
    history.processed id ≠ [] → work.updatedAt ≤ clock history.profiler.readings
  popped : ∀ work, history.profiler.state.workGround id = some work →
    ∃ popped, history.processed id = popped ++ work.workTime ∧
      ∀ step ∈ popped, interval ≤ work.updatedAt - step.beginTs

variable {clock : ℕ → ℤ} {memory : ℕ → ℤ → Event} {interval : ℤ} {id : ℕ} {history : History}

theorem settled_run_nil : Settled clock interval id (History.run clock memory interval []) where
  interval_eq := rfl
  unregistered _ := rfl
  shown _ found := by cases found
  popped _ found := by cases found

/-- The functions and the processed steps are the same, and the clock has gone on. -/
theorem Settled.later (settled : Settled clock interval id history) {profiler : Profiler}
    (interval_eq : profiler.state.profilingInterval = interval)
    (same : profiler.state.workGround id = history.profiler.state.workGround id)
    (later : clock history.profiler.readings ≤ clock profiler.readings) :
    Settled clock interval id { history with profiler := profiler } := by
  refine ⟨interval_eq, fun unknown => settled.unregistered (same ▸ unknown), ?_, ?_⟩
  · exact fun work found some => (settled.shown work (same ▸ found) some).trans later
  · exact fun work found => settled.popped work (same ▸ found)

theorem Settled.regAsyncFunction (nondecreasing : Monotone clock)
    (settled : Settled clock interval id history) (other : ℕ) (name : String) :
    Settled clock interval id (history.act clock memory (.regAsyncFunction other name)) := by
  have later : clock history.profiler.readings ≤ clock (history.profiler.readings + 1) :=
    nondecreasing (Nat.le_succ _)
  by_cases here : id = other
  · subst here
    cases found : history.profiler.state.workGround id with
    | some work =>
        refine settled.later settled.interval_eq ?_ later
        simp only [Profiler.regAsyncFunction, Function.update_self, found, Option.some_or]
    | none =>
        -- a new function has processed nothing
        have nothing := settled.unregistered found
        refine ⟨settled.interval_eq, fun _ => nothing,
          fun _ _ some => absurd nothing some, ?_⟩
        intro work registered
        simp only [History.act, Profiler.regAsyncFunction, Function.update_self, found,
          Option.none_or, Option.some.injEq] at registered
        subst registered
        exact ⟨[], nothing, by simp⟩
  · refine settled.later settled.interval_eq ?_ later
    simp only [Profiler.regAsyncFunction, Function.update_of_ne here]

theorem Settled.addEvent (nondecreasing : Monotone clock)
    (settled : Settled clock interval id history) (entry : Entry) :
    Settled clock interval id (history.act clock memory (.addEvent entry)) := by
  refine settled.later settled.interval_eq rfl (nondecreasing ?_)
  simp only [Profiler.addEvent]
  split
  · exact le_refl _
  · exact Nat.le_succ _

/--
What an update of a settled history pops of a function is old exactly if the update is
timely for the function.
-/
theorem Settled.update_popped (nondecreasing : Monotone clock)
    (settled : Settled clock interval id history) {work : Work}
    (found : history.profiler.state.workGround id = some work) :
    ∃ after popped,
      (history.act clock memory .update).profiler.state.workGround id = some after ∧
      (history.act clock memory .update).processed id = popped ++ after.workTime ∧
      after.updatedAt = work.horizon (history.profiler.nextSteps clock id) ∧
      ((∀ step ∈ popped, interval ≤ after.updatedAt - step.beginTs) ↔
        Timely interval work (history.profiler.nextSteps clock id)) := by
  obtain ⟨-, ordered, bounds⟩ := Profiler.nextSteps_bounds nondecreasing history.profiler id
  obtain ⟨before, split, old⟩ := settled.popped work found
  obtain ⟨popped, rest, oldRest⟩ := @addSteps_popped interval
    (work.horizon (history.profiler.nextSteps clock id)) work
    (history.profiler.nextSteps clock id) (fun timed member => le_horizon work ordered member)
  refine ⟨work.addSteps interval (history.profiler.nextSteps clock id), before ++ popped,
    ?_, ?_, updatedAt_addSteps _ _ _, ?_⟩
  · simp only [History.act, Profiler.workGround_update, found, Option.map_some,
      settled.interval_eq]
  · simp only [History.act, split, List.append_assoc, rest]
  · rw [updatedAt_addSteps, List.forall_mem_append, Timely, ← oldRest, and_iff_right_iff_imp]
    rintro - step member
    have age := old step member
    have shown := settled.shown work found (by
      rw [split]
      exact List.append_ne_nil_of_left_ne_nil (List.ne_nil_of_mem member) _)
    have goesOn : work.updatedAt ≤ work.horizon (history.profiler.nextSteps clock id) := by
      by_cases idle : history.profiler.nextSteps clock id = []
      · rw [idle]
        exact le_refl _
      · obtain ⟨timed, listed, last⟩ := exists_horizon work idle
        rw [last]
        exact shown.trans (bounds timed listed).1
    omega

/-- A timely update leaves the history settled. -/
theorem Settled.update (nondecreasing : Monotone clock)
    (settled : Settled clock interval id history)
    (timely : ∀ work, history.profiler.state.workGround id = some work →
      Timely interval work (history.profiler.nextSteps clock id)) :
    Settled clock interval id (history.act clock memory .update) := by
  have interval_eq : (history.profiler.update clock).state.profilingInterval = interval :=
    (Profiler.profilingInterval_update _).trans settled.interval_eq
  obtain ⟨later, -, bounds⟩ := Profiler.nextSteps_bounds nondecreasing history.profiler id
  cases found : history.profiler.state.workGround id with
  | none =>
      have processed : (history.act clock memory .update).processed id = [] := by
        simp only [History.act, settled.unregistered found, Profiler.nextSteps_eq_nil found,
          List.map_nil, List.append_nil]
      have unknown : (history.act clock memory .update).profiler.state.workGround id = none := by
        simp only [History.act, Profiler.workGround_update, found, Option.map_none]
      refine ⟨interval_eq, fun _ => processed, fun _ known => ?_, fun _ known => ?_⟩
      · rw [unknown] at known
        cases known
      · rw [unknown] at known
        cases known
  | some work =>
      obtain ⟨after, popped, updated, split, shown, old⟩ :=
        @Settled.update_popped clock memory _ _ _ nondecreasing settled work found
      refine ⟨interval_eq, fun unknown => ?_, fun other same some => ?_, fun other same => ?_⟩
      · rw [updated] at unknown
        cases unknown
      · rw [updated, Option.some.injEq] at same
        subst same
        rw [shown]
        by_cases idle : history.profiler.nextSteps clock id = []
        · simp only [History.act, idle, List.map_nil, List.append_nil] at some
          rw [idle]
          exact (settled.shown work found some).trans later
        · obtain ⟨timed, listed, last⟩ := exists_horizon work idle
          rw [last]
          exact (bounds timed listed).2
      · rw [updated, Option.some.injEq] at same
        subst same
        exact ⟨popped, split, old.mpr (timely work found)⟩

/-! ## Along a run -/

/-- An update that processes steps of the function now leaves its recent steps. -/
def History.UpdateKeeps (clock : ℕ → ℤ) (memory : ℕ → ℤ → Event) (interval : ℤ) (id : ℕ)
    (history : History) : Prop :=
  history.profiler.nextSteps clock id ≠ [] →
    ∀ work, (history.act clock memory .update).profiler.state.workGround id = some work →
      KeepsRecent interval work ((history.act clock memory .update).processed id)

/-- An update is timely for the function now. -/
def History.UpdateTimely (clock : ℕ → ℤ) (interval : ℤ) (id : ℕ) (history : History) : Prop :=
  ∀ work, history.profiler.state.workGround id = some work →
    Timely interval work (history.profiler.nextSteps clock id)

theorem History.run_concat (clock : ℕ → ℤ) (memory : ℕ → ℤ → Event) (interval : ℤ)
    (actions : List Action) (action : Action) :
    run clock memory interval (actions ++ [action]) =
      (run clock memory interval actions).act clock memory action := by
  rw [run, List.foldl_concat]
  rfl

/-- From a settled history, an update keeps the recent steps exactly if it is timely. -/
theorem Settled.updateKeeps_iff (nondecreasing : Monotone clock)
    (settled : Settled clock interval id history) :
    history.UpdateKeeps clock memory interval id ↔ history.UpdateTimely clock interval id := by
  constructor
  · intro keeps work found
    obtain ⟨after, popped, updated, split, -, old⟩ :=
      @Settled.update_popped clock memory _ _ _ nondecreasing settled work found
    by_cases idle : history.profiler.nextSteps clock id = []
    · rw [idle]
      trivial
    · exact old.mp ((keepsRecent_iff_popped split).mp (keeps idle after updated))
  · intro timely _ after updated
    cases found : history.profiler.state.workGround id with
    | none =>
        simp only [History.act, Profiler.workGround_update, found, Option.map_none,
          reduceCtorEq] at updated
    | some work =>
        obtain ⟨other, popped, same, split, -, old⟩ :=
          @Settled.update_popped clock memory _ _ _ nondecreasing settled work found
        rw [updated, Option.some.injEq] at same
        subst same
        exact (keepsRecent_iff_popped split).mpr (old.mpr (timely work found))

/--
With a clock that does not go back, all updates of a run keep the recent steps of a
function if and only if all of them are timely for it.
-/
theorem updates_keep_recent_iff (clock : ℕ → ℤ) (nondecreasing : Monotone clock)
    (memory : ℕ → ℤ → Event) (interval : ℤ) (id : ℕ) (actions : List Action) :
    EachStep (fun earlier action => action = .update →
        (History.run clock memory interval earlier).UpdateKeeps clock memory interval id)
      actions ↔
    EachStep (fun earlier action => action = .update →
        (History.run clock memory interval earlier).UpdateTimely clock interval id)
      actions := by
  refine @eachStep_iff_eachStep _ _ (fun earlier =>
    Settled clock interval id (History.run clock memory interval earlier)) _ settled_run_nil
    (fun earlier action settled => imp_congr_right fun _ =>
      settled.updateKeeps_iff nondecreasing) ?_ actions
  intro earlier action settled keeps
  rw [History.run_concat]
  cases action with
  | regAsyncFunction other name => exact settled.regAsyncFunction nondecreasing other name
  | addEvent entry => exact settled.addEvent nondecreasing entry
  | update =>
      have timely := (settled.updateKeeps_iff nondecreasing).mp (keeps rfl)
      exact settled.update nondecreasing timely

/-- A step that is processed within the interval of the registration. -/
theorem updates_keep_recent_iff_within :
    EachStep (fun earlier action => action = .update →
        (History.run (fun readings => readings + 1) (fun _ _ => ⟨0, .regAsyncFunction, 0, 0, 0⟩)
          10 earlier).UpdateKeeps (fun readings => readings + 1)
            (fun _ _ => ⟨0, .regAsyncFunction, 0, 0, 0⟩) 10 1)
      [.regAsyncFunction 1 "f", .addEvent ⟨1, .workTimeStep, 7, some (1, 2)⟩, .update] := by
  refine (updates_keep_recent_iff (fun readings => readings + 1)
    (fun _ _ before => Int.add_le_add_right (Int.ofNat_le.mpr before) 1) _ 10 1 _).mpr ?_
  refine (@eachStep_concat Action _ [.regAsyncFunction 1 "f",
    .addEvent ⟨1, .workTimeStep, 7, some (1, 2)⟩] _).mpr ⟨?_, fun _ work found => ?_⟩
  · refine (@eachStep_concat Action _ [.regAsyncFunction 1 "f"] _).mpr ⟨?_, nofun⟩
    exact (@eachStep_concat _ _ [] _).mpr ⟨eachStep_nil, nofun⟩
  · cases found
    exact ⟨fun overdue => absurd overdue.2.2 (by decide), trivial⟩

/-- The only step of a function, which began just now, is gone. -/
theorem update_drops_recent :
    Monotone (fun readings : ℕ => (400000000 * readings + 1 : ℤ)) ∧
      ∃ work,
        (History.run (fun readings => 400000000 * readings + 1)
          (fun _ _ => ⟨0, .regAsyncFunction, 0, 0, 0⟩) (5 * 60 * 1000000)
          [.regAsyncFunction 1 "f",
            .addEvent ⟨1, .workTimeStep, 7, some (399999999, 400000000)⟩,
            .update]).profiler.state.workGround 1 = some work ∧
        (History.run (fun readings => 400000000 * readings + 1)
          (fun _ _ => ⟨0, .regAsyncFunction, 0, 0, 0⟩) (5 * 60 * 1000000)
          [.regAsyncFunction 1 "f",
            .addEvent ⟨1, .workTimeStep, 7, some (399999999, 400000000)⟩,
            .update]).processed 1 = [⟨7, 399999999, 400000000⟩] ∧
        work.updatedAt - 399999999 < 5 * 60 * 1000000 ∧ work.workTime = [] := by
  refine ⟨?_, _, rfl, rfl, by decide, rfl⟩
  intro before after ordered
  have cast : (before : ℤ) ≤ after := Int.ofNat_le.mpr ordered
  dsimp only
  omega

end AsyncRuntime.Profiling
