import AsyncRuntime.Scheduler.Clocked

/-!
# Whether delayed tasks are released in the order of their deadlines

The deadline of a task is its `created_at`.  A comparison reads the clock for
each of its two tasks, and what the clock advances in between is credited to the
task that is asked later.  The heap is ordered by the deadlines as long as no
such advance makes up for the difference of the two deadlines.
-/

namespace AsyncRuntime.Scheduler.Clocked

open AsyncRuntime.Foundation
open AsyncRuntime.WorkGroup (Group Task)

/-- The clock never goes back. -/
def Readings.Nondecreasing (readings : Readings) : Prop :=
  ∀ tick, readings.clock tick ≤ readings.clock (tick + 1)

/-- Whenever the top of the heap was used, no task had a smaller deadline. -/
def State.InDeadlineOrder (state : State) : Prop :=
  ∀ use ∈ state.uses, ∀ other ∈ use.heap, ¬ other.createdAt < use.task.createdAt

/-- The comparisons that a step makes. -/
def State.comparisons (readings : Readings) (state : State) :
    Action → List (Comparison ℕ Task)
  | .post task => (readings.comparator.push state.heap task state.ticks).made
  | .pop => (readings.comparator.pop state.heap state.ticks).made
  | .examine => []
  | .call _ => []

/--
The advance of the clock between the two readings of a comparison is not greater
than the difference of the deadlines if the earlier task is on the left, and
smaller than it if the earlier task is on the right.
-/
def Readings.Separates (readings : Readings) (comparison : Comparison ℕ Task) : Prop :=
  (comparison.first.createdAt < comparison.second.createdAt →
      readings.right comparison.moment - readings.left comparison.moment ≤
        comparison.second.createdAt - comparison.first.createdAt) ∧
    (comparison.second.createdAt < comparison.first.createdAt →
      readings.left comparison.moment - readings.right comparison.moment <
        comparison.first.createdAt - comparison.second.createdAt)

/-- All comparisons of a step are separated. -/
def Undisturbed (readings : Readings) (state : State) (action : Action) : Prop :=
  ∀ comparison ∈ state.comparisons readings action, readings.Separates comparison

instance (readings : Readings) (comparison : Comparison ℕ Task) :
    Decidable (readings.Separates comparison) :=
  inferInstanceAs (Decidable (_ ∧ _))

instance (readings : Readings) (state : State) (action : Action) :
    Decidable (Undisturbed readings state action) :=
  inferInstanceAs (Decidable (∀ comparison ∈ state.comparisons readings action, _))

instance (state : State) : Decidable state.InDeadlineOrder :=
  inferInstanceAs (Decidable (∀ use ∈ state.uses, _))

/-! ## The heap -/

section

variable {readings : Readings} {state target : State}

/-- A comparison is separated exactly when its answer agrees with the deadlines. -/
theorem separates_iff_faithful (comparison : Comparison ℕ Task) :
    readings.Separates comparison ↔
      comparison.Faithful Task.createdAt readings.comparator := by
  have answer :
      readings.comparator.after comparison.moment comparison.first comparison.second =
          true ↔
        comparison.second.createdAt - readings.right comparison.moment <
          comparison.first.createdAt - readings.left comparison.moment := by
    simp [Readings.comparator, Readings.lessThanByDelay, WorkGroup.Task.getDelay]
  unfold Readings.Separates Comparison.Faithful
  split
  · rename_i later
    rw [answer] at later
    omega
  · rename_i fits
    rw [answer] at fits
    omega

/-- The heap is ordered, and so was every heap whose top has been used. -/
structure Ordered (state : State) : Prop where
  heap : HeapOrder Task.createdAt state.heap
  uses : state.InDeadlineOrder

theorem Ordered.use (ordered : Ordered state) {task : Task}
    (top : state.heap[0]? = some task) (passed : Bool) :
    ∀ use ∈ (⟨task, state.heap, passed⟩ : Use) :: state.uses,
      ∀ other ∈ use.heap, ¬ other.createdAt < use.task.createdAt := by
  intro use member
  rcases List.mem_cons.mp member with rfl | earlier
  · intro other inside
    exact not_lt.mpr (ordered.heap.root_least Task.createdAt top inside)
  · exact ordered.uses use earlier

theorem Ordered.step {action : Action} (ordered : Ordered state)
    (undisturbed : Undisturbed readings state action)
    (step : Step readings state action target) : Ordered target := by
  cases step with
  | posts free =>
      refine ⟨push_heapOrder ordered.heap ?_, ordered.uses⟩
      exact fun comparison made =>
        (separates_iff_faithful comparison).mp (undisturbed comparison made)
  | waits free empty => exact ordered
  | finds free top due => exact ⟨ordered.heap, ordered.use top true⟩
  | delays free top early => exact ⟨ordered.heap, ordered.use top false⟩
  | calls place called =>
      unfold State.call at called
      split at called
      · cases called
      · split at called <;> cases called <;> exact ⟨ordered.heap, ordered.uses⟩
  | pops place =>
      refine ⟨pop_heapOrder ordered.heap ?_, ordered.uses⟩
      exact fun comparison made =>
        (separates_iff_faithful comparison).mp (undisturbed comparison made)

theorem ordered_of_reachable
    (reachable : (system readings []).ReachableUnder (Undisturbed readings) state) :
    Ordered state := by
  refine reachable.invariant ?_ ?_
  · rintro start rfl
    refine ⟨?_, ?_⟩
    · intro index _ first above
      cases above
    · intro use member
      cases member
  · intro source action target _ undisturbed taken ordered
    exact ordered.step undisturbed (step_of_next taken)

/-! ## No task is lost -/

/-- The tasks of the heap and the released ones are the posted ones. -/
def Conserved (state : State) : Prop :=
  (state.released ++ state.heap).Perm state.posted

theorem Conserved.step {action : Action} (conserved : Conserved state)
    (step : Step readings state action target) : Conserved target := by
  cases step with
  | @posts task free =>
      have pushed : (readings.comparator.push state.heap task state.ticks).items.Perm
          (task :: state.heap) := push_perm
      have moved : (state.released ++ task :: state.heap).Perm
          (task :: (state.released ++ state.heap)) := List.perm_middle
      exact ((pushed.append_left state.released).trans moved).trans (conserved.cons task)
  | waits free empty => exact conserved
  | finds free top due => exact conserved
  | delays free top early => exact conserved
  | calls place called =>
      unfold State.call at called
      split at called
      · cases called
      · split at called <;> cases called <;> exact conserved
  | pops place =>
      have popped : (readings.comparator.pop state.heap state.ticks).items.Perm
          state.heap.tail := pop_perm
      have rest : (state.heap.take 1 ++ state.released ++ state.heap.tail).Perm
          (state.released ++ state.heap) := by
        rw [List.append_assoc, ← List.drop_one]
        refine (List.perm_append_comm_assoc _ _ _).trans ?_
        rw [List.take_append_drop]
      exact ((popped.append_left _).trans rest).trans conserved

/-- Whatever the clock reads, the heap holds the tasks that were not released. -/
theorem conserved_of_reachable {heap : List Task}
    (reachable : (system readings heap).Reachable state) : Conserved state := by
  refine reachable.invariant ?_ ?_
  · rintro start rfl
    exact .refl _
  · intro source action target _ _ taken conserved
    exact conserved.step (step_of_next taken)

end

/-! ## The order of the releases -/

/--
If the readings separate the deadlines in every comparison, the tasks are
released in the order of their deadlines; a comparison that they do not separate
is answered against the deadlines.
-/
theorem deadline_order_of_undisturbed (readings : Readings) :
    (∀ state, (system readings []).ReachableUnder (Undisturbed readings) state →
        state.InDeadlineOrder) ∧
      ∀ comparison, ¬ readings.Separates comparison →
        (readings.comparator.after comparison.moment comparison.first
            comparison.second = true ↔
          ¬ comparison.second.createdAt < comparison.first.createdAt) := by
  refine ⟨fun state reachable => (ordered_of_reachable reachable).uses, ?_⟩
  intro comparison disturbed
  rw [separates_iff_faithful, Comparison.Faithful] at disturbed
  split at disturbed
  · rename_i later
    exact ⟨fun _ => by omega, fun _ => later⟩
  · rename_i fits
    exact ⟨fun later => absurd later fits, fun _ => by omega⟩

/-! ## Two schedules -/

/-- A clock that advances by five from reading to reading. -/
def steadyClock (leftFirst : Bool) : Readings where
  clock tick := 5 * tick
  leftFirst _ := leftFirst

/-- A task with a deadline. -/
def taskDueAt (deadline : ℤ) : Task where
  state := {}
  createdAt := deadline

/-- A group with one slot of one worker. -/
def sampleGroup : Group where
  id := 0
  name := "main"
  slots := [{ id := 0, cpus := [0] }]
  cpusPeerSlot := fun _ => none
  entitiesPeerSlot := ∅

/-- The deadlines of the tasks given to the callback, the last one first. -/
def State.passedDeadlines (state : State) : List ℤ :=
  (state.uses.filter Use.passed).map fun use => use.task.createdAt

/-- Three tasks whose deadlines are far enough apart. -/
theorem deadline_order_three :
    ∃ state : State,
      (system (steadyClock true) []).ReachableUnder (Undisturbed (steadyClock true)) state ∧
        state.passedDeadlines = [30, 20, 10] ∧ state.InDeadlineOrder := by
  have start : (system (steadyClock true) []).initial (.start []) := rfl
  obtain ⟨state, reachable, ends⟩ :=
    TransitionSystem.exists_reachableUnder_of_run (system (steadyClock true) [])
      (Undisturbed (steadyClock true)) start
      [.post (taskDueAt 30), .post (taskDueAt 10), .post (taskDueAt 20), .examine,
        .call sampleGroup, .pop, .examine, .call sampleGroup, .pop, .examine]
      (fun state => decide (state.passedDeadlines = [30, 20, 10])) (by decide)
  exact ⟨state, reachable, of_decide_eq_true ends,
    (deadline_order_of_undisturbed (steadyClock true)).1 state reachable⟩

/--
Two tasks whose deadlines are closer than two readings are released in the wrong
order, whichever task a comparison asks first.
-/
theorem close_deadlines_swapped :
    ¬ ∃ leftFirst : Bool,
      ∀ (readings : Readings) (state : State), readings.Nondecreasing →
        (∀ tick, readings.leftFirst tick = leftFirst) →
          (system readings []).Reachable state → state.InDeadlineOrder := by
  rintro ⟨leftFirst, claim⟩
  have nondecreasing : (steadyClock leftFirst).Nondecreasing := by
    intro tick
    simp only [steadyClock]
    omega
  have start : (system (steadyClock leftFirst) []).initial (.start []) := rfl
  have broken : ∃ state, (system (steadyClock leftFirst) []).Reachable state ∧
      decide (¬ state.InDeadlineOrder) = true := by
    cases leftFirst with
    | true =>
        exact TransitionSystem.exists_reachableUnder_of_run _ (fun _ _ => True) start
          [.post (taskDueAt 100), .post (taskDueAt 101), .examine] _ (by decide)
    | false =>
        exact TransitionSystem.exists_reachableUnder_of_run _ (fun _ _ => True) start
          [.post (taskDueAt 101), .post (taskDueAt 100), .examine] _ (by decide)
  obtain ⟨state, reachable, disorder⟩ := broken
  exact of_decide_eq_true disorder
    (claim (steadyClock leftFirst) state nondecreasing (fun _ => rfl) reachable)

end AsyncRuntime.Scheduler.Clocked
