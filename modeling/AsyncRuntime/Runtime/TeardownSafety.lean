import AsyncRuntime.Runtime.Teardown

/-!
# What may be posted while the runtime is torn down

Nothing is posted to a destroyed slot or group as long as, from the start of the
teardown on, tasks post to slots and groups that are destroyed no earlier than the
slot they run on, and no delayed task falls due in a group whose slots are being
destroyed.

A worker keeps its own slot alive, because the destructor of the slot joins it,
and with it everything that is destroyed later.  Nothing keeps the slots of a
group alive for its scheduler, which is destroyed after them.
-/

namespace AsyncRuntime.Runtime.Teardown

open AsyncRuntime.Foundation

universe u

/-! ## The order of the teardown -/

section Order

/--
Instructions of one group keep their order when the groups are destroyed one
after another.
-/
theorem idxOf_flatMap_le {block : Group → List Instruction}
    (own : ∀ group, ∀ instruction ∈ block group, instruction.group = group)
    {order : List Group} {group : Group} (member : group ∈ order)
    {first second : Instruction} (firstMember : first ∈ block group)
    (secondMember : second ∈ block group)
    (le : (block group).idxOf first ≤ (block group).idxOf second) :
    (order.flatMap block).idxOf first ≤ (order.flatMap block).idxOf second := by
  induction order with
  | nil => cases member
  | cons head rest inductionHypothesis =>
      rw [List.flatMap_cons]
      by_cases same : head = group
      · subst same
        rwa [List.idxOf_append_of_mem firstMember,
          List.idxOf_append_of_mem secondMember]
      · have foreign :
            ∀ instruction ∈ block group, instruction ∉ block head := by
          intro instruction inGroup inHead
          exact same ((own head _ inHead).symm.trans (own group _ inGroup))
        rw [List.idxOf_append_of_notMem (foreign first firstMember),
          List.idxOf_append_of_notMem (foreign second secondMember)]
        have inRest : group ∈ rest := by
          rcases List.mem_cons.mp member with here | later
          · exact absurd here.symm same
          · exact later
        exact Nat.add_le_add_left (inductionHypothesis inRest) _

namespace Layout

variable {layout : Layout} {slot : Slot}

/-- The groups in the order in which they are destroyed. -/
def order (layout : Layout) : List Group :=
  (List.range layout.executors.length).flatMap fun executor =>
    (List.range (layout.groups executor)).map fun index => ⟨executor, index⟩

theorem terminate_eq (layout : Layout) :
    layout.terminate = layout.order.flatMap layout.destroyGroup := by
  unfold terminate order
  rw [List.flatMap_assoc]
  congr 1
  funext executor
  rw [List.flatMap_map]
  rfl

theorem group_of_mem_destroyGroup (group : Group) :
    ∀ instruction ∈ layout.destroyGroup group, instruction.group = group := by
  intro instruction member
  simp only [destroyGroup, List.mem_append, List.mem_map, List.mem_cons,
    List.not_mem_nil, or_false] at member
  rcases member with ⟨index, -, rfl⟩ | rfl | rfl
  · rfl
  · rfl
  · rfl

theorem mem_order_of_slots {group : Group} (slots : 0 < layout.slots group) :
    group ∈ layout.order := by
  have index_lt : group.index < layout.groups group.executor := by
    apply Nat.lt_of_not_le
    intro beyond
    rw [Layout.slots, List.getD_eq_getElem?_getD,
      List.getElem?_eq_none beyond] at slots
    exact Nat.lt_irrefl 0 slots
  have executor_lt : group.executor < layout.executors.length := by
    apply Nat.lt_of_not_le
    intro beyond
    rw [groups, List.getD_eq_getElem?_getD, List.getElem?_eq_none beyond] at index_lt
    exact Nat.not_lt_zero _ index_lt
  refine List.mem_flatMap.mpr ⟨group.executor, List.mem_range.mpr executor_lt, ?_⟩
  exact List.mem_map.mpr ⟨group.index, List.mem_range.mpr index_lt, rfl⟩

theorem destroySlot_mem (exists_slot : layout.contains slot = true) :
    .destroySlot slot ∈ layout.destroyGroup slot.group := by
  have index_lt : slot.index < layout.slots slot.group := by
    simpa [contains] using exists_slot
  refine List.mem_append_left _ (List.mem_map.mpr ?_)
  exact ⟨slot.index, List.mem_range.mpr index_lt, rfl⟩

theorem completeGroup_mem (group : Group) :
    .completeGroup group ∈ layout.destroyGroup group := by
  simp [destroyGroup]

/-- A slot is destroyed before the destructor of its group completes. -/
theorem position_destroySlot_le_completeGroup
    (exists_slot : layout.contains slot = true) :
    State.position layout (.destroySlot slot) ≤
      State.position layout (.completeGroup slot.group) := by
  have index_lt : slot.index < layout.slots slot.group := by
    simpa [contains] using exists_slot
  unfold State.position
  rw [terminate_eq]
  refine
    idxOf_flatMap_le group_of_mem_destroyGroup
      (mem_order_of_slots (Nat.zero_lt_of_lt index_lt))
      (destroySlot_mem exists_slot) (completeGroup_mem slot.group) ?_
  have inSlots :
      Instruction.destroySlot slot ∈
        (List.range (layout.slots slot.group)).map fun index =>
          .destroySlot ⟨slot.group, index⟩ :=
    List.mem_map.mpr ⟨slot.index, List.mem_range.mpr index_lt, rfl⟩
  have notInSlots :
      Instruction.completeGroup slot.group ∉
        (List.range (layout.slots slot.group)).map fun index =>
          .destroySlot ⟨slot.group, index⟩ := by
    simp
  rw [destroyGroup, List.idxOf_append_of_mem inSlots,
    List.idxOf_append_of_notMem notInSlots]
  exact
    Nat.le_trans (Nat.le_of_lt (List.idxOf_lt_length_iff.mpr inSlots))
      (Nat.le_add_right _ _)

/-- The first slot of a group is destroyed before the others. -/
theorem position_first_le (exists_slot : layout.contains slot = true) :
    State.position layout (.destroySlot ⟨slot.group, 0⟩) ≤
      State.position layout (.destroySlot slot) := by
  have index_lt : slot.index < layout.slots slot.group := by
    simpa [contains] using exists_slot
  have positive := Nat.zero_lt_of_lt index_lt
  have first_exists : layout.contains ⟨slot.group, 0⟩ = true := by
    simpa [contains] using positive
  unfold State.position
  rw [terminate_eq]
  refine
    idxOf_flatMap_le group_of_mem_destroyGroup (mem_order_of_slots positive)
      (destroySlot_mem first_exists) (destroySlot_mem exists_slot) ?_
  obtain ⟨count, count_eq⟩ := Nat.exists_eq_add_of_lt positive
  have head_eq :
      (layout.destroyGroup slot.group).idxOf (.destroySlot ⟨slot.group, 0⟩) = 0 := by
    rw [destroyGroup, count_eq, Nat.zero_add, List.range_succ_eq_map]
    simp
  rw [head_eq]
  exact Nat.zero_le _

end Layout

end Order

/-! ## The condition -/

variable {Worker : Type u} (layout : Layout) (crew : Crew Worker)

/-- What the worker's task is posting to. -/
def WorkerPc.aim : WorkerPc → Option Target
  | .calling target => some target
  | .inside target => some target
  | _ => none

/-- The scheduler is in the callback. -/
def SchedulerPc.hands : SchedulerPc → Bool
  | .handing _ => true
  | _ => false

/-- The target is destroyed no earlier than the slot of the worker. -/
def Outlives (worker : Worker) (target : Target) : Prop :=
  State.position layout (.destroySlot (crew.home worker)) ≤
    State.position layout target.last

/-- The slots of the group are being destroyed, or have been. -/
def TearsDown (state : State Worker) (group : Group) : Prop :=
  state.reached layout (.destroySlot ⟨group, 0⟩) = true

/--
From the start of the teardown on, tasks post to what outlives their own slot, and
no delayed task is handed over in a group that is torn down.
-/
def Orderly (state : State Worker) : Action Worker → Prop
  | .terminate =>
      ∀ worker, ∀ target ∈ (state.workers worker).aim,
        Outlives layout crew worker target
  | .post worker target =>
      state.begun = true → Outlives layout crew worker target
  | .enter =>
      ∀ instruction ∈ layout.terminate[state.completed]?,
        instruction = .destroySlot ⟨instruction.group, 0⟩ →
        (state.schedulers instruction.group).hands = false
  | .due slot => ¬ TearsDown layout state slot.group
  | _ => True

namespace State

/-! ## The invariant -/

/-- The invariant of the runs that are orderly. -/
structure Sound (state : State Worker) : Prop where
  unbegun : state.begun = false → state.completed = 0 ∧ state.entered = false
  alive :
    ∀ worker,
      state.workers worker ≠ .exited →
      state.completed ≤ position layout (.destroySlot (crew.home worker))
  offered :
    ∀ worker, ∀ target ∈ (state.workers worker).aim, layout.offers target = true
  outlives :
    state.begun = true → ∀ worker, ∀ target ∈ (state.workers worker).aim,
      Outlives layout crew worker target
  handing :
    ∀ group slot,
      state.schedulers group = .handing slot →
      slot.group = group ∧ layout.contains slot = true ∧
        ¬ TearsDown layout state group
  placed : state.misplaced = false

theorem sound_create (delayed : Group → ℕ) :
    (create delayed : State Worker).Sound layout crew where
  unbegun := fun _ => ⟨rfl, rfl⟩
  alive := fun _ _ => Nat.zero_le _
  offered := by simp [create, WorkerPc.aim]
  outlives := by simp [create]
  handing := by simp [create]
  placed := rfl

variable {layout crew} {source target : State Worker}

/-- The destructor that is under way is that of its place only. -/
theorem position_ne_completed {instruction other : Instruction}
    (here : layout.terminate[source.completed]? = some instruction)
    (differs : other ≠ instruction) : position layout other ≠ source.completed := by
  intro place
  unfold position at place
  obtain ⟨bound, found⟩ := List.getElem?_eq_some_iff.mp here
  have index_lt : layout.terminate.idxOf other < layout.terminate.length := by
    rwa [place]
  apply differs
  calc
    other = layout.terminate[layout.terminate.idxOf other] :=
      (List.getElem_idxOf index_lt).symm
    _ = layout.terminate[source.completed] := by
      congr 1
    _ = instruction := found

/-- What a task posts to is still there. -/
theorem Sound.target_alive (sound : source.Sound layout crew) {worker : Worker}
    {aim : Target} (posts : aim ∈ (source.workers worker).aim) :
    source.completed ≤ position layout aim.last := by
  cases begun : source.begun with
  | false =>
      rw [(sound.unbegun begun).1]
      exact Nat.zero_le _
  | true =>
      have running : source.workers worker ≠ .exited := by
        intro exited
        simp [WorkerPc.aim, exited] at posts
      exact
        Nat.le_trans (sound.alive worker running)
          (sound.outlives begun worker aim posts)

/-- So is its group. -/
theorem Sound.group_alive (sound : source.Sound layout crew) {worker : Worker}
    {aim : Target} (posts : aim ∈ (source.workers worker).aim) :
    source.destroyed layout (.completeGroup aim.group) = false := by
  have alive := sound.target_alive posts
  have offered := sound.offered worker aim posts
  rw [destroyed, decide_eq_false_iff_not, Nat.not_lt]
  cases aim with
  | slot place =>
      exact
        Nat.le_trans alive (Layout.position_destroySlot_le_completeGroup offered)
  | scheduler group => exact alive

/-- The slots of a group that is not torn down are there. -/
theorem slot_alive {slot : Slot} (exists_slot : layout.contains slot = true)
    (quiet : ¬ TearsDown layout source slot.group) :
    source.completed ≤ position layout (.destroySlot slot) := by
  have first_alive :
      source.completed ≤ position layout (.destroySlot ⟨slot.group, 0⟩) := by
    apply Nat.le_of_not_lt
    intro gone
    exact quiet (by simp [TearsDown, reached, destroyed, gone])
  exact Nat.le_trans first_alive (Layout.position_first_le exists_slot)

/-! ## The steps -/

/-- Entering a group that is there. -/
theorem Sound.enterGroup (sound : source.Sound layout crew) {group : Group}
    (present : source.destroyed layout (.completeGroup group) = false) :
    (source.enterGroup layout group).Sound layout crew :=
  ⟨sound.unbegun, sound.alive, sound.offered, sound.outlives, sound.handing,
    by simp [State.enterGroup, sound.placed, present]⟩

/-- Entering a slot that is there. -/
theorem Sound.enterSlot (sound : source.Sound layout crew) {slot : Slot}
    (alive : source.completed ≤ position layout (.destroySlot slot)) :
    (source.enterSlot layout slot).Sound layout crew :=
  ⟨sound.unbegun, sound.alive, sound.offered, sound.outlives, sound.handing,
    by simp [State.enterSlot, sound.placed, destroyed, alive]⟩

/-- Delayed tasks do not matter before they fall due. -/
theorem Sound.setDelayed (sound : source.Sound layout crew) (delayed : Group → ℕ) :
    { source with delayed := delayed }.Sound layout crew :=
  ⟨sound.unbegun, sound.alive, sound.offered, sound.outlives, sound.handing,
    sound.placed⟩

/-- A scheduler may enter the callback while its group is not torn down. -/
theorem Sound.setScheduler (sound : source.Sound layout crew) {group : Group}
    {pc : SchedulerPc}
    (handing :
      ∀ slot, pc = .handing slot →
        slot.group = group ∧ layout.contains slot = true ∧
          ¬ TearsDown layout source group) :
    (source.setScheduler group pc).Sound layout crew := by
  refine
    ⟨sound.unbegun, sound.alive, sound.offered, sound.outlives, ?_, sound.placed⟩
  intro other slot found
  by_cases same : other = group
  · subst same
    simp only [State.setScheduler, Function.update_self] at found
    exact handing slot found
  · simp only [State.setScheduler, Function.update_of_ne same] at found
    exact sound.handing other slot found

theorem Sound.terminateStep (sound : source.Sound layout crew)
    (orderly : Orderly layout crew source .terminate)
    (taken : source.terminateStep = some target) : target.Sound layout crew := by
  simp only [State.terminateStep, Option.ite_none_left_eq_some,
    Option.some.injEq] at taken
  obtain ⟨-, rfl⟩ := taken
  exact
    ⟨by simp, sound.alive, sound.offered, fun _ => orderly, sound.handing,
      sound.placed⟩

/-- No delayed task is being handed over where a destructor begins. -/
theorem Sound.enterStep (sound : source.Sound layout crew)
    (orderly : Orderly layout crew source .enter)
    (taken : source.enterStep layout = some target) : target.Sound layout crew := by
  simp only [State.enterStep, Option.ite_none_right_eq_some,
    Option.some.injEq] at taken
  obtain ⟨⟨begun, -, -⟩, rfl⟩ := taken
  refine ⟨by simp [begun], sound.alive, sound.offered, sound.outlives, ?_, sound.placed⟩
  intro group slot handing
  obtain ⟨group_eq, exists_slot, quiet⟩ := sound.handing group slot handing
  refine ⟨group_eq, exists_slot, ?_⟩
  intro tearsDown
  simp only [TearsDown, reached, Bool.or_eq_true, Bool.and_eq_true,
    decide_eq_true_eq, true_and] at tearsDown quiet
  rcases tearsDown with gone | here
  · exact quiet (.inl gone)
  · have hands := orderly _ here rfl
    have handing_here : source.schedulers group = .handing slot := handing
    rw [Instruction.group, handing_here] at hands
    cases hands

/-- The destructor of a slot has joined its workers. -/
theorem Sound.completeStep (sound : source.Sound layout crew)
    (taken : source.completeStep layout crew = some target) :
    target.Sound layout crew := by
  unfold State.completeStep at taken
  split at taken
  · rename_i instruction here
    simp only [Option.ite_none_right_eq_some, Bool.and_eq_true,
      Option.some.injEq] at taken
    obtain ⟨⟨entered, joined⟩, rfl⟩ := taken
    refine
      ⟨?unbegun, ?alive, sound.offered, sound.outlives, ?handing, sound.placed⟩
    case unbegun =>
      intro unbegun
      have unentered := (sound.unbegun unbegun).2
      rw [entered] at unentered
      cases unentered
    case alive =>
      intro worker running
      have differs : .destroySlot (crew.home worker) ≠ instruction := by
        rintro rfl
        have exited := List.all_eq_true.mp joined worker (crew.mem_threads worker)
        exact running (by simpa using exited)
      have place_ne := position_ne_completed here differs
      exact
        Nat.lt_of_le_of_ne (sound.alive worker running) (Ne.symm place_ne)
    case handing =>
      intro group slot handing
      obtain ⟨group_eq, exists_slot, quiet⟩ := sound.handing group slot handing
      refine ⟨group_eq, exists_slot, ?_⟩
      simp only [TearsDown, reached, entered, here, Bool.true_and,
        Bool.or_eq_true, decide_eq_true_eq, not_or, Option.some.injEq,
        destroyed] at quiet
      have place_ne := position_ne_completed here (Ne.symm quiet.2)
      simp only [TearsDown, reached, destroyed, Bool.false_and, Bool.or_false,
        decide_eq_true_eq]
      omega
  · cases taken

/-- A delayed task falls due in a group that is not torn down. -/
theorem Sound.due (sound : source.Sound layout crew) {slot : Slot}
    (orderly : Orderly layout crew source (.due slot))
    (taken : source.due layout slot = some target) : target.Sound layout crew := by
  simp only [State.due, Option.ite_none_right_eq_some, Option.some.injEq] at taken
  obtain ⟨⟨-, -, exists_slot⟩, rfl⟩ := taken
  have present :
      source.destroyed layout (.completeGroup slot.group) = false := by
    rw [destroyed, decide_eq_false_iff_not, Nat.not_lt]
    exact
      Nat.le_trans (slot_alive exists_slot orderly)
        (Layout.position_destroySlot_le_completeGroup exists_slot)
  refine (sound.enterGroup present).setScheduler ?_
  rintro other ⟨⟩
  exact ⟨rfl, exists_slot, orderly⟩

theorem Sound.hand (sound : source.Sound layout crew) {group : Group}
    (taken : source.hand layout group = some target) :
    target.Sound layout crew := by
  unfold State.hand at taken
  split at taken
  · rename_i slot handing
    cases taken
    obtain ⟨rfl, exists_slot, quiet⟩ := sound.handing group slot handing
    have entered := sound.enterSlot (slot_alive exists_slot quiet)
    exact (entered.setScheduler (by simp)).setDelayed _
  · cases taken

theorem Sound.stop (sound : source.Sound layout crew) {group : Group}
    (taken : source.stop layout group = some target) :
    target.Sound layout crew := by
  simp only [State.stop, Option.ite_none_right_eq_some, Option.some.injEq] at taken
  obtain ⟨-, rfl⟩ := taken
  exact sound.setScheduler (by simp)

section Workers

variable [DecidableEq Worker] {worker : Worker}

/-- A worker that is not in a post afterwards moves freely. -/
theorem Sound.setWorker (sound : source.Sound layout crew) {pc : WorkerPc}
    (running : source.workers worker ≠ .exited)
    (offered : ∀ aim ∈ pc.aim, layout.offers aim = true)
    (outlives :
      source.begun = true → ∀ aim ∈ pc.aim, Outlives layout crew worker aim) :
    (source.setWorker worker pc).Sound layout crew := by
  refine
    ⟨sound.unbegun, ?alive, ?offered, ?outlives, sound.handing, sound.placed⟩
  case alive =>
    intro other otherRunning
    by_cases same : other = worker
    · subst same
      exact sound.alive other running
    · simp only [State.setWorker, Function.update_of_ne same] at otherRunning
      exact sound.alive other otherRunning
  case offered =>
    intro other aim posts
    by_cases same : other = worker
    · subst same
      simp only [State.setWorker, Function.update_self] at posts
      exact offered aim posts
    · simp only [State.setWorker, Function.update_of_ne same] at posts
      exact sound.offered other aim posts
  case outlives =>
    intro begun other aim posts
    by_cases same : other = worker
    · subst same
      simp only [State.setWorker, Function.update_self] at posts
      exact outlives begun aim posts
    · simp only [State.setWorker, Function.update_of_ne same] at posts
      exact sound.outlives begun other aim posts

/-- A worker that leaves a post behind. -/
theorem Sound.setWorker_quiet (sound : source.Sound layout crew) {pc : WorkerPc}
    (running : source.workers worker ≠ .exited) (quiet : pc.aim = none) :
    (source.setWorker worker pc).Sound layout crew :=
  sound.setWorker running (by simp [quiet]) (by simp [quiet])

theorem Sound.post (sound : source.Sound layout crew) {aim : Target}
    (orderly : Orderly layout crew source (.post worker aim))
    (taken : source.post layout crew worker aim = some target) :
    target.Sound layout crew := by
  simp only [State.post, Option.ite_none_right_eq_some, Option.some.injEq] at taken
  obtain ⟨⟨running, offered, -⟩, rfl⟩ := taken
  refine sound.setWorker (by simp [running]) ?_ ?_
  · rintro other ⟨⟩
    exact offered
  · rintro begun other ⟨⟩
    exact orderly begun

/-- A task enters its group, and then the slot or the scheduler. -/
theorem Sound.work (sound : source.Sound layout crew)
    (taken : source.work layout worker = some target) :
    target.Sound layout crew := by
  unfold State.work at taken
  split at taken
  · rename_i aim calling
    cases taken
    have posts : aim ∈ (source.workers worker).aim := by
      rw [calling]
      rfl
    refine
      (sound.enterGroup (sound.group_alive posts)).setWorker
        (by simp [State.enterGroup, calling]) ?_ ?_
    · rintro other ⟨⟩
      exact sound.offered worker aim posts
    · rintro begun other ⟨⟩
      exact sound.outlives begun worker aim posts
  · rename_i slot inside
    cases taken
    have posts : .slot slot ∈ (source.workers worker).aim := by
      rw [inside]
      rfl
    exact
      (sound.enterSlot (sound.target_alive posts)).setWorker_quiet
        (by simp [State.enterSlot, inside]) rfl
  · rename_i group inside
    cases taken
    exact (sound.setWorker_quiet (by simp [inside]) rfl).setDelayed _
  · cases taken

theorem Sound.leave (sound : source.Sound layout crew)
    (taken : source.leave layout crew worker = some target) :
    target.Sound layout crew := by
  simp only [State.leave, Option.ite_none_right_eq_some, Option.some.injEq] at taken
  obtain ⟨⟨idle, -⟩, rfl⟩ := taken
  exact sound.setWorker_quiet (by simp [idle]) rfl

theorem Sound.next (sound : source.Sound layout crew) {action : Action Worker}
    (orderly : Orderly layout crew source action)
    (taken : source.next layout crew action = some target) :
    target.Sound layout crew := by
  cases action with
  | terminate => exact sound.terminateStep orderly taken
  | enter => exact sound.enterStep orderly taken
  | complete => exact sound.completeStep taken
  | start worker =>
      simp only [State.next, State.start, Option.ite_none_right_eq_some,
        Option.some.injEq] at taken
      obtain ⟨idle, rfl⟩ := taken
      exact sound.setWorker_quiet (by simp [idle]) rfl
  | post worker aim => exact sound.post orderly taken
  | work worker => exact sound.work taken
  | finish worker =>
      simp only [State.next, State.finish, Option.ite_none_right_eq_some,
        Option.some.injEq] at taken
      obtain ⟨running, rfl⟩ := taken
      exact sound.setWorker_quiet (by simp [running]) rfl
  | leave worker => exact sound.leave taken
  | due slot => exact sound.due orderly taken
  | hand group => exact sound.hand taken
  | stop group => exact sound.stop taken

/--
In a run whose steps are all orderly, no post is entered on a destroyed slot or
group.
-/
theorem teardown_safe {state : State Worker}
    (reachable :
      (system layout crew).ReachableUnder (Orderly layout crew) state) :
    state.misplaced = false := by
  have sound : state.Sound layout crew := by
    apply reachable.invariant
    · rintro state ⟨delayed, rfl⟩
      exact sound_create layout crew delayed
    · intro source action target _ orderly taken sound
      exact sound.next orderly taken
  exact sound.placed

end Workers

end State

/-! ## Runs on small runtimes -/

/-- One executor with two groups of one slot, and one worker in each. -/
def pairLayout : Layout :=
  ⟨[[1, 1]]⟩

/-- The worker `false` is in the first group, the worker `true` in the second. -/
def pairCrew : Crew Bool where
  home := fun worker => ⟨⟨0, if worker then 1 else 0⟩, 0⟩
  threads := fun slot => [decide (slot.group.index = 1)]
  mem_threads := by decide

instance (layout : Layout) (crew : Crew Bool) (state : State Bool)
    (action : Action Bool) : Decidable (Orderly layout crew state action) :=
  match action with
  | .terminate =>
      inferInstanceAs
        (Decidable
          (∀ worker, ∀ target ∈ (state.workers worker).aim,
            State.position layout (.destroySlot (crew.home worker)) ≤
              State.position layout target.last))
  | .post worker target =>
      inferInstanceAs
        (Decidable
          (state.begun = true →
            State.position layout (.destroySlot (crew.home worker)) ≤
              State.position layout target.last))
  | .enter =>
      inferInstanceAs
        (Decidable
          (∀ instruction ∈ layout.terminate[state.completed]?,
            instruction = .destroySlot ⟨instruction.group, 0⟩ →
            (state.schedulers instruction.group).hands = false))
  | .due slot =>
      inferInstanceAs
        (Decidable ¬ state.reached layout (.destroySlot ⟨slot.group, 0⟩) = true)
  | .complete => isTrue trivial
  | .start _ => isTrue trivial
  | .work _ => isTrue trivial
  | .finish _ => isTrue trivial
  | .leave _ => isTrue trivial
  | .hand _ => isTrue trivial
  | .stop _ => isTrue trivial

/--
A delayed task is handed over before the teardown, and during it a task of the
first group posts to the second one.
-/
theorem teardown_safe_pair :
    ∃ state,
      (system pairLayout pairCrew).ReachableUnder (Orderly pairLayout pairCrew)
        state ∧
      state.destroyed pairLayout (.completeGroup ⟨0, 0⟩) = true ∧
      state.misplaced = false := by
  obtain ⟨state, reachable, found⟩ :=
    TransitionSystem.exists_reachableUnder_of_run (system pairLayout pairCrew)
      (Orderly pairLayout pairCrew) ⟨fun _ => 1, rfl⟩
      [.due ⟨⟨0, 0⟩, 0⟩, .hand ⟨0, 0⟩, .start false, .terminate, .enter,
        .post false (.slot ⟨⟨0, 1⟩, 0⟩), .work false, .work false, .finish false,
        .leave false, .complete, .enter, .stop ⟨0, 0⟩, .complete, .enter, .complete]
      (fun state => state.destroyed pairLayout (.completeGroup ⟨0, 0⟩))
      (by decide +kernel)
  exact ⟨state, reachable, found, State.teardown_safe reachable⟩

/--
The slot of the first group has been destroyed when a delayed task of that group
falls due, and the group itself when a task of the second group posts to it.
-/
theorem posted_to_destroyed :
    (∃ state, (system pairLayout pairCrew).Reachable state ∧
      state.misplaced = true ∧
      state.destroyed pairLayout (.completeGroup ⟨0, 0⟩) = false) ∧
    ∃ state, (system pairLayout pairCrew).Reachable state ∧
      state.misplaced = true ∧ state.schedulers ⟨0, 0⟩ = .exited ∧
      state.workers true = .inside (.slot ⟨⟨0, 0⟩, 0⟩) := by
  constructor
  · obtain ⟨state, reachable, found⟩ :=
      TransitionSystem.exists_reachableUnder_of_run (system pairLayout pairCrew)
        (fun _ _ => True) ⟨fun _ => 1, rfl⟩
        [.terminate, .enter, .leave false, .complete, .due ⟨⟨0, 0⟩, 0⟩, .hand ⟨0, 0⟩]
        (fun state =>
          state.misplaced &&
            !state.destroyed pairLayout (.completeGroup ⟨0, 0⟩))
        (by decide +kernel)
    simp only [Bool.and_eq_true, Bool.not_eq_true'] at found
    exact ⟨state, reachable, found⟩
  · obtain ⟨state, reachable, found⟩ :=
      TransitionSystem.exists_reachableUnder_of_run (system pairLayout pairCrew)
        (fun _ _ => True) ⟨fun _ => 0, rfl⟩
        [.start true, .terminate, .enter, .leave false, .complete, .enter,
          .stop ⟨0, 0⟩, .complete, .enter, .complete,
          .post true (.slot ⟨⟨0, 0⟩, 0⟩), .work true]
        (fun state =>
          state.misplaced &&
            (decide (state.schedulers ⟨0, 0⟩ = .exited) &&
              decide (state.workers true = .inside (.slot ⟨⟨0, 0⟩, 0⟩))))
        (by decide +kernel)
    simp only [Bool.and_eq_true, decide_eq_true_eq] at found
    exact ⟨state, reachable, found⟩

end AsyncRuntime.Runtime.Teardown
