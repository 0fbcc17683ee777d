import AsyncRuntime.WorkGroup.Affinity
import Mathlib.Data.List.Forall2

/-!
# Workers of one slot on one CPU

The number of slots is a quotient that is raised to one when it is zero, but each
slot takes `slot_concurrency` CPUs all the same.  The greedy choice deals the CPUs in
turn, so that a slot has a CPU twice when it takes more CPUs than there are, and a
group has more workers than its share of CPUs when one slot takes more than that.
-/

namespace AsyncRuntime.WorkGroup

open AsyncRuntime.Foundation

/-- How many workers the slots have together. -/
def workersCount (slots : List Slot) : ℕ :=
  (slots.map fun slot => slot.cpus.length).sum

/--
No two workers of a slot have the same CPU, the workers are no more than the share of
CPUs, and the search of `ExecutorSlot::post` finds every worker by its CPU.
-/
structure Group.SeparatesWorkers (group : Group) (limit : ℕ) : Prop where
  distinct : ∀ slot ∈ group.slots, slot.cpus.Nodup
  within : workersCount group.slots ≤ limit
  found : ∀ slot ∈ group.slots, ∀ worker cpu, slot.cpus[worker]? = some cpu →
    ExecutorSlot.postQueue (slot.cpus.map BitVec.toNat) (some cpu.toNat) = .own worker

/-! ## The CPUs of a slot -/

section

variable {cpus : List CpuId} {assignment : Assignment} {turn : ℕ}

/-- The inner loop deals the CPUs in turn. -/
theorem assignCpus_balanced (balanced : Balanced assignment.cpusWg cpus.length turn)
    (slot rounds : ℕ) (chosen : List CpuId) :
    ∃ next dealt,
      assignCpus cpus slot rounds assignment chosen = some (next, chosen ++ dealt) ∧
        Balanced next.cpusWg cpus.length ((turn + rounds) % cpus.length) ∧
        dealt.length = rounds ∧
        ∀ round < rounds, dealt[round]? = cpus[(turn + round) % cpus.length]? := by
  induction rounds generalizing assignment turn chosen with
  | zero =>
      refine ⟨assignment, [], ?_, ?_, rfl, fun round bound => absurd bound (Nat.not_lt_zero _)⟩
      · rw [assignCpus, List.append_nil]
      · rw [Nat.add_zero, Nat.mod_eq_of_lt balanced.turn_lt]
        exact balanced
  | succ rounds inductionHypothesis =>
      rcases assignCpu_balanced balanced slot with ⟨cpu, here, assigned, moved⟩
      rcases inductionHypothesis moved (chosen ++ [cpu]) with
        ⟨next, dealt, looped, level, length_eq, places⟩
      have shifted (round : ℕ) :
          ((turn + 1) % cpus.length + round) % cpus.length =
            (turn + (round + 1)) % cpus.length := by
        rw [Nat.mod_add_mod, Nat.add_assoc, Nat.add_comm 1]
      refine ⟨next, cpu :: dealt, ?_, ?_, ?_, ?_⟩
      · rw [assignCpus, assigned]
        simpa only [List.append_assoc, List.singleton_append] using looped
      · rw [shifted] at level
        exact level
      · rw [List.length_cons, length_eq]
      · intro round bound
        cases round with
        | zero =>
            rw [List.getElem?_cons_zero, Nat.add_zero, Nat.mod_eq_of_lt balanced.turn_lt, here]
        | succ round =>
            rw [List.getElem?_cons_succ, places round (Nat.lt_of_succ_lt_succ bound), shifted]

/-- CPUs dealt in turn are different when there are enough of them. -/
theorem nodup_of_turns (distinct : cpus.Nodup) {dealt : List CpuId}
    (few : dealt.length ≤ cpus.length)
    (places : ∀ round < dealt.length, dealt[round]? = cpus[(turn + round) % cpus.length]?) :
    dealt.Nodup := by
  rw [List.nodup_iff_getElem?_ne_getElem?]
  intro early late ordered bound
  rw [places early (ordered.trans bound), places late bound]
  intro same
  have apart := @turn_ne _ turn _ _ ordered (lt_of_lt_of_le bound few)
  have inside : (turn + early) % cpus.length < cpus.length :=
    Nat.mod_lt _ ((Nat.zero_le _).trans_lt (lt_of_lt_of_le bound few))
  exact apart ((List.getElem?_inj inside distinct).mp same)

/-- The outer loop makes slots of one size. -/
theorem assignSlots_balanced (distinct : cpus.Nodup)
    (balanced : Balanced assignment.cpusWg cpus.length turn) (concurrency rounds : ℕ)
    (slots : List Slot) :
    ∃ next made last,
      assignSlots cpus concurrency rounds assignment slots = some (next, slots ++ made) ∧
        Balanced next.cpusWg cpus.length last ∧ made.length = rounds ∧
        (∀ slot ∈ made, slot.cpus.length = concurrency) ∧
        (concurrency ≤ cpus.length → ∀ slot ∈ made, slot.cpus.Nodup) := by
  induction rounds generalizing assignment turn slots with
  | zero =>
      refine ⟨assignment, [], turn, ?_, balanced, rfl, by simp, by simp⟩
      rw [assignSlots, List.append_nil]
  | succ rounds inductionHypothesis =>
      rcases assignCpus_balanced balanced slots.length concurrency [] with
        ⟨after, dealt, assigned, moved, length_eq, places⟩
      rw [List.nil_append] at assigned
      rcases inductionHypothesis moved (slots ++ [{ id := slots.length, cpus := dealt }]) with
        ⟨next, made, last, looped, level, count, sizes, separate⟩
      refine ⟨next, { id := slots.length, cpus := dealt } :: made, last, ?_, level, ?_, ?_, ?_⟩
      · rw [assignSlots, assigned]
        simpa only [List.append_assoc, List.singleton_append] using looped
      · rw [List.length_cons, count]
      · rw [List.forall_mem_cons]
        exact ⟨length_eq, sizes⟩
      · intro few
        rw [List.forall_mem_cons]
        refine ⟨?_, separate few⟩
        subst length_eq
        exact nodup_of_turns distinct few places

end

/-! ## The workers of a group -/

/-- With slots of one size the workers are counted by a product. -/
theorem workersCount_eq {slots : List Slot} {concurrency : ℕ}
    (sizes : ∀ slot ∈ slots, slot.cpus.length = concurrency) :
    workersCount slots = slots.length * concurrency := by
  rw [workersCount, List.map_congr_left sizes, List.map_const',
    List.sum_replicate_nat]

/-- A search among different CPUs ends at the worker of the CPU. -/
theorem postQueue_own {cpus : List CpuId} (distinct : cpus.Nodup) {worker : ℕ} {cpu : CpuId}
    (here : cpus[worker]? = some cpu) :
    ExecutorSlot.postQueue (cpus.map BitVec.toNat) (some cpu.toNat) = .own worker := by
  have search : (cpus.map BitVec.toNat).findIdx? (· == cpu.toNat) = some worker := by
    obtain ⟨bound, same⟩ := List.getElem?_eq_some_iff.mp here
    rw [List.findIdx?_eq_some_iff_getElem]
    refine ⟨by rwa [List.length_map], ?_, ?_⟩
    · rw [List.getElem_map, same, beq_self_eq_true]
    · intro earlier before matched
      rw [List.getElem_map, beq_iff_eq, ← same] at matched
      have index_eq := (List.Nodup.getElem_inj_iff distinct).mp (BitVec.eq_of_toNat_eq matched)
      omega
  rw [ExecutorSlot.postQueue, search]

variable {hardware : ℕ} {cpus : List CpuId} {option : WorkGroupOption}

/-- A slot that takes no more than the share leaves room for the other slots. -/
theorem slotsCount_mul_le (fits : option.concurrency hardware ≤ option.cpuLimit cpus.length)
    (positive : option.concurrency hardware ≠ 0) :
    option.slotsCount hardware cpus.length * option.concurrency hardware ≤
      option.cpuLimit cpus.length := by
  have one : 1 ≤ option.cpuLimit cpus.length / option.concurrency hardware :=
    Nat.div_pos fits (Nat.pos_of_ne_zero positive)
  rw [WorkGroupOption.slotsCount, max_eq_right one]
  exact Nat.div_mul_le_self _ _

/-- One slot alone has as many workers as it takes CPUs. -/
theorem concurrency_le_workers (hardware count : ℕ) (option : WorkGroupOption) :
    option.concurrency hardware ≤
      option.slotsCount hardware count * option.concurrency hardware := by
  apply Nat.le_mul_of_pos_left
  exact lt_of_lt_of_le Nat.one_pos (Nat.le_max_left _ _)

/-- The constructor of a group separates the workers exactly when a slot fits the share. -/
theorem Group.create_workers (distinct : cpus.Nodup) {cpusWg : ℕ → ℕ} {turn : ℕ}
    (balanced : Balanced cpusWg cpus.length turn)
    (positive : option.concurrency hardware ≠ 0) (id : ℕ) :
    ∃ group used next,
      Group.create hardware cpus id option cpusWg = some (group, used) ∧
        Balanced used cpus.length next ∧
        (group.SeparatesWorkers (option.cpuLimit cpus.length) ↔
          option.concurrency hardware ≤ option.cpuLimit cpus.length) := by
  rcases @assignSlots_balanced cpus ⟨cpusWg, fun _ => none⟩ turn distinct balanced
      (option.concurrency hardware) (option.slotsCount hardware cpus.length) [] with
    ⟨next, slots, last, assigned, level, count, sizes, separate⟩
  rw [List.nil_append] at assigned
  have created :
      Group.create hardware cpus id option cpusWg =
        some (⟨id, option.name, slots, next.cpusPeerSlot, ∅⟩, next.cpusWg) := by
    rw [Group.create, if_neg positive, assigned]
    rfl
  have workers : workersCount slots =
      option.slotsCount hardware cpus.length * option.concurrency hardware := by
    rw [workersCount_eq sizes, count]
  refine ⟨_, _, last, created, level, ?_, ?_⟩
  · intro separates
    calc
      option.concurrency hardware ≤
          option.slotsCount hardware cpus.length * option.concurrency hardware :=
        concurrency_le_workers hardware cpus.length option
      _ = workersCount slots := workers.symm
      _ ≤ option.cpuLimit cpus.length := separates.within
  · intro fits
    have limited : option.cpuLimit cpus.length ≤ cpus.length := by
      rw [WorkGroupOption.cpuLimit]
      omega
    have nodup := separate (fits.trans limited)
    refine ⟨nodup, ?_, ?_⟩
    · rw [workers]
      exact slotsCount_mul_le fits positive
    · intro slot member worker cpu here
      exact postQueue_own (nodup slot member) here

/-- So do the constructors of all groups of an executor. -/
theorem createGroups_workers (distinct : cpus.Nodup) {options : List WorkGroupOption}
    (positive : ∀ option ∈ options, option.concurrency hardware ≠ 0)
    {cpusWg : ℕ → ℕ} {turn : ℕ} (balanced : Balanced cpusWg cpus.length turn)
    (groups : List Group) :
    ∃ made used,
      createGroups hardware cpus options cpusWg groups = some (groups ++ made, used) ∧
        List.Forall₂ (fun (group : Group) (option : WorkGroupOption) =>
          group.SeparatesWorkers (option.cpuLimit cpus.length) ↔
            option.concurrency hardware ≤ option.cpuLimit cpus.length) made options := by
  induction options generalizing cpusWg turn groups with
  | nil => exact ⟨[], cpusWg, by rw [createGroups, List.append_nil], .nil⟩
  | cons option rest inductionHypothesis =>
      rcases Group.create_workers distinct balanced (positive option List.mem_cons_self)
          groups.length with
        ⟨group, used, next, created, level, separates⟩
      rcases inductionHypothesis
          (fun other member => positive other (List.mem_cons_of_mem _ member)) level
          (groups ++ [group]) with
        ⟨made, last, looped, related⟩
      refine ⟨group :: made, last, ?_, .cons separates related⟩
      rw [createGroups, created]
      simpa only [List.append_assoc, List.singleton_append] using looped

/-- What holds of each pair under a condition holds of all pairs under all conditions. -/
theorem forall₂_iff_forall {groups : List Group} {options : List WorkGroupOption}
    {holds : Group → WorkGroupOption → Prop} {condition : WorkGroupOption → Prop}
    (related : List.Forall₂ (fun group option => holds group option ↔ condition option)
      groups options) :
    List.Forall₂ holds groups options ↔ ∀ option ∈ options, condition option := by
  induction related with
  | nil => simp
  | cons first _ inductionHypothesis =>
      rw [List.forall₂_cons, List.forall_mem_cons, first, inductionHypothesis]

/--
For all CPUs with distinct ids and all options, on a machine with at least these CPUs:
the workers of every group are separated exactly when no option asks for more CPUs in
a slot than its share of CPUs.
-/
theorem workers_separate_iff (hardware : ℕ) {cpus : List CpuId} (nonempty : cpus ≠ [])
    (distinct : cpus.Nodup) (wide : cpus.length ≤ hardware) (options : List WorkGroupOption) :
    ∃ groups used,
      createGroups hardware cpus options (fun _ => 0) [] = some (groups, used) ∧
        (∀ executor, Executor.create hardware cpus options = some executor →
          executor.groups = groups) ∧
        (List.Forall₂ (fun (group : Group) (option : WorkGroupOption) =>
            group.SeparatesWorkers (option.cpuLimit cpus.length)) groups options ↔
          ∀ option ∈ options,
            option.concurrency hardware ≤ option.cpuLimit cpus.length) := by
  have some := List.length_pos_iff.mpr nonempty
  have positive : ∀ option ∈ options, option.concurrency hardware ≠ 0 := by
    intro option _
    rw [WorkGroupOption.concurrency]
    split <;> omega
  rcases createGroups_workers distinct positive (balanced_zero some) [] with
    ⟨groups, used, created, related⟩
  rw [List.nil_append] at created
  refine ⟨groups, used, created, ?_, forall₂_iff_forall related⟩
  intro executor constructed
  rw [Executor.create, created] at constructed
  cases groups with
  | nil => exact absurd constructed (by simp)
  | cons first rest =>
      cases Option.some.inj constructed
      rfl

/-- The theorem at two CPUs of a machine with four, and two groups. -/
theorem workers_separate_iff_two :
    ∃ groups used,
      createGroups 4 [0#64, 1#64] [⟨"main", fun _ => 2, 0⟩, ⟨"io", fun _ => 1, 1⟩]
          (fun _ => 0) [] = some (groups, used) ∧
        (∀ executor, Executor.create 4 [0#64, 1#64]
            [⟨"main", fun _ => 2, 0⟩, ⟨"io", fun _ => 1, 1⟩] = some executor →
          executor.groups = groups) ∧
        (List.Forall₂ (fun (group : Group) (option : WorkGroupOption) =>
            group.SeparatesWorkers (option.cpuLimit 2)) groups
            [⟨"main", fun _ => 2, 0⟩, ⟨"io", fun _ => 1, 1⟩] ↔
          ∀ option ∈ ([⟨"main", fun _ => 2, 0⟩, ⟨"io", fun _ => 1, 1⟩] : List WorkGroupOption),
            option.concurrency 4 ≤ option.cpuLimit 2) :=
  workers_separate_iff 4 (by decide) (by decide) (by decide) _

/--
The default concurrency is that of the machine: on a node with two of four CPUs the
one slot has four workers.
-/
theorem workers_share_cpu :
    ¬ ∀ (hardware : ℕ) (cpus : List CpuId) (options : List WorkGroupOption), cpus ≠ [] →
      cpus.Nodup → cpus.length ≤ hardware →
      ∀ groups used, createGroups hardware cpus options (fun _ => 0) [] = some (groups, used) →
        List.Forall₂ (fun (group : Group) (option : WorkGroupOption) =>
          group.SeparatesWorkers (option.cpuLimit cpus.length)) groups options := by
  intro claimed
  have separates := claimed 4 [0#64, 1#64] [⟨"main", fun count => count, 0⟩] (by decide)
    (by decide) (by decide) _ _ rfl
  have first := (List.forall₂_cons.mp separates).1
  have distinct := first.distinct _ List.mem_cons_self
  revert distinct
  decide

end AsyncRuntime.WorkGroup
