import AsyncRuntime.WorkGroup.Calls

/-!
# Tasks return to the processor they have run on

The constructor of a group deals CPUs to its slots in turn and overwrites
`cpus_peer_slot` with each of them.  A group with several slots deals fewer CPUs
than there are, so no CPU is dealt twice and no entry is overwritten by another
slot; a group with one slot may deal a CPU again, but only to that slot.

The turn is carried on from one group to the next through `cpus_wg`, which the
greedy choice keeps balanced.
-/

namespace AsyncRuntime.WorkGroup

open AsyncRuntime.Foundation
open AsyncRuntime.ExecutorSlot (QueueId postQueue)

/-! ## Dealing CPUs -/

/-- The CPU whose turn it is goes to the slot, and the turn moves on. -/
theorem assignCpu_balanced {cpus : List CpuId} {assignment : Assignment} {turn : ℕ}
    (balanced : Balanced assignment.cpusWg cpus.length turn) (slot : ℕ) :
    ∃ cpu, cpus[turn]? = some cpu ∧
      assignCpu cpus slot assignment = some (assignment.take slot turn cpu, cpu) ∧
      Balanced (assignment.take slot turn cpu).cpusWg cpus.length
        ((turn + 1) % cpus.length) := by
  have here := List.getElem?_eq_getElem balanced.turn_lt
  refine ⟨_, here, ?_, balanced.charge⟩
  rw [assignCpu, balanced.leastLoaded_eq]
  simp only [here, Option.map_some]

/--
A group has dealt `count` CPUs, beginning with the turn `base`: to the earlier
slots, and to the slot that is being made.
-/
structure Dealing (cpus : List CpuId) (base count : ℕ) (earlier : List Slot)
    (chosen : List CpuId) (assignment : Assignment) : Prop where
  balanced :
    Balanced assignment.cpusWg cpus.length ((base + count) % cpus.length)
  dealt :
    ∀ cpu ∈ earlier.flatMap Slot.cpus ++ chosen,
      ∃ turn < count, cpus[(base + turn) % cpus.length]? = some cpu
  earlier_peer :
    (cpus.map peerKey).Nodup →
      ∀ index slot, earlier[index]? = some slot → ∀ cpu ∈ slot.cpus,
        assignment.cpusPeerSlot (peerKey cpu) = some index
  chosen_peer :
    ∀ cpu ∈ chosen,
      assignment.cpusPeerSlot (peerKey cpu) = some earlier.length

/-- CPUs at different indexes have different keys. -/
theorem index_eq_of_peerKey_eq {cpus : List CpuId}
    (distinct : (cpus.map peerKey).Nodup) {left right : ℕ}
    {leftCpu rightCpu : CpuId} (leftAt : cpus[left]? = some leftCpu)
    (rightAt : cpus[right]? = some rightCpu)
    (same : peerKey leftCpu = peerKey rightCpu) : left = right := by
  have bound : left < (cpus.map peerKey).length := by
    rw [List.length_map]
    exact (List.getElem?_eq_some_iff.mp leftAt).1
  apply (List.getElem?_inj bound distinct).mp
  rw [List.getElem?_map, List.getElem?_map, leftAt, rightAt, Option.map_some,
    Option.map_some, same]

namespace Dealing

variable {cpus : List CpuId} {base count : ℕ} {earlier : List Slot}
  {chosen : List CpuId} {assignment : Assignment}

/-- One more CPU: either there are no earlier slots, or it is not one of theirs. -/
theorem assignCpu (dealing : Dealing cpus base count earlier chosen assignment)
    (fits : earlier = [] ∨ count < cpus.length) :
    ∃ next cpu,
      assignCpu cpus earlier.length assignment = some (next, cpu) ∧
        Dealing cpus base (count + 1) earlier (chosen ++ [cpu]) next := by
  rcases assignCpu_balanced dealing.balanced earlier.length with
    ⟨next, here, assigned, charged⟩
  refine ⟨_, next, assigned, ?_⟩
  constructor
  case balanced =>
    have turn :
        ((base + count) % cpus.length + 1) % cpus.length =
          (base + (count + 1)) % cpus.length := by
      rw [Nat.mod_add_mod, Nat.add_assoc]
    rw [turn] at charged
    exact charged
  case dealt =>
    intro cpu member
    rw [← List.append_assoc, List.mem_append, List.mem_singleton] at member
    rcases member with old | rfl
    · rcases dealing.dealt cpu old with ⟨turn, bound, position⟩
      exact ⟨turn, Nat.lt_succ_of_lt bound, position⟩
    · exact ⟨count, Nat.lt_succ_self count, here⟩
  case earlier_peer =>
    intro distinct index slot slotAt cpu member
    have slotMember := List.mem_of_getElem? slotAt
    have apart : peerKey cpu ≠ peerKey next := by
      intro same
      have within : count < cpus.length := by
        rcases fits with empty | within
        · rw [empty] at slotMember
          exact absurd slotMember List.not_mem_nil
        · exact within
      rcases dealing.dealt cpu
          (List.mem_append_left _ (List.mem_flatMap.mpr ⟨slot, slotMember, member⟩))
        with ⟨turn, bound, position⟩
      exact turn_ne bound within
        (index_eq_of_peerKey_eq distinct position here same)
    rw [Assignment.take_cpusPeerSlot, Function.update_of_ne apart]
    exact dealing.earlier_peer distinct index slot slotAt cpu member
  case chosen_peer =>
    intro cpu member
    rw [List.mem_append, List.mem_singleton] at member
    rw [Assignment.take_cpusPeerSlot, Function.update_apply]
    split
    · rfl
    · rename_i apart
      rcases member with old | rfl
      · exact dealing.chosen_peer cpu old
      · exact absurd rfl apart

/-- The inner loop. -/
theorem assignCpus (dealing : Dealing cpus base count earlier chosen assignment)
    (rounds : ℕ)
    (fits : earlier = [] ∨ count + rounds ≤ cpus.length) :
    ∃ next all,
      assignCpus cpus earlier.length rounds assignment chosen = some (next, all) ∧
        Dealing cpus base (count + rounds) earlier all next := by
  induction rounds generalizing count chosen assignment with
  | zero => exact ⟨assignment, chosen, rfl, dealing⟩
  | succ rounds inductionHypothesis =>
      rcases dealing.assignCpu (fits.imp_right (by omega)) with
        ⟨next, cpu, assigned, dealt⟩
      rcases inductionHypothesis dealt (fits.imp_right (by omega)) with
        ⟨last, all, looped, done⟩
      refine ⟨last, all, ?_, ?_⟩
      · rw [WorkGroup.assignCpus, assigned]
        exact looped
      · rw [Nat.add_right_comm] at done
        exact done

/-- The slot that has been made becomes an earlier one. -/
theorem finishSlot (dealing : Dealing cpus base count earlier chosen assignment) :
    Dealing cpus base count
      (earlier ++ [{ id := earlier.length, cpus := chosen }]) [] assignment := by
  refine ⟨dealing.balanced, ?_, ?_, ?_⟩
  · intro cpu member
    apply dealing.dealt cpu
    simpa using member
  · intro distinct index slot slotAt cpu member
    rw [List.getElem?_append] at slotAt
    split at slotAt
    · exact dealing.earlier_peer distinct index slot slotAt cpu member
    · rw [List.getElem?_singleton] at slotAt
      split at slotAt
      · have last : index = earlier.length := by omega
        cases slotAt
        rw [last]
        exact dealing.chosen_peer cpu member
      · cases slotAt
  · intro cpu member
    exact absurd member List.not_mem_nil

/-- The outer loop: one slot, or so many that all CPUs dealt are different. -/
theorem assignSlots (dealing : Dealing cpus base count earlier [] assignment)
    (concurrency rounds : ℕ)
    (fits :
      earlier = [] ∧ rounds = 1 ∨ count + rounds * concurrency ≤ cpus.length) :
    ∃ next slots,
      assignSlots cpus concurrency rounds assignment earlier = some (next, slots) ∧
        Dealing cpus base (count + rounds * concurrency) slots [] next := by
  induction rounds generalizing count earlier assignment with
  | zero =>
      rw [Nat.zero_mul, Nat.add_zero]
      exact ⟨assignment, earlier, rfl, dealing⟩
  | succ rounds inductionHypothesis =>
      rw [Nat.succ_mul] at fits ⊢
      have fitsSlot : earlier = [] ∨ count + concurrency ≤ cpus.length :=
        fits.imp And.left (by omega)
      rcases dealing.assignCpus concurrency fitsSlot with
        ⟨next, chosen, assigned, dealt⟩
      rw [WorkGroup.assignSlots, assigned]
      rcases fits with ⟨-, single⟩ | within
      · have last : rounds = 0 := by omega
        subst last
        refine ⟨next, _, rfl, ?_⟩
        rw [Nat.zero_mul, Nat.zero_add]
        exact dealt.finishSlot
      · rcases inductionHypothesis dealt.finishSlot (.inr (by omega)) with
          ⟨last, slots, looped, done⟩
        refine ⟨last, slots, looped, ?_⟩
        rw [Nat.add_right_comm, Nat.add_assoc] at done
        exact done

end Dealing

/-! ## The groups of an executor -/

/-- `cpus_peer_slot` maps the CPU of every worker to the slot of the worker. -/
def Group.KnowsWorkers (group : Group) : Prop :=
  ∀ index slot, group.slots[index]? = some slot → ∀ cpu ∈ slot.cpus,
    group.cpusPeerSlot (peerKey cpu) = some index

/--
After any calls, a task that ran on a worker and is posted again without a delay
goes back to a worker of the same slot on the same CPU, for the eligible CPUs.
-/
def Group.ReturnsTasks (group : Group) (eligible : CpuId → Prop) : Prop :=
  ∀ calls later outputs, group.run calls = some (later, outputs) →
    ∀ index slot, group.slots[index]? = some slot → ∀ cpu ∈ slot.cpus,
      eligible cpu → ∀ task before now,
        task.state = invoke cpu before → task.getDelay now ≤ 0 →
          ∃ worker posted,
            later.post task now = some (later, posted) ∧
              posted.destination = .slot index (.own worker) ∧
              slot.cpus[worker]? = some cpu

/-- The slots of a group fit on the CPUs, unless there is only one slot. -/
theorem slotsCount_fits (option : WorkGroupOption) (hardware count : ℕ) :
    option.slotsCount hardware count = 1 ∨
      option.slotsCount hardware count * option.concurrency hardware ≤ count := by
  rw [WorkGroupOption.slotsCount]
  rcases Nat.le_total (option.cpuLimit count / option.concurrency hardware) 1
    with few | many
  · exact .inl (max_eq_left few)
  · right
    rw [max_eq_right many]
    apply (Nat.div_mul_le_self _ _).trans
    rw [WorkGroupOption.cpuLimit]
    omega

/-- The constructor of a group keeps the usage balanced. -/
theorem Group.create_balanced (hardware : ℕ) {cpus : List CpuId} {cpusWg : ℕ → ℕ}
    {turn : ℕ}
    (balanced : Balanced cpusWg cpus.length turn) {option : WorkGroupOption}
    (concurrent : 1 ≤ option.slotConcurrency) (id : ℕ) :
    ∃ group used next,
      Group.create hardware cpus id option cpusWg = some (group, used) ∧
        Balanced used cpus.length next ∧
          ((cpus.map peerKey).Nodup → group.KnowsWorkers) := by
  have positive : option.concurrency hardware ≠ 0 := by
    rw [WorkGroupOption.concurrency, if_pos (by omega)]
    omega
  have start : Dealing cpus turn 0 [] [] ⟨cpusWg, fun _ => none⟩ := by
    refine ⟨?_, by simp, by simp, by simp⟩
    rw [Nat.add_zero, Nat.mod_eq_of_lt balanced.turn_lt]
    exact balanced
  have fits := slotsCount_fits option hardware cpus.length
  rcases start.assignSlots (option.concurrency hardware)
      (option.slotsCount hardware cpus.length)
      (fits.imp (fun single => ⟨rfl, single⟩) (by omega)) with
    ⟨next, slots, assigned, dealt⟩
  have created :
      Group.create hardware cpus id option cpusWg =
        some (⟨id, option.name, slots, next.cpusPeerSlot, ∅⟩, next.cpusWg) := by
    rw [Group.create, if_neg positive, assigned]
    rfl
  exact ⟨_, _, _, created, dealt.balanced, dealt.earlier_peer⟩

/-- So do the constructors of all groups of an executor. -/
theorem createGroups_balanced (hardware : ℕ) {cpus : List CpuId}
    {options : List WorkGroupOption}
    (concurrent : ∀ option ∈ options, 1 ≤ option.slotConcurrency)
    {cpusWg : ℕ → ℕ} {turn : ℕ} (balanced : Balanced cpusWg cpus.length turn)
    {groups : List Group}
    (known : ∀ group ∈ groups, (cpus.map peerKey).Nodup → group.KnowsWorkers) :
    ∃ all used next,
      createGroups hardware cpus options cpusWg groups = some (all, used) ∧
        all.length = groups.length + options.length ∧
        Balanced used cpus.length next ∧
          ∀ group ∈ all, (cpus.map peerKey).Nodup → group.KnowsWorkers := by
  induction options generalizing cpusWg turn groups with
  | nil => exact ⟨groups, cpusWg, turn, rfl, rfl, balanced, known⟩
  | cons option rest inductionHypothesis =>
      rcases Group.create_balanced hardware balanced
          (concurrent option List.mem_cons_self) groups.length with
        ⟨group, used, next, created, usedBalanced, knows⟩
      have allKnown : ∀ other ∈ groups ++ [group],
          (cpus.map peerKey).Nodup → other.KnowsWorkers := by
        intro other member
        rw [List.mem_append, List.mem_singleton] at member
        rcases member with old | rfl
        · exact known other old
        · exact knows
      rcases inductionHypothesis
          (fun other member => concurrent other (List.mem_cons_of_mem _ member))
          usedBalanced allKnown with
        ⟨all, last, turn, looped, length_eq, lastBalanced, lastKnown⟩
      refine ⟨all, last, turn, ?_, ?_, lastBalanced, lastKnown⟩
      · rw [createGroups, created]
        exact looped
      · rw [length_eq, List.length_append, List.length_cons, List.length_cons,
          List.length_nil]
        omega

/-! ## Posting again -/

/-- The first worker on the processor of the task takes it. -/
theorem Slot.exists_post_own {slot : Slot} {cpu : CpuId} (member : cpu ∈ slot.cpus)
    (valid : cpu ≠ invalidObjectId) {state : ExecutionState}
    (ran : state.processor = cpu) :
    ∃ worker, slot.post state = .own worker ∧ slot.cpus[worker]? = some cpu := by
  have found :
      ((slot.cpus.map BitVec.toNat).findIdx? (· == cpu.toNat)).isSome = true := by
    rw [List.findIdx?_isSome, List.any_map, List.any_eq_true]
    exact ⟨cpu, member, beq_self_eq_true cpu.toNat⟩
  rcases Option.isSome_iff_exists.mp found with ⟨worker, worker_eq⟩
  refine ⟨worker, ?_, ?_⟩
  · rw [Slot.post, ran, if_neg valid]
    simp only [postQueue, worker_eq]
  · rcases List.findIdx?_eq_some_iff_getElem.mp worker_eq with ⟨bound, same, -⟩
    rw [List.length_map] at bound
    rw [List.getElem_map, beq_iff_eq] at same
    rw [List.getElem?_eq_getElem bound, BitVec.eq_of_toNat_eq same]

theorem Group.KnowsWorkers.returnsTasks {group : Group}
    (knows : group.KnowsWorkers) : group.ReturnsTasks (· ≠ invalidObjectId) := by
  intro calls later outputs ran index slot slotAt cpu member valid task before
    now invoked due
  have shape := sameShape_run ran
  rcases shape.exists_slot slotAt with ⟨laterSlot, laterAt, -, cpus_eq⟩
  have processor : task.state.processor = cpu := by rw [invoked, invoke]
  have settled : later.settledSlot task.state = some index := by
    have peer := knows index slot slotAt cpu member
    rw [settledSlot, processorSlot, processor, if_neg valid,
      shape.cpusPeerSlot_eq, peer]
  rw [← cpus_eq] at member
  rcases Slot.exists_post_own member valid
      (show (task.setExecutionStateWg later.id).state.processor = cpu from processor)
    with ⟨worker, queue, workerAt⟩
  rw [cpus_eq] at workerAt
  refine ⟨worker, ⟨task.setExecutionStateWg later.id, .slot index (.own worker)⟩,
    ?_, rfl, workerAt⟩
  rw [post_eq, if_pos due, settled]
  simp only [postSlot, laterAt, Option.map_some, queue]

/--
For all CPUs and options the constructors of the groups leave the usage of the CPUs
level.  If the CPUs have distinct keys, every group knows the slots of its workers, and
tasks return to the slot and the CPU on which they ran.
-/
theorem affinity_sound (hardware : ℕ) {cpus : List CpuId} (nonempty : cpus ≠ [])
    {options : List WorkGroupOption}
    (concurrent : ∀ option ∈ options, 1 ≤ option.slotConcurrency) :
    ∃ groups cpusWg,
      createGroups hardware cpus options (fun _ => 0) [] = some (groups, cpusWg) ∧
        groups.length = options.length ∧
        (∀ left < cpus.length, ∀ right < cpus.length,
          cpusWg left ≤ cpusWg right + 1) ∧
        ((cpus.map peerKey).Nodup → ∀ group ∈ groups,
          group.KnowsWorkers ∧ group.ReturnsTasks (· ≠ invalidObjectId)) := by
  have start := balanced_zero (List.length_pos_iff.mpr nonempty)
  rcases createGroups_balanced hardware concurrent start
      (fun group member => absurd member List.not_mem_nil) with
    ⟨groups, cpusWg, turn, created, length_eq, balanced, known⟩
  refine ⟨groups, cpusWg, created, ?_, ?_, ?_⟩
  · rw [length_eq, List.length_nil, Nat.zero_add]
  · intro left leftBound right rightBound
    exact balanced.le_succ leftBound rightBound
  · intro distinct group member
    have knows := known group member distinct
    exact ⟨knows, knows.returnsTasks⟩

/-- Two groups on three CPUs: one slot of two workers, and three of one. -/
theorem affinity_sound_three :
    ∃ groups cpusWg,
      createGroups 8 [0#64, 1#64, 2#64] [⟨"main", fun _ => 3, 2⟩, ⟨"io", fun _ => 3, 1⟩]
          (fun _ => 0) [] = some (groups, cpusWg) ∧
        groups.length = 2 ∧
        (∀ left < 3, ∀ right < 3, cpusWg left ≤ cpusWg right + 1) ∧
        ∀ group ∈ groups,
          group.KnowsWorkers ∧ group.ReturnsTasks (· ≠ invalidObjectId) := by
  rcases @affinity_sound 8 [0#64, 1#64, 2#64] (by decide)
      [⟨"main", fun _ => 3, 2⟩, ⟨"io", fun _ => 3, 1⟩] (by decide) with
    ⟨groups, cpusWg, created, length_eq, level, returns⟩
  exact ⟨groups, cpusWg, created, length_eq, level, returns (by decide)⟩

/-- One group with `cpus.length` slots of one worker each. -/
def spreadOption : WorkGroupOption :=
  ⟨"main", fun count => count, 1⟩

/--
The ids 0 and 2 ^ 32 have the same key, and the first slot loses its worker; the
id `UINT_MAX` is taken for no processor at all.
-/
theorem ids_cut_to_int :
    (¬ ∀ (cpus : List CpuId) (options : List WorkGroupOption), cpus ≠ [] →
        cpus.Nodup → (∀ option ∈ options, 1 ≤ option.slotConcurrency) →
        ∀ groups cpusWg,
          createGroups 1 cpus options (fun _ => 0) [] = some (groups, cpusWg) →
            ∀ group ∈ groups, group.KnowsWorkers) ∧
      ¬ ∀ (cpus : List CpuId) (options : List WorkGroupOption), cpus ≠ [] →
        cpus.Nodup → (∀ option ∈ options, 1 ≤ option.slotConcurrency) →
        ∀ groups cpusWg,
          createGroups 1 cpus options (fun _ => 0) [] = some (groups, cpusWg) →
            ∀ group ∈ groups, group.ReturnsTasks fun _ => True := by
  constructor
  · intro claim
    have knows := claim [0#64, 0x100000000#64] [spreadOption] (by decide)
      (by decide) (by decide) _ _ rfl _ List.mem_cons_self
    have peer := knows 0 ⟨0, [0#64], 0⟩ rfl 0#64 List.mem_cons_self
    revert peer
    decide
  · intro claim
    have returns := claim [invalidObjectId] [spreadOption] (by decide)
      (by decide) (by decide) _ _ rfl _ List.mem_cons_self
    rcases returns [] _ _ rfl 0 ⟨0, [invalidObjectId], 0⟩ rfl invalidObjectId
        List.mem_cons_self trivial ⟨invoke invalidObjectId {}, 0⟩ {} 0 rfl
        (by decide) with
      ⟨worker, posted, post_eq, destination, -⟩
    cases Option.some.inj post_eq
    cases destination

end AsyncRuntime.WorkGroup
