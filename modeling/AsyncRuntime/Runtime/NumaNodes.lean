import AsyncRuntime.Memory.ResourcePool
import Mathlib.Data.List.Range

/-!
# Virtual NUMA nodes

`GetManualNumaNodes(count)` hands the CPUs of the machine out to `count` nodes.  The
size of a node and the index of a CPU's node are quotients in `float`, which are those
of the integers as long as the numbers have at most 24 binary digits.

A `float` is given by its value; `none` is an index behind the last node, or a
division by zero.
-/

namespace AsyncRuntime.Runtime.NumaNodes

open AsyncRuntime.Foundation.BinaryRounding
open AsyncRuntime.Memory.ResourcePool (toFloat divide fractionBits maxInt)

/-- `CPU`. -/
structure Cpu where
  id : ℕ
  numaNodeId : ℕ
deriving DecidableEq

/-- `NumaNode`. -/
structure NumaNode where
  id : ℕ
  cpus : List Cpu
deriving DecidableEq

/-- The conversion of a `float` that is not negative to `int`, which cuts the fraction off. -/
def truncate (value : ℚ) : Option ℕ :=
  if ⌊value⌋ ≤ maxInt then some ⌊value⌋.toNat else none

/-- `node_cpus_count`: only the concurrency is converted to `int` before the division. -/
def nodeCpusCount (hardware count : ℕ) : Option ℕ := do
  let concurrency ← truncate (toFloat hardware)
  let quotient ← divide (toFloat concurrency) (toFloat count)
  truncate quotient

/-- `cpu.numa_node_id` of the CPU with this number. -/
def nodeOf (nodeCpus number : ℕ) : Option ℕ :=
  (divide (toFloat number) (toFloat nodeCpus)).map fun quotient => ⌊quotient⌋.toNat

/-- The CPU is put into its node. -/
def place (nodes : List NumaNode) (cpu : Cpu) : Option (List NumaNode) :=
  if cpu.numaNodeId < nodes.length then
    some (nodes.modify cpu.numaNodeId fun node =>
      { id := cpu.numaNodeId, cpus := node.cpus ++ [cpu] })
  else none

/-- One round of the loop. -/
def assign (nodeCpus : ℕ) (nodes : List NumaNode) (number : ℕ) : Option (List NumaNode) := do
  let index ← nodeOf nodeCpus number
  place nodes ⟨number, index⟩

/-- `GetManualNumaNodes` on a machine with this concurrency. -/
def getManualNumaNodes (hardware count : ℕ) : Option (List NumaNode) := do
  let nodeCpus ← nodeCpusCount hardware count
  (List.range hardware).foldlM (assign nodeCpus) (List.replicate count ⟨0, []⟩)

/-! ## The quotients -/

section

variable {hardware count nodeCpus number : ℕ}

theorem toFloat_eq (small : number < 2 ^ 24) : toFloat number = number := by
  rcases Nat.eq_zero_or_pos number with none | positive
  · rw [none, toFloat, Nat.cast_zero, roundTo_zero]
  · exact roundTo_natCast positive small

theorem divide_eq (positive : 0 < nodeCpus) (numberSmall : number < 2 ^ 24)
    (nodeSmall : nodeCpus < 2 ^ 24) :
    divide (toFloat number) (toFloat nodeCpus) =
      some (roundTo fractionBits ((number : ℚ) / nodeCpus)) := by
  have nonzero : (nodeCpus : ℚ) ≠ 0 := by exact_mod_cast positive.ne'
  rw [divide, toFloat_eq numberSmall, toFloat_eq nodeSmall, if_neg nonzero]

theorem floor_quotient (positive : 0 < nodeCpus) (small : number < 2 ^ 24) :
    ⌊roundTo fractionBits ((number : ℚ) / nodeCpus)⌋ = ((number / nodeCpus : ℕ) : ℤ) :=
  floor_roundTo_div positive small

/-- The index of a CPU's node is the quotient of the integers. -/
theorem nodeOf_eq (positive : 0 < nodeCpus) (numberSmall : number < 2 ^ 24)
    (nodeSmall : nodeCpus < 2 ^ 24) : nodeOf nodeCpus number = some (number / nodeCpus) := by
  rw [nodeOf, divide_eq positive numberSmall nodeSmall, Option.map_some,
    floor_quotient positive numberSmall, Int.toNat_natCast]

theorem truncate_eq {value : ℚ} (floor : ⌊value⌋ = number) (small : number < 2 ^ 24) :
    truncate value = some number := by
  rw [truncate, floor, if_pos (by rw [maxInt]; omega), Int.toNat_natCast]

/-- And so is the size of a node. -/
theorem nodeCpusCount_eq (positive : 0 < count) (countSmall : count < 2 ^ 24)
    (hardwareSmall : hardware < 2 ^ 24) :
    nodeCpusCount hardware count = some (hardware / count) := by
  have whole : truncate (toFloat hardware) = some hardware :=
    truncate_eq (by rw [toFloat_eq hardwareSmall, Int.floor_natCast]) hardwareSmall
  have small : hardware / count < 2 ^ 24 := lt_of_le_of_lt (Nat.div_le_self _ _) hardwareSmall
  rw [nodeCpusCount, whole]
  simp only [Option.bind_eq_bind, Option.bind_some, divide_eq positive hardwareSmall countSmall]
  exact truncate_eq (floor_quotient positive hardwareSmall) small

/-! ## The loop -/

/-- The nodes when the CPUs below a number have been handed out. -/
def handedOut (count nodeCpus number : ℕ) : List NumaNode :=
  (List.range count).map fun index =>
    { id := if index * nodeCpus < number then index else 0
      cpus := ((List.range number).filter (· / nodeCpus = index)).map (⟨·, index⟩) }

theorem length_handedOut : (handedOut count nodeCpus number).length = count := by
  rw [handedOut, List.length_map, List.length_range]

theorem handedOut_zero : handedOut count nodeCpus 0 = List.replicate count ⟨0, []⟩ := by
  apply List.ext_getElem
  · simp [handedOut]
  · intro index before after
    simp [handedOut]

/-- One more CPU goes into the node of its quotient, if there is such a node. -/
theorem place_handedOut (positive : 0 < nodeCpus) :
    place (handedOut count nodeCpus number) ⟨number, number / nodeCpus⟩ =
      if number / nodeCpus < count then some (handedOut count nodeCpus (number + 1))
      else none := by
  rw [place, length_handedOut]
  by_cases inside : number / nodeCpus < count
  · rw [if_pos inside, if_pos inside]
    congr 1
    apply List.ext_getElem
    · rw [List.length_modify, length_handedOut, length_handedOut]
    · intro index before after
      rw [List.getElem_modify]
      by_cases here : number / nodeCpus = index
      · subst here
        have first : number / nodeCpus * nodeCpus < number + 1 :=
          Nat.lt_succ_of_le (Nat.div_mul_le_self _ _)
        simp only [handedOut, List.getElem_map, List.getElem_range, List.range_succ,
          List.filter_append, List.map_append, List.filter_singleton, decide_true, if_pos first]
        rfl
      · have same : index * nodeCpus < number + 1 ↔ index * nodeCpus < number := by
          constructor
          · intro within
            rcases Nat.lt_succ_iff_lt_or_eq.mp within with below | equal
            · exact below
            · exact absurd (Nat.div_eq_of_eq_mul_left positive equal.symm) here
          · exact Nat.lt_succ_of_lt
        simp only [handedOut, List.getElem_map, List.getElem_range, List.range_succ,
          List.filter_append, List.map_append, List.filter_singleton, if_neg here,
          decide_eq_false here, cond_false, List.map_nil, List.append_nil, same]
  · rw [if_neg inside, if_neg inside]

/-- The loop up to a number ends well as long as no CPU was behind the last node. -/
theorem foldlM_assign (positive : 0 < nodeCpus) (nodeSmall : nodeCpus < 2 ^ 24)
    (small : number < 2 ^ 24) :
    (List.range number).foldlM (assign nodeCpus) (List.replicate count ⟨0, []⟩) =
      if number ≤ count * nodeCpus then some (handedOut count nodeCpus number) else none := by
  induction number with
  | zero => rw [if_pos (Nat.zero_le _), handedOut_zero]; rfl
  | succ number inductionHypothesis =>
      have inside : number / nodeCpus < count ↔ number < count * nodeCpus :=
        Nat.div_lt_iff_lt_mul positive
      rw [List.range_succ, List.foldlM_append, inductionHypothesis (Nat.lt_of_succ_lt small)]
      by_cases fits : number ≤ count * nodeCpus
      · rw [if_pos fits]
        simp only [Option.bind_eq_bind, Option.bind_some, List.foldlM_cons, List.foldlM_nil,
          assign, nodeOf_eq positive (Nat.lt_of_succ_lt small) nodeSmall,
          place_handedOut positive, inside, Nat.succ_le_iff]
        split <;> rfl
      · rw [if_neg fits, if_neg (fun later => fits (Nat.le_of_succ_le later))]
        rfl

/-- What the call returns, for all numbers that a `float` is exact for. -/
theorem getManualNumaNodes_eq (one : 1 ≤ count) (le : count ≤ hardware)
    (small : hardware < 2 ^ 24) :
    getManualNumaNodes hardware count =
      if count ∣ hardware then some (handedOut count (hardware / count) hardware)
      else none := by
  have positive : 0 < hardware / count := Nat.div_pos le one
  have nodeSmall : hardware / count < 2 ^ 24 := lt_of_le_of_lt (Nat.div_le_self _ _) small
  have divides : count ∣ hardware ↔ hardware ≤ count * (hardware / count) := by
    rw [Nat.dvd_iff_div_mul_eq, Nat.mul_comm]
    have below := Nat.mul_div_le hardware count
    omega
  rw [getManualNumaNodes, nodeCpusCount_eq one (lt_of_le_of_lt le small) small]
  simp only [Option.bind_eq_bind, Option.bind_some, foldlM_assign positive nodeSmall small,
    divides]

/-! ## The partition -/

/-- Every CPU is in one node, and no node is without a CPU. -/
structure Partitions (hardware count : ℕ) (nodes : List NumaNode) : Prop where
  length_eq : nodes.length = count
  unique : ∀ cpu < hardware, ∃! index, index < count ∧
    ∃ node, nodes[index]? = some node ∧ cpu ∈ node.cpus.map Cpu.id
  nonempty : ∀ node ∈ nodes, node.cpus ≠ []

/-- A CPU is in the node of its quotient and in no other. -/
theorem mem_handedOut {index cpu : ℕ} {node : NumaNode}
    (found : (handedOut count nodeCpus hardware)[index]? = some node) :
    cpu ∈ node.cpus.map Cpu.id ↔ cpu < hardware ∧ cpu / nodeCpus = index := by
  simp only [handedOut, List.getElem?_map, Option.map_eq_some_iff] at found
  obtain ⟨number, at_index, rfl⟩ := found
  obtain ⟨_, same⟩ := List.getElem?_eq_some_iff.mp at_index
  rw [List.getElem_range] at same
  simp [same]

/-- When the nodes are of one size, they are a partition. -/
theorem partitions_handedOut (one : 1 ≤ count) (le : count ≤ hardware)
    (divides : count ∣ hardware) :
    Partitions hardware count (handedOut count (hardware / count) hardware) := by
  have positive : 0 < hardware / count := Nat.div_pos le one
  have whole : hardware / count * count = hardware := Nat.div_mul_cancel divides
  refine ⟨length_handedOut, ?_, ?_⟩
  · intro cpu bound
    have inside : cpu / (hardware / count) < count := by
      rwa [Nat.div_lt_iff_lt_mul positive, Nat.mul_comm, whole]
    have found := @List.getElem?_eq_getElem _ (handedOut count (hardware / count) hardware)
      (cpu / (hardware / count)) (by rwa [length_handedOut])
    refine ⟨_, ⟨inside, _, found, (mem_handedOut found).mpr ⟨bound, rfl⟩⟩, ?_⟩
    rintro index ⟨_, node, other, member⟩
    exact ((mem_handedOut other).mp member).2.symm
  · intro node member
    obtain ⟨index, found⟩ := List.mem_iff_getElem?.mp member
    have inside : index < count := by
      obtain ⟨bound, -⟩ := List.getElem?_eq_some_iff.mp found
      exact lt_of_lt_of_eq bound length_handedOut
    -- the first CPU of the node
    have first : index * (hardware / count) ∈ node.cpus.map Cpu.id := by
      rw [mem_handedOut found]
      refine ⟨?_, Nat.mul_div_cancel index positive⟩
      calc
        index * (hardware / count) < count * (hardware / count) :=
          Nat.mul_lt_mul_of_pos_right inside positive
        _ = hardware := by rw [Nat.mul_comm, whole]
    intro empty
    rw [empty] at first
    exact List.not_mem_nil first

/--
The virtual nodes partition the CPUs exactly when their number divides the number of
CPUs: the remainder lands behind the last node.
-/
theorem getManualNumaNodes_partitions_iff (one : 1 ≤ count) (le : count ≤ hardware)
    (small : hardware < 2 ^ 24) :
    (∃ nodes, getManualNumaNodes hardware count = some nodes ∧
      Partitions hardware count nodes) ↔ count ∣ hardware := by
  rw [getManualNumaNodes_eq one le small]
  constructor
  · rintro ⟨nodes, made, _⟩
    by_contra remainder
    rw [if_neg remainder] at made
    exact absurd made (by simp)
  · intro divides
    exact ⟨_, if_pos divides, partitions_handedOut one le divides⟩

/-- The theorem at twelve CPUs and four nodes. -/
theorem getManualNumaNodes_partitions_twelve :
    (∃ nodes, getManualNumaNodes 12 4 = some nodes ∧ Partitions 12 4 nodes) ↔ 4 ∣ 12 :=
  getManualNumaNodes_partitions_iff (by decide) (by decide) (by decide)

end

/-- Six CPUs cannot be handed out to four nodes of one CPU each. -/
theorem getManualNumaNodes_out_of_range :
    ¬ ∀ hardware count, 1 ≤ count → count ≤ hardware → hardware < 2 ^ 24 →
      ∃ nodes, getManualNumaNodes hardware count = some nodes ∧
        Partitions hardware count nodes := by
  intro claimed
  obtain ⟨nodes, made, _⟩ := claimed 6 4 (by decide) (by decide) (by decide)
  rw [getManualNumaNodes_eq (by decide) (by decide) (by decide), if_neg (by decide)] at made
  exact absurd made (by simp)

end AsyncRuntime.Runtime.NumaNodes
