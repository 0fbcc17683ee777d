import Mathlib.Algebra.BigOperators.Ring.Finset
import AsyncRuntime.WorkGroup.Calls

/-!
# Entities stay with their slot

The first task of an entity places the entity on a slot with the fewest entities;
later tasks follow it there until the entity is deleted.  The counter of a slot
is kept beside the map of entities, and both change together: the clamp in
`delete_entity` is never reached.
-/

namespace AsyncRuntime.WorkGroup

open AsyncRuntime.Foundation

/-! ## Counting the entities of a slot -/

/-- A map from entities to slots. -/
abbrev EntityMap := AList (fun _ : BitVec 16 => ℕ)

/-- The number of entities that are mapped to a slot. -/
def EntityMap.load (map : EntityMap) (index : ℕ) : ℕ :=
  map.entries.countP fun entry => entry.2 = index

namespace EntityMap

variable {map : EntityMap} {entity : BitVec 16}

theorem load_insert (absent : map.lookup entity = none) (index other : ℕ) :
    load (map.insert entity index) other =
      map.load other + if index = other then 1 else 0 := by
  rw [load, AList.entries_insert_of_notMem (AList.lookup_eq_none.mp absent),
    List.countP_cons, load]
  simp

/-- An entity that is erased leaves its slot. -/
theorem load_erase {index : ℕ} (placed : map.lookup entity = some index)
    (other : ℕ) :
    map.load other =
      load (map.erase entity) other + if index = other then 1 else 0 := by
  have member : entity ∈ map.entries.keys := by
    apply List.dlookup_isSome.mp
    exact Option.isSome_iff_exists.mpr ⟨index, placed⟩
  rcases List.exists_of_kerase member with
    ⟨value, front, back, notFront, entries_eq, erased_eq⟩
  have value_eq : value = index := by
    have found : map.entries.dlookup entity = some index := placed
    rw [entries_eq, List.dlookup_append, List.dlookup_eq_none.mpr notFront,
      List.dlookup_cons_eq] at found
    exact Option.some.inj found
  have erased : (map.erase entity).entries = front ++ back := erased_eq
  rw [load, load, erased, entries_eq, value_eq, List.countP_append,
    List.countP_append, List.countP_cons, Nat.add_assoc]
  simp

/-- The loads of all slots add up to the size of the map. -/
theorem sum_load {size : ℕ}
    (bounded : ∀ entity index, map.lookup entity = some index → index < size) :
    ((List.range size).map map.load).sum = map.entries.length := by
  have values : ∀ entry ∈ map.entries, entry.2 < size := fun entry member =>
    bounded entry.1 entry.2 (List.mem_dlookup map.nodupKeys member)
  have counted (entries : List (Sigma fun _ : BitVec 16 => ℕ))
      (inRange : ∀ entry ∈ entries, entry.2 < size) :
      ((List.range size).map fun index =>
        entries.countP fun entry => entry.2 = index).sum = entries.length := by
    induction entries with
    | nil => simp
    | cons first rest inductionHypothesis =>
        have single :
            ((List.range size).map fun index =>
              if first.2 = index then 1 else 0).sum = 1 := by
          change ∑ index ∈ Finset.range size, (if first.2 = index then 1 else 0) = 1
          simp [inRange first List.mem_cons_self]
        have tail := inductionHypothesis fun entry member =>
          inRange entry (List.mem_cons_of_mem first member)
        simp only [List.countP_cons, decide_eq_true_eq, List.sum_map_add]
        rw [tail, single, List.length_cons]
  exact counted map.entries values

/-- There are only so many entities, so no counter leaves the range of an `int`. -/
theorem load_le (map : EntityMap) (index : ℕ) : map.load index ≤ 65536 := by
  have distinct : (map.keys.map BitVec.toNat).Nodup :=
    map.keys_nodup.map fun left right => BitVec.eq_of_toNat_eq
  have inRange : map.keys.map BitVec.toNat ⊆ List.range 65536 := by
    intro number member
    rcases List.mem_map.mp member with ⟨entity, -, rfl⟩
    exact List.mem_range.mpr entity.isLt
  have few := (distinct.subperm inRange).length_le
  rw [List.length_map, List.length_range] at few
  have keys_length : map.keys.length = map.entries.length :=
    List.length_map Sigma.fst
  rw [keys_length] at few
  exact List.countP_le_length.trans few

end EntityMap

/-! ## The invariant of a group -/

/-- Slots are numbered by their position, and every map points to a slot. -/
structure Group.Accounted (group : Group) : Prop where
  nonempty : 0 < group.slots.length
  numbered :
    ∀ index (slot : Slot), group.slots[index]? = some slot → slot.id = index
  counted :
    ∀ index slot, group.slots[index]? = some slot →
      slot.entitiesCount = (EntityMap.load group.entitiesPeerSlot index : ℤ)
  placed :
    ∀ entity index, group.entitiesPeerSlot.lookup entity = some index →
      index < group.slots.length
  known :
    ∀ key index, group.cpusPeerSlot key = some index →
      index < group.slots.length

/-- A slot after the counter of one slot has changed. -/
theorem getElem?_modify_cases {slots : List Slot} {index position : ℕ}
    {change : Slot → Slot} {slot : Slot}
    (slotAt : (slots.modify index change)[position]? = some slot) :
    ∃ before, slots[position]? = some before ∧
      slot = if index = position then change before else before := by
  rw [List.getElem?_modify] at slotAt
  cases present : slots[position]? with
  | none =>
      rw [present] at slotAt
      cases slotAt
  | some before =>
      rw [present] at slotAt
      exact ⟨before, rfl, (Option.some.inj slotAt).symm⟩

namespace Group

variable {group next : Group} {task : Task} {now : ℤ} {entity : BitVec 16}
  {index : ℕ}

/-- A task that has no slot yet has a tag, and its entity is not placed. -/
theorem settledSlot_eq_none {state : ExecutionState}
    (unsettled : group.settledSlot state = none) :
    group.processorSlot state = none ∧ state.tag ≠ invalidObjectId ∧
      group.entitiesPeerSlot.lookup state.entity = none := by
  rw [settledSlot] at unsettled
  cases processor : group.processorSlot state with
  | some index =>
      rw [processor] at unsettled
      cases unsettled
  | none =>
      rw [processor] at unsettled
      by_cases untagged : state.tag = invalidObjectId
      · simp [untagged] at unsettled
      · exact ⟨rfl, untagged, by simpa [untagged] using unsettled⟩

/-- A tagged task without a known processor follows its entity. -/
theorem settledSlot_tagged {state : ExecutionState}
    (unknown : group.processorSlot state = none)
    (tagged : state.tag ≠ invalidObjectId) :
    group.settledSlot state = group.entitiesPeerSlot.lookup state.entity := by
  rw [settledSlot, unknown]
  exact if_neg tagged

namespace Accounted

theorem settledSlot_lt (accounted : group.Accounted) {state : ExecutionState}
    (settled : group.settledSlot state = some index) :
    index < group.slots.length := by
  rw [settledSlot] at settled
  cases processor : group.processorSlot state with
  | some found =>
      rw [processor] at settled
      cases settled
      rw [processorSlot] at processor
      split at processor
      · cases processor
      · exact accounted.known _ _ processor
  | none =>
      rw [processor] at settled
      by_cases untagged : state.tag = invalidObjectId
      · rw [if_pos untagged] at settled
        cases settled
        exact accounted.nonempty
      · rw [if_neg untagged] at settled
        exact accounted.placed _ _ settled

/-- A change of one slot that keeps its id leaves the slots numbered. -/
theorem numbered_modify (accounted : group.Accounted) {change : Slot → Slot}
    (same_id : ∀ slot, (change slot).id = slot.id) {position : ℕ} {slot : Slot}
    (slotAt : (group.slots.modify index change)[position]? = some slot) :
    slot.id = position := by
  rcases getElem?_modify_cases slotAt with ⟨before, beforeAt, rfl⟩
  rw [← accounted.numbered position before beforeAt]
  split
  · exact same_id before
  · rfl

/-- The entity is new, and the slot counts it. -/
theorem addEntity (accounted : group.Accounted)
    (absent : group.entitiesPeerSlot.lookup entity = none)
    (bound : index < group.slots.length) :
    (group.addEntity index index entity).Accounted := by
  constructor
  case nonempty =>
    rw [addEntity_slots, List.length_modify]
    exact accounted.nonempty
  case numbered =>
    intro position slot slotAt
    rw [addEntity_slots] at slotAt
    exact accounted.numbered_modify Slot.addEntity_id slotAt
  case counted =>
    intro position slot slotAt
    rcases getElem?_modify_cases slotAt with ⟨before, beforeAt, rfl⟩
    have count := accounted.counted position before beforeAt
    rw [addEntity_entitiesPeerSlot, EntityMap.load_insert absent]
    split
    · rw [Slot.addEntity_entitiesCount, count]
      push_cast
      rfl
    · rw [count, Nat.add_zero]
  case placed =>
    intro other position found
    rw [addEntity_slots, List.length_modify]
    by_cases same : other = entity
    · rw [same, addEntity_entitiesPeerSlot, AList.lookup_insert] at found
      cases found
      exact bound
    · rw [addEntity_entitiesPeerSlot, AList.lookup_insert_ne same] at found
      exact accounted.placed other position found
  case known =>
    intro key position found
    rw [addEntity_slots, List.length_modify]
    exact accounted.known key position found

/-- The slot has counted the entity, so the counter is positive. -/
theorem removeEntity (accounted : group.Accounted)
    (placed : group.entitiesPeerSlot.lookup entity = some index) :
    (group.removeEntity index entity).Accounted := by
  constructor
  case nonempty =>
    rw [removeEntity_slots, List.length_modify]
    exact accounted.nonempty
  case numbered =>
    intro position slot slotAt
    rw [removeEntity_slots] at slotAt
    exact accounted.numbered_modify Slot.deleteEntity_id slotAt
  case counted =>
    intro position slot slotAt
    rcases getElem?_modify_cases slotAt with ⟨before, beforeAt, rfl⟩
    have count := accounted.counted position before beforeAt
    rw [EntityMap.load_erase placed position] at count
    rw [removeEntity_entitiesPeerSlot]
    split
    · rename_i here
      rw [if_pos here] at count
      rw [Slot.deleteEntity_entitiesCount, if_neg (by omega)]
      omega
    · rename_i elsewhere
      rw [if_neg elsewhere, Nat.add_zero] at count
      exact count
  case placed =>
    intro other position found
    rw [removeEntity_slots, List.length_modify]
    by_cases same : other = entity
    · rw [same, removeEntity_entitiesPeerSlot, AList.lookup_erase] at found
      cases found
    · rw [removeEntity_entitiesPeerSlot, AList.lookup_erase_ne same] at found
      exact accounted.placed other position found
  case known =>
    intro key position found
    rw [removeEntity_slots, List.length_modify]
    exact accounted.known key position found

theorem exists_slot (accounted : group.Accounted) (bound : index < group.slots.length) :
    ∃ slot, group.slots[index]? = some slot ∧ slot.id = index :=
  ⟨_, List.getElem?_eq_getElem bound,
    accounted.numbered index _ (List.getElem?_eq_getElem bound)⟩

/-- `Post` finds a slot. -/
theorem exists_post (accounted : group.Accounted) (task : Task) (now : ℤ) :
    ∃ next posted, group.post task now = some (next, posted) := by
  rw [post_eq]
  split
  · cases settled : group.settledSlot task.state with
    | some index =>
        rcases accounted.exists_slot (accounted.settledSlot_lt settled) with
          ⟨slot, slotAt, -⟩
        simp only [postSlot, slotAt, Option.map_some]
        exact ⟨_, _, rfl⟩
    | none =>
        rcases exists_leastLoaded group.getUtil accounted.nonempty with
          ⟨index, chosen⟩
        rcases accounted.exists_slot (leastLoaded_lt chosen) with
          ⟨slot, slotAt, -⟩
        simp only [placeEntity, chosen, slotAt, Option.map_some]
        exact ⟨_, _, rfl⟩
  · exact ⟨_, _, rfl⟩

theorem exists_deleteEntity (accounted : group.Accounted) (entity : BitVec 16) :
    ∃ next, group.deleteEntity entity = some next := by
  rw [deleteEntity]
  cases placed : group.entitiesPeerSlot.lookup entity with
  | none => exact ⟨_, rfl⟩
  | some index =>
      rcases accounted.exists_slot (accounted.placed entity index placed) with
        ⟨slot, slotAt, -⟩
      simp only [slotAt, Option.map_some]
      exact ⟨_, rfl⟩

theorem post (accounted : group.Accounted) {posted : Posted}
    (result : group.post task now = some (next, posted)) : next.Accounted := by
  rcases post_cases result with
    ⟨-, ⟨-, -, rfl⟩ | ⟨-, index, slot, slotAt, -, ⟨-, rfl⟩ | ⟨unsettled, -, rfl⟩⟩⟩
  · exact accounted
  · exact accounted
  · rw [accounted.numbered index slot slotAt]
    exact accounted.addEntity (settledSlot_eq_none unsettled).2.2
      (List.getElem?_eq_some_iff.mp slotAt).1

theorem deleteEntity (accounted : group.Accounted)
    (result : group.deleteEntity entity = some next) : next.Accounted := by
  rcases deleteEntity_cases result with ⟨-, rfl⟩ | ⟨index, slot, placed, -, rfl⟩
  · exact accounted
  · exact accounted.removeEntity placed

/-- Every sequence of calls runs through, and keeps the accounts. -/
theorem run (accounted : group.Accounted) (calls : List Call) :
    ∃ later outputs, group.run calls = some (later, outputs) ∧ later.Accounted := by
  induction calls generalizing group with
  | nil => exact ⟨group, [], rfl, accounted⟩
  | cons first rest inductionHypothesis =>
      obtain ⟨called, output, call_eq, calledAccounted⟩ :
          ∃ called output, group.call first = some (called, output) ∧
            called.Accounted := by
        cases first with
        | post task now =>
            rcases accounted.exists_post task now with ⟨called, posted, post_eq⟩
            refine ⟨called, some posted, ?_, accounted.post post_eq⟩
            rw [call, post_eq, Option.map_some]
        | deleteEntity entity =>
            rcases accounted.exists_deleteEntity entity with ⟨called, delete_eq⟩
            refine ⟨called, none, ?_, accounted.deleteEntity delete_eq⟩
            rw [call, delete_eq, Option.map_some]
      rcases inductionHypothesis calledAccounted with
        ⟨later, outputs, run_eq, laterAccounted⟩
      refine ⟨later, output :: outputs, ?_, laterAccounted⟩
      rw [Group.run, call_eq]
      simp only [run_eq, Option.map_some]

end Accounted

end Group

/-! ## A new group -/

/-- The inner loop adds only entries for its own slot. -/
theorem assignCpus_peer {cpus : List CpuId} {slot count : ℕ}
    {assignment next : Assignment} {chosen all : List CpuId}
    (assigned : assignCpus cpus slot count assignment chosen = some (next, all))
    {key : BitVec 32} {index : ℕ} (found : next.cpusPeerSlot key = some index) :
    assignment.cpusPeerSlot key = some index ∨ index = slot := by
  induction count generalizing assignment chosen with
  | zero =>
      cases assigned
      exact .inl found
  | succ count inductionHypothesis =>
      rw [assignCpus] at assigned
      split at assigned
      · cases assigned
      · rename_i taken cpu step
        rw [assignCpu] at step
        split at step
        · cases step
        · rename_i turn chosen_eq
          simp only [Option.map_eq_some_iff, Prod.mk.injEq] at step
          rcases step with ⟨found_cpu, -, rfl, rfl⟩
          rcases inductionHypothesis assigned with old | new
          · rw [Assignment.take_cpusPeerSlot, Function.update_apply] at old
            split at old
            · exact .inr (Option.some.inj old).symm
            · exact .inl old
          · exact .inr new

/-- Slots without entities, numbered by position, that the peer map points to. -/
structure Fresh (assignment : Assignment) (slots : List Slot) : Prop where
  numbered : ∀ index (slot : Slot), slots[index]? = some slot → slot.id = index
  unloaded : ∀ slot ∈ slots, slot.entitiesCount = 0
  known :
    ∀ key index, assignment.cpusPeerSlot key = some index →
      index < slots.length

theorem Fresh.assignSlots {cpus : List CpuId} {concurrency count : ℕ}
    {assignment next : Assignment} {slots all : List Slot}
    (fresh : Fresh assignment slots)
    (assigned :
      assignSlots cpus concurrency count assignment slots = some (next, all)) :
    Fresh next all ∧ all.length = slots.length + count := by
  induction count generalizing assignment slots with
  | zero =>
      cases assigned
      exact ⟨fresh, rfl⟩
  | succ count inductionHypothesis =>
      rw [WorkGroup.assignSlots] at assigned
      split at assigned
      · cases assigned
      · rename_i taken chosen loop
        have longer : Fresh taken (slots ++ [{ id := slots.length, cpus := chosen }]) := by
          refine ⟨?_, ?_, ?_⟩
          · intro index slot slotAt
            rw [List.getElem?_append] at slotAt
            split at slotAt
            · exact fresh.numbered index slot slotAt
            · rw [List.getElem?_singleton] at slotAt
              split at slotAt
              · cases slotAt
                change slots.length = index
                omega
              · cases slotAt
          · intro slot member
            rw [List.mem_append, List.mem_singleton] at member
            rcases member with old | rfl
            · exact fresh.unloaded slot old
            · rfl
          · intro key index found
            rw [List.length_append, List.length_singleton]
            rcases assignCpus_peer loop found with old | rfl
            · exact Nat.lt_succ_of_lt (fresh.known key index old)
            · exact Nat.lt_succ_self _
        rcases inductionHypothesis longer assigned with ⟨done, length_eq⟩
        refine ⟨done, ?_⟩
        rw [length_eq, List.length_append, List.length_singleton]
        omega

theorem Group.create_accounted {hardware id : ℕ} {cpus : List CpuId}
    {option : WorkGroupOption} {cpusWg used : ℕ → ℕ} {group : Group}
    (created : Group.create hardware cpus id option cpusWg = some (group, used)) :
    group.Accounted := by
  rw [Group.create] at created
  split at created
  · cases created
  · simp only [Option.map_eq_some_iff, Prod.mk.injEq] at created
    rcases created with ⟨⟨next, slots⟩, assigned, rfl, rfl⟩
    have start : Fresh ⟨cpusWg, fun _ => none⟩ [] := by
      refine ⟨by simp, by simp, ?_⟩
      intro key index found
      cases found
    rcases start.assignSlots assigned with ⟨fresh, length_eq⟩
    constructor
    case nonempty =>
      have positive : 1 ≤ option.slotsCount hardware cpus.length :=
        le_max_left _ _
      rw [List.length_nil, Nat.zero_add] at length_eq
      rw [length_eq]
      exact positive
    case numbered => exact fresh.numbered
    case counted =>
      intro index slot slotAt
      exact fresh.unloaded slot (List.mem_of_getElem? slotAt)
    case placed =>
      intro entity index found
      rw [AList.lookup_empty] at found
      cases found
    case known => exact fresh.known

/-! ## Placement over whole runs -/

/-- What is promised of a group, for its entities. -/
structure Group.PlacementLaws (group : Group) : Prop where
  counted :
    ∀ index slot, group.slots[index]? = some slot →
      slot.entitiesCount = (EntityMap.load group.entitiesPeerSlot index : ℤ)
  range :
    ∀ slot ∈ group.slots, 0 ≤ slot.entitiesCount ∧ slot.entitiesCount ≤ 65536
  total :
    (group.slots.map Slot.entitiesCount).sum =
      (group.entitiesPeerSlot.entries.length : ℤ)
  first :
    ∀ (task : Task) (now : ℤ), task.getDelay now ≤ 0 →
      task.state.tag ≠ invalidObjectId →
      group.processorSlot task.state = none →
      group.entitiesPeerSlot.lookup task.state.entity = none →
      ∃ next task' index queue slot,
        group.post task now = some (next, ⟨task', .slot index queue⟩) ∧
          next.entitiesPeerSlot.lookup task.state.entity = some index ∧
          group.slots[index]? = some slot ∧
          ∀ other ∈ group.slots, slot.entitiesCount ≤ other.entitiesCount
  sticky :
    ∀ entity index, group.entitiesPeerSlot.lookup entity = some index →
      ∀ calls later outputs, group.run calls = some (later, outputs) →
        Call.deleteEntity entity ∉ calls →
        ∀ (task : Task) (now : ℤ), task.getDelay now ≤ 0 →
          task.state.tag ≠ invalidObjectId → task.state.entity = entity →
          later.processorSlot task.state = none →
          ∃ task' queue,
            later.post task now = some (later, ⟨task', .slot index queue⟩)
  released :
    ∀ entity index, group.entitiesPeerSlot.lookup entity = some index →
      ∃ next, group.deleteEntity entity = some next ∧
        next.entitiesPeerSlot.lookup entity = none ∧
        (∀ other, other ≠ entity →
          next.entitiesPeerSlot.lookup other = group.entitiesPeerSlot.lookup other) ∧
        ∀ position, (next.slots[position]?).map Slot.entitiesCount =
          (group.slots[position]?).map fun slot =>
            if index = position then slot.entitiesCount - 1 else slot.entitiesCount
  unknown :
    ∀ entity, group.entitiesPeerSlot.lookup entity = none →
      group.deleteEntity entity = some group

namespace Group

variable {group next : Group}

/-- Only `DeleteEntity` of an entity moves it. -/
theorem lookup_call {command : Call} {output : Option Posted}
    (result : group.call command = some (next, output)) {entity : BitVec 16}
    {index : ℕ} (placed : group.entitiesPeerSlot.lookup entity = some index)
    (kept : command ≠ .deleteEntity entity) :
    next.entitiesPeerSlot.lookup entity = some index := by
  rcases call_cases result with
    ⟨task, now, posted, rfl, -, post_eq⟩ | ⟨other, rfl, -, delete_eq⟩
  · rcases post_cases post_eq with
      ⟨-, ⟨-, -, rfl⟩ | ⟨-, found, slot, -, -, ⟨-, rfl⟩ | ⟨unsettled, -, rfl⟩⟩⟩
    · exact placed
    · exact placed
    · have absent := (settledSlot_eq_none unsettled).2.2
      have apart : entity ≠ task.state.entity := by
        rintro rfl
        rw [placed] at absent
        cases absent
      rw [addEntity_entitiesPeerSlot, AList.lookup_insert_ne apart]
      exact placed
  · rcases deleteEntity_cases delete_eq with ⟨-, rfl⟩ | ⟨found, slot, -, -, rfl⟩
    · exact placed
    · have apart : entity ≠ other := by
        rintro rfl
        exact kept rfl
      rw [removeEntity_entitiesPeerSlot, AList.lookup_erase_ne apart]
      exact placed

theorem lookup_run {calls : List Call} {outputs : List (Option Posted)}
    (result : group.run calls = some (next, outputs)) {entity : BitVec 16}
    {index : ℕ} (placed : group.entitiesPeerSlot.lookup entity = some index)
    (kept : Call.deleteEntity entity ∉ calls) :
    next.entitiesPeerSlot.lookup entity = some index := by
  induction calls generalizing group outputs with
  | nil =>
      cases result
      exact placed
  | cons first rest inductionHypothesis =>
      rcases run_cons result with ⟨called, output, later, call_eq, run_eq, -⟩
      have keptFirst : first ≠ .deleteEntity entity := by
        rintro rfl
        exact kept List.mem_cons_self
      exact inductionHypothesis run_eq (lookup_call call_eq placed keptFirst)
        fun member => kept (List.mem_cons_of_mem first member)

namespace Accounted

theorem total (accounted : group.Accounted) :
    (group.slots.map Slot.entitiesCount).sum =
      (group.entitiesPeerSlot.entries.length : ℤ) := by
  have counts :
      group.slots.map Slot.entitiesCount =
        ((List.range group.slots.length).map
          (EntityMap.load group.entitiesPeerSlot)).map (Nat.cast : ℕ → ℤ) := by
    apply List.ext_getElem?
    intro position
    rw [List.getElem?_map, List.getElem?_map, List.getElem?_map]
    cases present : group.slots[position]? with
    | none =>
        have past := List.getElem?_eq_none_iff.mp present
        rw [List.getElem?_eq_none_iff.mpr (by rw [List.length_range]; exact past)]
        rfl
    | some slot =>
        have bound := (List.getElem?_eq_some_iff.mp present).1
        rw [List.getElem?_range bound]
        simp only [Option.map_some]
        rw [accounted.counted position slot present]
  rw [counts, ← Nat.cast_list_sum, EntityMap.sum_load accounted.placed]

theorem first (accounted : group.Accounted) {task : Task} {now : ℤ}
    (due : task.getDelay now ≤ 0) (tagged : task.state.tag ≠ invalidObjectId)
    (unknown : group.processorSlot task.state = none)
    (absent : group.entitiesPeerSlot.lookup task.state.entity = none) :
    ∃ next task' index queue slot,
      group.post task now = some (next, ⟨task', .slot index queue⟩) ∧
        next.entitiesPeerSlot.lookup task.state.entity = some index ∧
        group.slots[index]? = some slot ∧
        ∀ other ∈ group.slots, slot.entitiesCount ≤ other.entitiesCount := by
  rcases accounted.exists_post task now with ⟨next, ⟨task', destination⟩, post_eq⟩
  have unsettled := (settledSlot_tagged unknown tagged).trans absent
  rcases post_cases post_eq with
    ⟨-, ⟨delayed, -⟩ | ⟨-, index, slot, slotAt, destination_eq, placement⟩⟩
  · omega
  · rcases placement with ⟨settled, -⟩ | ⟨-, chosen, rfl⟩
    · rw [unsettled] at settled
      cases settled
    · simp only at destination_eq
      subst destination_eq
      refine ⟨_, task', index, _, slot, post_eq, ?_, slotAt, ?_⟩
      · rw [accounted.numbered index slot slotAt, addEntity_entitiesPeerSlot,
          AList.lookup_insert]
      · intro other member
        rcases List.getElem?_of_mem member with ⟨position, otherAt⟩
        have least :=
          leastLoaded_le chosen (List.getElem?_eq_some_iff.mp otherAt).1
        rw [getUtil, getUtil, slotAt, otherAt] at least
        exact least

theorem sticky (accounted : group.Accounted) {entity : BitVec 16} {index : ℕ}
    (placed : group.entitiesPeerSlot.lookup entity = some index) {task : Task}
    {now : ℤ} (due : task.getDelay now ≤ 0)
    (tagged : task.state.tag ≠ invalidObjectId)
    (same : task.state.entity = entity)
    (unknown : group.processorSlot task.state = none) :
    ∃ task' queue,
      group.post task now = some (group, ⟨task', .slot index queue⟩) := by
  have settled : group.settledSlot task.state = some index := by
    rw [settledSlot_tagged unknown tagged, same, placed]
  rcases accounted.exists_slot (accounted.placed entity index placed) with
    ⟨slot, slotAt, -⟩
  rw [post_eq, if_pos due, settled]
  simp only [postSlot, slotAt, Option.map_some]
  exact ⟨_, _, rfl⟩

/-- `DeleteEntity` of a placed entity takes it from its slot, and from no other. -/
theorem released (accounted : group.Accounted) {entity : BitVec 16} {index : ℕ}
    (placed : group.entitiesPeerSlot.lookup entity = some index) :
    ∃ next, group.deleteEntity entity = some next ∧
      next.entitiesPeerSlot.lookup entity = none ∧
      (∀ other, other ≠ entity →
        next.entitiesPeerSlot.lookup other = group.entitiesPeerSlot.lookup other) ∧
      ∀ position, (next.slots[position]?).map Slot.entitiesCount =
        (group.slots[position]?).map fun slot =>
          if index = position then slot.entitiesCount - 1 else slot.entitiesCount := by
  rcases accounted.exists_slot (accounted.placed entity index placed) with
    ⟨slot, slotAt, -⟩
  refine ⟨group.removeEntity index entity, ?_, ?_, ?_, ?_⟩
  · rw [Group.deleteEntity, placed]
    simp only [slotAt, Option.map_some]
  · rw [removeEntity_entitiesPeerSlot, AList.lookup_erase]
  · intro other apart
    rw [removeEntity_entitiesPeerSlot, AList.lookup_erase_ne apart]
  · intro position
    rw [removeEntity_slots, List.getElem?_modify]
    cases before : group.slots[position]? with
    | none => rfl
    | some counting =>
        have count := accounted.counted position counting before
        rw [EntityMap.load_erase placed position] at count
        by_cases here : index = position
        · rw [if_pos here] at count
          simp only [here, if_true, Option.map_some, Option.map_eq_map,
            Slot.deleteEntity_entitiesCount]
          rw [if_neg (by omega)]
        · simp [here]

theorem laws (accounted : group.Accounted) : group.PlacementLaws := by
  constructor
  case counted => exact accounted.counted
  case range =>
    intro slot member
    rcases List.getElem?_of_mem member with ⟨index, slotAt⟩
    have few := EntityMap.load_le group.entitiesPeerSlot index
    rw [accounted.counted index slot slotAt]
    omega
  case total => exact accounted.total
  case first =>
    intro task now due tagged unknown absent
    exact accounted.first due tagged unknown absent
  case sticky =>
    intro entity index placed calls later outputs ran kept task now due tagged
      same unknown
    rcases accounted.run calls with ⟨reached, log, reached_eq, reachedAccounted⟩
    rw [reached_eq] at ran
    cases ran
    exact reachedAccounted.sticky (lookup_run reached_eq placed kept) due tagged
      same unknown
  case released =>
    intro entity index placed
    exact accounted.released placed
  case unknown =>
    intro entity absent
    rw [Group.deleteEntity, absent]

end Accounted

end Group

/--
For every new group and every sequence of calls: the calls run through, and the
placement of entities is exact, balanced and sticky in the state they reach.
-/
theorem placement_sound {hardware id : ℕ} {cpus : List CpuId}
    {option : WorkGroupOption} {cpusWg used : ℕ → ℕ} {group : Group}
    (created : Group.create hardware cpus id option cpusWg = some (group, used))
    (calls : List Group.Call) :
    ∃ later outputs,
      group.run calls = some (later, outputs) ∧ later.PlacementLaws := by
  rcases (Group.create_accounted created).run calls with
    ⟨later, outputs, run_eq, accounted⟩
  exact ⟨later, outputs, run_eq, accounted.laws⟩

/-- Two slots; an entity is placed, deleted twice and placed again. -/
theorem placement_sound_again :
    ∃ group used,
      Group.create 4 [0#64, 1#64] 0 ⟨"main", fun _ => 2, 1⟩ (fun _ => 0) =
          some (group, used) ∧
        ∃ later outputs,
          group.run
              [.post ⟨{ tag := 7#64 }, 0⟩ 5, .deleteEntity 7#16, .deleteEntity 7#16,
                .post ⟨{ tag := 7#64, processor := 3#64 }, 0⟩ 6] =
            some (later, outputs) ∧ later.PlacementLaws := by
  have built :
      (Group.create 4 [0#64, 1#64] 0 ⟨"main", fun _ => 2, 1⟩
        (fun _ => 0)).isSome = true := rfl
  rcases Option.isSome_iff_exists.mp built with ⟨⟨group, used⟩, created⟩
  exact ⟨group, used, created, placement_sound created _⟩

end AsyncRuntime.WorkGroup
