import AsyncRuntime.WorkGroup.Model

/-!
# What a call of a work group does

`Post` finds a slot for the task, or places the entity of the task, or hands the
task to the scheduler; `DeleteEntity` removes an entity that has been placed.
Neither changes which slots there are, nor on which CPUs their workers run.
-/

namespace AsyncRuntime.WorkGroup

open AsyncRuntime.Foundation

namespace Group

variable {group next : Group} {task : Task} {now : ℤ} {posted : Posted}
  {entity : BitVec 16}

/-- The slot of a task whose entity needs no placement. -/
def settledSlot (group : Group) (state : ExecutionState) : Option ℕ :=
  match group.processorSlot state with
  | some index => some index
  | none =>
      if state.tag = invalidObjectId then some 0
      else group.entitiesPeerSlot.lookup state.entity

theorem post_eq (group : Group) (task : Task) (now : ℤ) :
    group.post task now =
      if task.getDelay now ≤ 0 then
        match group.settledSlot task.state with
        | some index => group.postSlot (task.setExecutionStateWg group.id) index
        | none =>
            group.placeEntity (task.setExecutionStateWg group.id) task.state.entity
      else some (group, ⟨task.setExecutionStateWg group.id, .scheduler⟩) := by
  rw [post, settledSlot]
  refine if_congr Iff.rfl ?_ rfl
  -- the work group of the task takes no part in the choice
  have processor_eq :
      group.processorSlot (task.setExecutionStateWg group.id).state =
        group.processorSlot task.state := rfl
  have tag_eq : (task.setExecutionStateWg group.id).state.tag = task.state.tag := rfl
  have entity_eq :
      (task.setExecutionStateWg group.id).state.entity = task.state.entity := rfl
  rw [processor_eq]
  cases group.processorSlot task.state with
  | some index => rfl
  | none =>
      simp only [tag_eq, entity_eq, postEntity]
      split <;> rfl

/-- What `Post` does. -/
theorem post_cases (result : group.post task now = some (next, posted)) :
    posted.task = task.setExecutionStateWg group.id ∧
      (0 < task.getDelay now ∧ posted.destination = .scheduler ∧ next = group ∨
        task.getDelay now ≤ 0 ∧
          ∃ index slot, group.slots[index]? = some slot ∧
            posted.destination = .slot index (slot.post posted.task.state) ∧
            (group.settledSlot task.state = some index ∧ next = group ∨
              group.settledSlot task.state = none ∧
                leastLoaded group.getUtil group.slots.length = some index ∧
                next = group.addEntity index slot.id task.state.entity)) := by
  rw [post_eq] at result
  split at result
  · rename_i due
    cases settled : group.settledSlot task.state with
    | some index =>
        rw [settled] at result
        simp only [postSlot, Option.map_eq_some_iff, Prod.mk.injEq] at result
        rcases result with ⟨slot, slotAt, rfl, rfl⟩
        exact ⟨rfl, .inr ⟨due, index, slot, slotAt, rfl, .inl ⟨rfl, rfl⟩⟩⟩
    | none =>
        rw [settled] at result
        simp only [placeEntity] at result
        split at result
        · cases result
        · rename_i index chosen
          simp only [Option.map_eq_some_iff, Prod.mk.injEq] at result
          rcases result with ⟨slot, slotAt, rfl, rfl⟩
          exact
            ⟨rfl, .inr ⟨due, index, slot, slotAt, rfl, .inr ⟨rfl, chosen, rfl⟩⟩⟩
  · rename_i delayed
    cases result
    exact ⟨rfl, .inl ⟨not_le.mp delayed, rfl, rfl⟩⟩

/-- What `DeleteEntity` does. -/
theorem deleteEntity_cases (result : group.deleteEntity entity = some next) :
    group.entitiesPeerSlot.lookup entity = none ∧ next = group ∨
      ∃ index slot,
        group.entitiesPeerSlot.lookup entity = some index ∧
          group.slots[index]? = some slot ∧
          next = group.removeEntity index entity := by
  rw [deleteEntity] at result
  cases placed : group.entitiesPeerSlot.lookup entity with
  | none =>
      rw [placed] at result
      cases result
      exact .inl ⟨rfl, rfl⟩
  | some index =>
      rw [placed] at result
      simp only [Option.map_eq_some_iff] at result
      rcases result with ⟨slot, slotAt, rfl⟩
      exact .inr ⟨index, slot, rfl, slotAt, rfl⟩

/-! ## What stays -/

/-- The same slots on the same CPUs, under the same name. -/
structure SameShape (group next : Group) : Prop where
  id_eq : next.id = group.id
  name_eq : next.name = group.name
  cpusPeerSlot_eq : next.cpusPeerSlot = group.cpusPeerSlot
  slots_eq :
    next.slots.map (fun slot => (slot.id, slot.cpus)) =
      group.slots.map (fun slot => (slot.id, slot.cpus))

namespace SameShape

theorem refl (group : Group) : SameShape group group :=
  ⟨rfl, rfl, rfl, rfl⟩

theorem trans {last : Group} (first : SameShape group next)
    (second : SameShape next last) : SameShape group last :=
  ⟨second.id_eq.trans first.id_eq, second.name_eq.trans first.name_eq,
    second.cpusPeerSlot_eq.trans first.cpusPeerSlot_eq,
    second.slots_eq.trans first.slots_eq⟩

/-- A slot keeps its CPUs. -/
theorem exists_slot (shape : SameShape group next) {index : ℕ} {slot : Slot}
    (slotAt : group.slots[index]? = some slot) :
    ∃ later, next.slots[index]? = some later ∧ later.id = slot.id ∧
      later.cpus = slot.cpus := by
  have here := congrArg (·[index]?) shape.slots_eq
  simp only [List.getElem?_map, slotAt, Option.map_some,
    Option.map_eq_some_iff, Prod.mk.injEq] at here
  rcases here with ⟨later, laterAt, id_eq, cpus_eq⟩
  exact ⟨later, laterAt, id_eq, cpus_eq⟩

end SameShape

/-- Changing the counter of one slot leaves ids and CPUs alone. -/
theorem map_modify_slots (slots : List Slot) (index : ℕ) {change : Slot → Slot}
    (keeps : ∀ slot, (change slot).id = slot.id ∧ (change slot).cpus = slot.cpus) :
    (slots.modify index change).map (fun slot => (slot.id, slot.cpus)) =
      slots.map (fun slot => (slot.id, slot.cpus)) := by
  apply List.ext_getElem?
  intro position
  rw [List.getElem?_map, List.getElem?_map, List.getElem?_modify]
  cases slots[position]? with
  | none => rfl
  | some slot =>
      by_cases same : index = position
      · simp [same, keeps slot]
      · simp [same]

theorem sameShape_post (result : group.post task now = some (next, posted)) :
    SameShape group next := by
  rcases post_cases result with
    ⟨-, ⟨-, -, rfl⟩ | ⟨-, index, slot, -, -, ⟨-, rfl⟩ | ⟨-, -, rfl⟩⟩⟩
  · exact .refl _
  · exact .refl _
  · exact ⟨rfl, rfl, rfl, map_modify_slots _ index fun _ => ⟨rfl, rfl⟩⟩

theorem sameShape_deleteEntity
    (result : group.deleteEntity entity = some next) : SameShape group next := by
  rcases deleteEntity_cases result with ⟨-, rfl⟩ | ⟨index, slot, -, -, rfl⟩
  · exact .refl _
  · exact ⟨rfl, rfl, rfl, map_modify_slots _ index fun _ => ⟨rfl, rfl⟩⟩

/-- What a call does, and what it posts. -/
theorem call_cases {command : Call} {output : Option Posted}
    (result : group.call command = some (next, output)) :
    (∃ task now posted, command = .post task now ∧ output = some posted ∧
        group.post task now = some (next, posted)) ∨
      ∃ entity, command = .deleteEntity entity ∧ output = none ∧
        group.deleteEntity entity = some next := by
  cases command with
  | post task now =>
      simp only [call, Option.map_eq_some_iff, Prod.mk.injEq] at result
      rcases result with ⟨⟨called, posted⟩, post_eq, rfl, rfl⟩
      exact .inl ⟨task, now, posted, rfl, rfl, post_eq⟩
  | deleteEntity entity =>
      simp only [call, Option.map_eq_some_iff, Prod.mk.injEq] at result
      rcases result with ⟨called, delete_eq, rfl, rfl⟩
      exact .inr ⟨entity, rfl, rfl, delete_eq⟩

theorem sameShape_call {command : Call} {output : Option Posted}
    (result : group.call command = some (next, output)) :
    SameShape group next := by
  rcases call_cases result with
    ⟨task, now, posted, -, -, post_eq⟩ | ⟨entity, -, -, delete_eq⟩
  · exact sameShape_post post_eq
  · exact sameShape_deleteEntity delete_eq

/-- A run begins with its first call. -/
theorem run_cons {first : Call} {rest : List Call} {outputs : List (Option Posted)}
    (result : group.run (first :: rest) = some (next, outputs)) :
    ∃ called output later, group.call first = some (called, output) ∧
      called.run rest = some (next, later) ∧ outputs = output :: later := by
  rw [run] at result
  split at result
  · cases result
  · rename_i called output call_eq
    simp only [Option.map_eq_some_iff, Prod.mk.injEq] at result
    rcases result with ⟨⟨last, later⟩, run_eq, rfl, rfl⟩
    exact ⟨called, output, later, call_eq, run_eq, rfl⟩

theorem sameShape_run {calls : List Call} {outputs : List (Option Posted)}
    (result : group.run calls = some (next, outputs)) : SameShape group next := by
  induction calls generalizing group outputs with
  | nil =>
      cases result
      exact .refl _
  | cons first rest inductionHypothesis =>
      rcases run_cons result with ⟨called, output, later, call_eq, run_eq, -⟩
      exact (sameShape_call call_eq).trans (inductionHypothesis run_eq)

end Group

end AsyncRuntime.WorkGroup
