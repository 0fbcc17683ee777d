import AsyncRuntime.Foundation.TransitionSystem
import AsyncRuntime.WorkGroup.Identity

/-!
# Entity tags

`AddEntityTag` chooses the CPU executor with the fewest entities, takes an entity
id from it, and packs the index of the executor and the id into a tag.  The tag is
unpacked in three places: `FetchExecutor` finds the executor that a task is posted
to, `ExecutorWorkGroup::Post` books the entity with a slot, and `DeleteEntityTag`
finds the executor again and releases what was booked.

The executors stand in the order of the map of the runtime, and an executor is its
place there.  Executors of other types take no part in any of this except that they
are skipped.  A ghost list records each tag that was returned, with the executor and
the id behind it.  Between its tag and the deletion of it an id is live; the callers
delete live tags only, and ids that are live on one executor are distinct.
-/

namespace AsyncRuntime.Runtime.EntityTags

open AsyncRuntime.Foundation
open AsyncRuntime.WorkGroup

/-- `ExecutorType`. -/
inductive ExecutorType where
  | cpu
  | io
  | user
  deriving DecidableEq

/-- An `IExecutor *` of the map: an `Executor` with its index, or another one. -/
inductive AnyExecutor where
  | cpu (index : ℕ) (executor : Executor)
  | io
  | user

/-- `GetType`. -/
def AnyExecutor.getType : AnyExecutor → ExecutorType
  | .cpu _ _ => .cpu
  | .io => .io
  | .user => .user

/-- `GetType() == type && GetIndex() == id`. -/
def AnyExecutor.matches (executor : AnyExecutor) (type : ExecutorType)
    (id : BitVec 16) : Bool :=
  match executor with
  | .cpu index _ => decide (type = .cpu ∧ index = id.toNat)
  -- the other executors keep the index they were made with
  | other => decide (other.getType = type ∧ id.toNat = 0)

/-- `INT_MAX`. -/
def intMax : ℤ :=
  2147483647

/-- The fields of `Runtime` that tags and posting use. -/
structure Registry where
  executors : List AnyExecutor
  mainExecutor : ℕ

namespace Registry

/-- The loop of `FetchFreeExecutor(kCPU_EXECUTOR)` from a place of the map on. -/
def freeLoop : List AnyExecutor → ℕ → ℤ → Option ℕ → Option ℕ
  | [], _, _, chosen => chosen
  | .cpu _ executor :: rest, place, min, chosen =>
      if executor.entitiesCount < min then
        freeLoop rest (place + 1) executor.entitiesCount (some place)
      else
        freeLoop rest (place + 1) min chosen
  | _ :: rest, place, min, chosen => freeLoop rest (place + 1) min chosen

/-- `FetchFreeExecutor(kCPU_EXECUTOR)`. -/
def fetchFreeExecutor (runtime : Registry) : Option ℕ :=
  freeLoop runtime.executors 0 intMax none

/-- `FetchExecutor(type, tag)`. -/
def fetchExecutor (runtime : Registry) (type : ExecutorType) (tag : BitVec 64) :
    Option ℕ :=
  runtime.executors.findIdx? (·.matches type (unpack (tag.setWidth 32)).1)

/-- The CPU executor at a place. -/
def cpuAt (runtime : Registry) (place : ℕ) : Option (ℕ × Executor) :=
  match runtime.executors[place]? with
  | some (.cpu index executor) => some (index, executor)
  | _ => none

/-- An executor has changed. -/
def setCpu (runtime : Registry) (place index : ℕ) (executor : Executor) : Registry :=
  { runtime with executors := runtime.executors.set place (.cpu index executor) }

/--
`AddEntityTag`: the tag, with the executor and the id behind it.  Both numbers pass
through `int16_t` on their way to `Pack`, which keeps their bits.
-/
def addEntityTag (runtime : Registry) : Registry × BitVec 64 × Option (ℕ × BitVec 16) :=
  match runtime.fetchFreeExecutor with
  | none => (runtime, invalidObjectId, none)
  | some place =>
      match runtime.cpuAt place with
      | none => (runtime, invalidObjectId, none)
      | some (index, executor) =>
          let added := executor.addEntity
          (runtime.setCpu place index added.1,
            (pack (BitVec.ofNat 16 index) added.2).setWidth 64,
            some (place, added.2))

/-- `DeleteEntityTag`. -/
def deleteEntityTag (runtime : Registry) (tag : BitVec 64) : Option Registry :=
  match runtime.fetchExecutor .cpu tag with
  | none => some runtime
  | some place =>
      match runtime.cpuAt place with
      | none => none
      | some (index, executor) =>
          (executor.deleteEntity (unpack (tag.setWidth 32)).2).map
            (runtime.setCpu place index)

/-- The executor that `Runtime::Post` chooses. -/
def route (runtime : Registry) (state : ExecutionState) : ℕ :=
  match state.executor with
  | some place => place
  | none =>
      (if state.tag = invalidObjectId then
        runtime.fetchFreeExecutor
      else
        runtime.fetchExecutor .cpu state.tag).getD runtime.mainExecutor

/-- `Runtime::Post`, with the reading of the clock, to a CPU executor. -/
def post (runtime : Registry) (task : Task) (now : ℤ) : Option (Registry × Posted) :=
  let place := runtime.route task.state
  match runtime.cpuAt place with
  | none => none
  | some (index, executor) =>
      (executor.post place task now).map fun result =>
        (runtime.setCpu place index result.1, result.2)

end Registry

/-! ## Runs -/

/-- A tag that was returned, with the executor and the id behind it. -/
structure Issue where
  tag : BitVec 64
  place : ℕ
  entity : BitVec 16
  deriving DecidableEq

/-- The runtime, the tags that were returned, and those not deleted yet. -/
structure State where
  runtime : Registry
  issued : List Issue
  live : List Issue

/-- The calls on a runtime. -/
inductive Action where
  | addEntityTag
  | deleteEntityTag (issue : Issue)
  | post (task : Task) (now : ℤ)

/-- A call; only what was returned can be deleted, and only once. -/
def next (state : State) : Action → Option State
  | .addEntityTag =>
      match state.runtime.addEntityTag with
      | (runtime, _, none) => some { state with runtime := runtime }
      | (runtime, tag, some (place, entity)) =>
          some
            { runtime := runtime
              issued := state.issued ++ [⟨tag, place, entity⟩]
              live := state.live ++ [⟨tag, place, entity⟩] }
  | .deleteEntityTag issue =>
      if issue ∈ state.live then
        (state.runtime.deleteEntityTag issue.tag).map fun runtime =>
          { state with runtime := runtime, live := state.live.erase issue }
      else
        none
  | .post task now =>
      (state.runtime.post task now).map fun result =>
        { state with runtime := result.1 }

/-- The id of a new tag is not live on its executor. -/
def FreshIds (state : State) : Action → Prop
  | .addEntityTag =>
      ∀ place entity, state.runtime.addEntityTag.2.2 = some (place, entity) →
        ∀ issue ∈ state.live, issue.place = place → issue.entity ≠ entity
  | _ => True

/-- New CPU executors with different indexes that fit the packing. -/
structure Registry.Fresh (runtime : Registry) : Prop where
  created :
    ∀ place index executor, runtime.cpuAt place = some (index, executor) →
      ∃ hardware cpus options, Executor.create hardware cpus options = some executor
  index_lt :
    ∀ place index executor, runtime.cpuAt place = some (index, executor) →
      index < 2 ^ 15
  distinct :
    ∀ first second index left right, runtime.cpuAt first = some (index, left) →
      runtime.cpuAt second = some (index, right) → first = second

/-- The calls on a runtime as a transition system. -/
def system : TransitionSystem State Action where
  initial := fun state =>
    state.runtime.Fresh ∧ state.issued = [] ∧ state.live = []
  next := next

/-! ## Packing -/

theorem unpack_pack (executor entity : BitVec 16) :
    unpack (pack executor entity) = (executor, entity) := by
  unfold unpack pack
  ext index bound
  · simp [bound, show index < 32 by omega, show 16 + index < 32 by omega]
  · simp

/-- A tag is unpacked to what was packed, whatever bits the two numbers have. -/
theorem unpack_tag (executor entity : BitVec 16) :
    unpack (((pack executor entity).setWidth 64).setWidth 32) = (executor, entity) := by
  rw [BitVec.setWidth_setWidth_of_le _ (by decide), BitVec.setWidth_eq, unpack_pack]

/-- Half of the executors' numbers is enough to keep clear of `UINT_MAX`. -/
theorem tag_ne_invalidObjectId {executor entity : BitVec 16}
    (small : executor.toNat < 2 ^ 15) :
    (pack executor entity).setWidth 64 ≠ invalidObjectId := by
  intro same
  have packed := unpack_tag executor entity
  rw [same] at packed
  have all : executor = 0xFFFF#16 := by
    have halves : unpack (invalidObjectId.setWidth 32) = (0xFFFF#16, 0xFFFF#16) := by
      decide
    rw [halves] at packed
    exact (Prod.mk.inj packed).1.symm
  rw [all] at small
  exact absurd small (by decide)

/-! ## Reading and writing the map -/

namespace Registry

variable {runtime : Registry} {place index : ℕ} {executor : Executor}

theorem cpuAt_eq_some :
    runtime.cpuAt place = some (index, executor) ↔
      runtime.executors[place]? = some (.cpu index executor) := by
  unfold cpuAt
  split
  · rename_i found
    rw [found]
    simp
  · rename_i other
    constructor
    · intro impossible
      cases impossible
    · intro found
      exact absurd found (other index executor)

theorem cpuAt_setCpu_self (present : runtime.cpuAt place = some (index, executor))
    (written : Executor) :
    (runtime.setCpu place index written).cpuAt place = some (index, written) := by
  have bound := (List.getElem?_eq_some_iff.mp (cpuAt_eq_some.mp present)).1
  rw [cpuAt_eq_some, setCpu, List.getElem?_set_self bound]

theorem cpuAt_setCpu_of_ne {other : ℕ} (different : other ≠ place)
    (written : Executor) :
    (runtime.setCpu place index written).cpuAt other = runtime.cpuAt other := by
  simp only [cpuAt, setCpu, List.getElem?_set_ne (Ne.symm different)]

/-- What stands at a place after a write. -/
theorem cpuAt_setCpu_cases (present : runtime.cpuAt place = some (index, executor))
    {written found : Executor} {other number : ℕ}
    (read : (runtime.setCpu place index written).cpuAt other = some (number, found)) :
    (other = place ∧ number = index ∧ found = written) ∨
      (other ≠ place ∧ runtime.cpuAt other = some (number, found)) := by
  by_cases same : other = place
  · subst same
    rw [cpuAt_setCpu_self present] at read
    cases read
    exact .inl ⟨rfl, rfl, rfl⟩
  · rw [cpuAt_setCpu_of_ne same] at read
    exact .inr ⟨same, read⟩

/-! ## The free executor -/

theorem freeLoop_some (executors : List AnyExecutor) (start : ℕ) (min : ℤ) (chosen : ℕ) :
    ∃ place, freeLoop executors start min (some chosen) = some place := by
  induction executors generalizing start min chosen with
  | nil => exact ⟨chosen, rfl⟩
  | cons first rest inductionHypothesis =>
      cases first with
      | cpu index executor =>
          rw [freeLoop]
          split
          · exact inductionHypothesis _ _ _
          · exact inductionHypothesis _ _ _
      | io => exact inductionHypothesis _ _ _
      | user => exact inductionHypothesis _ _ _

theorem freeLoop_eq_none {executors : List AnyExecutor} {start : ℕ} {min : ℤ} :
    freeLoop executors start min none = none ↔
      ∀ index executor, AnyExecutor.cpu index executor ∈ executors →
        min ≤ executor.entitiesCount := by
  induction executors generalizing start with
  | nil => simp [freeLoop]
  | cons first rest inductionHypothesis =>
      cases first with
      | cpu index executor =>
          rw [freeLoop]
          split
          · rename_i less
            obtain ⟨place, found⟩ :=
              freeLoop_some rest (start + 1) executor.entitiesCount start
            rw [found]
            constructor
            · intro impossible
              cases impossible
            · intro all
              have enough := all index executor List.mem_cons_self
              omega
          · rename_i enough
            rw [inductionHypothesis]
            constructor
            · intro all other found member
              rcases List.mem_cons.mp member with same | later
              · cases same
                omega
              · exact all other found later
            · intro all other found member
              exact all other found (List.mem_cons_of_mem _ member)
      | io =>
          rw [freeLoop, inductionHypothesis]
          · simp
          · simp
      | user =>
          rw [freeLoop, inductionHypothesis]
          · simp
          · simp

theorem freeLoop_eq_some {executors : List AnyExecutor} {start place : ℕ} {min : ℤ}
    {chosen : Option ℕ} (found : freeLoop executors start min chosen = some place) :
    chosen = some place ∨
      ∃ offset index executor, place = start + offset ∧
        executors[offset]? = some (.cpu index executor) := by
  induction executors generalizing start min chosen with
  | nil => exact .inl found
  | cons first rest inductionHypothesis =>
      have later :
          (∃ offset index executor, place = start + 1 + offset ∧
            rest[offset]? = some (.cpu index executor)) →
          ∃ offset index executor, place = start + offset ∧
            (first :: rest)[offset]? = some (.cpu index executor) := by
        rintro ⟨offset, index, executor, place_eq, at_offset⟩
        exact ⟨offset + 1, index, executor, by omega, by simpa using at_offset⟩
      cases first with
      | cpu index executor =>
          rw [freeLoop] at found
          split at found
          · rcases inductionHypothesis found with same | further
            · cases same
              exact .inr ⟨0, index, executor, rfl, rfl⟩
            · exact .inr (later further)
          · exact (inductionHypothesis found).imp_right later
      | io => exact (inductionHypothesis found).imp_right later
      | user => exact (inductionHypothesis found).imp_right later

theorem exists_cpuAt_of_fetchFreeExecutor
    (found : runtime.fetchFreeExecutor = some place) :
    ∃ index executor, runtime.cpuAt place = some (index, executor) := by
  rcases freeLoop_eq_some found with impossible | ⟨offset, index, executor, place_eq, present⟩
  · cases impossible
  · rw [Nat.zero_add] at place_eq
    subst place_eq
    exact ⟨index, executor, cpuAt_eq_some.mpr present⟩

/-- What `AddEntityTag` does. -/
theorem addEntityTag_cases (runtime : Registry) :
    (runtime.fetchFreeExecutor = none ∧
      runtime.addEntityTag = (runtime, invalidObjectId, none)) ∨
    ∃ place index executor,
      runtime.cpuAt place = some (index, executor) ∧
      runtime.addEntityTag =
        (runtime.setCpu place index executor.addEntity.1,
          (pack (BitVec.ofNat 16 index) executor.addEntity.2).setWidth 64,
          some (place, executor.addEntity.2)) := by
  cases found : runtime.fetchFreeExecutor with
  | none => exact .inl ⟨rfl, by simp [addEntityTag, found]⟩
  | some place =>
      obtain ⟨index, executor, present⟩ := exists_cpuAt_of_fetchFreeExecutor found
      exact .inr ⟨place, index, executor, present, by simp [addEntityTag, found, present]⟩

end Registry

/-- What `AddEntity` does to an executor. -/
theorem addEntity_fields (executor : Executor) :
    executor.addEntity.1.entitiesCount = executor.entitiesCount + 1 ∧
      executor.addEntity.1.groups = executor.groups := by
  unfold Executor.addEntity
  split
  · exact ⟨rfl, rfl⟩
  · exact ⟨rfl, rfl⟩

/-! ## What a deletion releases -/

/-- A group has given up what was booked under an entity, and nothing else. -/
def ReleasedGroup (entity : BitVec 16) (group next : Group) : Prop :=
  group.entitiesPeerSlot.lookup entity = none ∧ next = group ∨
    ∃ index slot,
      group.entitiesPeerSlot.lookup entity = some index ∧
      group.slots[index]? = some slot ∧ 1 ≤ slot.entitiesCount ∧
      next =
        { group with
          slots :=
            group.slots.set index { slot with entitiesCount := slot.entitiesCount - 1 }
          entitiesPeerSlot := group.entitiesPeerSlot.erase entity }

theorem releasedGroup_of_deleteEntity {entity : BitVec 16} {group next : Group}
    (accounted : group.Accounted) (deleted : group.deleteEntity entity = some next) :
    ReleasedGroup entity group next := by
  rcases Group.deleteEntity_cases deleted with ⟨absent, rfl⟩ | ⟨index, slot, placed, slotAt, rfl⟩
  · exact .inl ⟨absent, rfl⟩
  · have load := EntityMap.load_erase placed index
    have counted := accounted.counted index slot slotAt
    rw [if_pos rfl] at load
    have positive : 1 ≤ slot.entitiesCount := by omega
    refine .inr ⟨index, slot, placed, slotAt, positive, ?_⟩
    have lowered :
        slot.deleteEntity = { slot with entitiesCount := slot.entitiesCount - 1 } := by
      rw [Slot.deleteEntity, if_neg (by omega)]
    have modified :
        group.slots.modify index Slot.deleteEntity =
          group.slots.set index slot.deleteEntity := by
      rw [List.modify_eq_set_getElem?, slotAt]
      rfl
    rw [Group.removeEntity, modified, lowered]

theorem releasedGroups_of_deleteFromGroups {entity : BitVec 16}
    {groups deleted : List Group} (accounted : ∀ group ∈ groups, group.Accounted)
    (result : Executor.deleteFromGroups entity groups = some deleted) :
    List.Forall₂ (ReleasedGroup entity) groups deleted := by
  induction groups generalizing deleted with
  | nil =>
      cases result
      exact .nil
  | cons group rest inductionHypothesis =>
      rw [Executor.deleteFromGroups] at result
      split at result
      · cases result
      · rename_i next delete_eq
        obtain ⟨others, others_eq, rfl⟩ := Option.map_eq_some_iff.mp result
        have here := accounted group List.mem_cons_self
        refine .cons (releasedGroup_of_deleteEntity here delete_eq) ?_
        exact inductionHypothesis
          (fun other member => accounted other (List.mem_cons_of_mem group member)) others_eq

/-! ## The invariant -/

/-- What holds of a runtime and its tags after any calls. -/
structure Sound (state : State) : Prop where
  index_lt :
    ∀ place index executor, state.runtime.cpuAt place = some (index, executor) →
      index < 2 ^ 15
  distinct :
    ∀ first second index left right, state.runtime.cpuAt first = some (index, left) →
      state.runtime.cpuAt second = some (index, right) → first = second
  accounted :
    ∀ place index executor, state.runtime.cpuAt place = some (index, executor) →
      ∀ group ∈ executor.groups, group.Accounted
  counted :
    ∀ place index executor, state.runtime.cpuAt place = some (index, executor) →
      executor.entitiesCount = (state.live.countP (·.place = place) : ℤ)
  packed :
    ∀ issue ∈ state.issued, ∃ index executor,
      state.runtime.cpuAt issue.place = some (index, executor) ∧
        issue.tag = (pack (BitVec.ofNat 16 index) issue.entity).setWidth 64
  live_issued : ∀ issue ∈ state.live, issue ∈ state.issued
  apart :
    state.live.Pairwise fun left right =>
      left.place = right.place → left.entity ≠ right.entity

theorem Registry.Fresh.sound {runtime : Registry} (fresh : runtime.Fresh) :
    Sound ⟨runtime, [], []⟩ where
  index_lt := fresh.index_lt
  distinct := fresh.distinct
  accounted := by
    intro place index executor present
    obtain ⟨hardware, cpus, options, created⟩ := fresh.created place index executor present
    exact (Issuing.start created).groups
  counted := by
    intro place index executor present
    obtain ⟨hardware, cpus, options, created⟩ := fresh.created place index executor present
    rw [Executor.create] at created
    split at created
    · cases created
    · cases created
    · cases created
      rfl
  packed := by simp
  live_issued := by simp
  apart := .nil

/-- One executor is written, and the lists of tags follow it. -/
theorem Sound.write {state : State} (sound : Sound state) {place index : ℕ}
    {executor written : Executor} {issued live : List Issue}
    (present : state.runtime.cpuAt place = some (index, executor))
    (accounted : ∀ group ∈ written.groups, group.Accounted)
    (counted : written.entitiesCount = (live.countP (·.place = place) : ℤ))
    (others :
      ∀ other, other ≠ place →
        live.countP (·.place = other) = state.live.countP (·.place = other))
    (packed :
      ∀ issue ∈ issued, issue ∈ state.issued ∨
        issue.place = place ∧
          issue.tag = (pack (BitVec.ofNat 16 index) issue.entity).setWidth 64)
    (live_issued : ∀ issue ∈ live, issue ∈ issued)
    (apart :
      live.Pairwise fun left right =>
        left.place = right.place → left.entity ≠ right.entity) :
    Sound ⟨state.runtime.setCpu place index written, issued, live⟩ := by
  refine ⟨?_, ?_, ?_, ?_, ?_, live_issued, apart⟩
  · intro other number found read
    rcases Registry.cpuAt_setCpu_cases present read with ⟨-, rfl, -⟩ | ⟨-, earlier⟩
    · exact sound.index_lt place _ executor present
    · exact sound.index_lt other number found earlier
  · intro first second number left right readFirst readSecond
    rcases Registry.cpuAt_setCpu_cases present readFirst with
      ⟨rfl, rfl, -⟩ | ⟨-, earlierFirst⟩
    · rcases Registry.cpuAt_setCpu_cases present readSecond with
        ⟨rfl, -, -⟩ | ⟨-, earlierSecond⟩
      · rfl
      · exact sound.distinct _ _ _ _ _ present earlierSecond
    · rcases Registry.cpuAt_setCpu_cases present readSecond with
        ⟨rfl, rfl, -⟩ | ⟨-, earlierSecond⟩
      · exact sound.distinct _ _ _ _ _ earlierFirst present
      · exact sound.distinct _ _ _ _ _ earlierFirst earlierSecond
  · intro other number found read
    rcases Registry.cpuAt_setCpu_cases present read with ⟨-, -, rfl⟩ | ⟨-, earlier⟩
    · exact accounted
    · exact sound.accounted other number found earlier
  · intro other number found read
    rcases Registry.cpuAt_setCpu_cases present read with ⟨rfl, -, rfl⟩ | ⟨different, earlier⟩
    · exact counted
    · rw [others other different]
      exact sound.counted other number found earlier
  · intro issue member
    rcases packed issue member with earlier | ⟨rfl, tag_eq⟩
    · obtain ⟨number, found, read, tag_eq⟩ := sound.packed issue earlier
      by_cases same : issue.place = place
      · rw [same, present] at read
        cases read
        exact ⟨index, written, by rw [same]; exact Registry.cpuAt_setCpu_self present written,
          tag_eq⟩
      · exact ⟨number, found, by
          rw [Registry.cpuAt_setCpu_of_ne same]
          exact read, tag_eq⟩
    · exact ⟨index, written, Registry.cpuAt_setCpu_self present written, tag_eq⟩

theorem Sound.addEntityTag {state target : State} (sound : Sound state)
    (fresh : FreshIds state .addEntityTag)
    (taken : next state .addEntityTag = some target) : Sound target := by
  rcases state.runtime.addEntityTag_cases with
    ⟨-, result⟩ | ⟨place, index, executor, present, result⟩
  · simp only [next, result, Option.some.injEq] at taken
    subst taken
    exact ⟨sound.index_lt, sound.distinct, sound.accounted, sound.counted, sound.packed,
      sound.live_issued, sound.apart⟩
  · simp only [next, result, Option.some.injEq] at taken
    subst taken
    obtain ⟨count_eq, groups_eq⟩ := addEntity_fields executor
    have counted := sound.counted place index executor present
    refine sound.write present ?_ ?_ ?_ ?_ ?_ ?_
    · rw [groups_eq]
      exact sound.accounted place index executor present
    · rw [count_eq, counted, List.countP_append]
      simp
    · intro other different
      simp [List.countP_append, Ne.symm different]
    · intro issue member
      rcases List.mem_append.mp member with earlier | new
      · exact .inl earlier
      · rw [List.mem_singleton.mp new]
        exact .inr ⟨rfl, rfl⟩
    · intro issue member
      rcases List.mem_append.mp member with earlier | new
      · exact List.mem_append_left _ (sound.live_issued issue earlier)
      · exact List.mem_append_right _ new
    · refine List.pairwise_append.mpr ⟨sound.apart, List.pairwise_singleton _ _, ?_⟩
      intro issue member new isNew
      rw [List.mem_singleton.mp isNew]
      exact fresh place executor.addEntity.2 (by rw [result]) issue member

/-- What `FetchExecutor` finds for a tag that was returned. -/
theorem Sound.fetchExecutor {state : State} (sound : Sound state) {issue : Issue}
    (member : issue ∈ state.issued) :
    state.runtime.fetchExecutor .cpu issue.tag = some issue.place := by
  obtain ⟨index, executor, present, tag_eq⟩ := sound.packed issue member
  have small := sound.index_lt _ _ _ present
  have atPlace := Registry.cpuAt_eq_some.mp present
  obtain ⟨bound, element⟩ := List.getElem?_eq_some_iff.mp atPlace
  have number : (BitVec.ofNat 16 index).toNat = index := by
    rw [BitVec.toNat_ofNat]
    omega
  unfold Registry.fetchExecutor
  rw [tag_eq, unpack_tag, List.findIdx?_eq_some_iff_getElem]
  refine ⟨bound, ?_, ?_⟩
  · simp [element, AnyExecutor.matches, number]
  · intro earlier before
    have inside := before.trans bound
    cases read : state.runtime.executors[earlier] with
    | cpu other found =>
        simp only [AnyExecutor.matches, number, true_and, decide_eq_true_eq]
        rintro rfl
        have earlierPresent : state.runtime.cpuAt earlier = some (other, found) := by
          rw [Registry.cpuAt_eq_some, List.getElem?_eq_getElem inside, read]
        exact absurd (sound.distinct _ _ _ _ _ earlierPresent present) before.ne
    | io => simp [AnyExecutor.matches, AnyExecutor.getType]
    | user => simp [AnyExecutor.matches, AnyExecutor.getType]

/--
A deletion has released what was booked under the id of a tag: the executor behind
the tag has one entity less, each of its groups has given up the slot of the id, and
nothing else has changed.
-/
structure Released (runtime after : Registry) (issue : Issue) : Prop where
  others :
    ∀ place, place ≠ issue.place → after.executors[place]? = runtime.executors[place]?
  main_eq : after.mainExecutor = runtime.mainExecutor
  issuer :
    ∃ index executor written,
      runtime.cpuAt issue.place = some (index, executor) ∧
      after.cpuAt issue.place = some (index, written) ∧
      written.entitiesCount = executor.entitiesCount - 1 ∧
      written.entitiesInc = executor.entitiesInc ∧
      List.Forall₂ (ReleasedGroup issue.entity) executor.groups written.groups

theorem countP_live_pos {live : List Issue} {issue : Issue} (member : issue ∈ live) :
    0 < live.countP (·.place = issue.place) :=
  List.countP_pos_iff.mpr ⟨issue, member, by simp⟩

/-- What `DeleteEntityTag` does to a live tag. -/
theorem Sound.deleteEntityTag {state : State} (sound : Sound state) {issue : Issue}
    (member : issue ∈ state.live) :
    ∃ index executor written,
      state.runtime.cpuAt issue.place = some (index, executor) ∧
      state.runtime.deleteEntityTag issue.tag =
        some (state.runtime.setCpu issue.place index written) ∧
      written.entitiesCount = executor.entitiesCount - 1 ∧
      written.entitiesInc = executor.entitiesInc ∧
      List.Forall₂ (ReleasedGroup issue.entity) executor.groups written.groups ∧
      ∀ group ∈ written.groups, group.Accounted := by
  have member_issued := sound.live_issued issue member
  obtain ⟨index, executor, present, tag_eq⟩ := sound.packed issue member_issued
  have fetched := sound.fetchExecutor member_issued
  have entity_eq : (unpack (issue.tag.setWidth 32)).2 = issue.entity := by
    rw [tag_eq, unpack_tag]
  have groupsAccounted := sound.accounted _ _ _ present
  obtain ⟨groups, deleted, accounted⟩ :=
    Executor.exists_deleteFromGroups issue.entity groupsAccounted
  have counted := sound.counted _ _ _ present
  have positive := countP_live_pos member
  refine ⟨index, executor,
    { executor with
      entitiesCount := executor.entitiesCount - 1
      groups := groups }, present, ?_, rfl, rfl, ?_, accounted⟩
  · simp only [Registry.deleteEntityTag, fetched, present, entity_eq,
      Executor.deleteEntity, deleted, Option.map_some]
    rw [if_neg (by omega)]
  · exact releasedGroups_of_deleteFromGroups groupsAccounted deleted

theorem Sound.released {state : State} (sound : Sound state) {issue : Issue}
    (member : issue ∈ state.live) :
    ∃ after, state.runtime.deleteEntityTag issue.tag = some after ∧
      Released state.runtime after issue := by
  obtain ⟨index, executor, written, present, deleted, count_eq, inc_eq, groups, -⟩ :=
    sound.deleteEntityTag member
  refine ⟨_, deleted, ?_, rfl, ?_⟩
  · intro place different
    exact List.getElem?_set_ne (Ne.symm different)
  · exact ⟨index, executor, written, present,
      Registry.cpuAt_setCpu_self present written, count_eq, inc_eq, groups⟩

theorem Sound.delete {state target : State} (sound : Sound state) {issue : Issue}
    (taken : next state (.deleteEntityTag issue) = some target) : Sound target := by
  simp only [next] at taken
  split at taken
  · rename_i member
    obtain ⟨index, executor, written, present, deleted, count_eq, -, -, accounted⟩ :=
      sound.deleteEntityTag member
    rw [deleted, Option.map_some, Option.some.injEq] at taken
    subst taken
    have counted := sound.counted _ _ _ present
    have erased := List.countP_erase (fun other : Issue => decide (other.place = issue.place))
      state.live issue
    have positive := countP_live_pos member
    refine sound.write present accounted ?_ ?_ ?_ ?_ ?_
    · rw [count_eq, counted, erased]
      simp only [member, decide_true, and_self, if_true]
      omega
    · intro other different
      rw [List.countP_erase]
      simp [Ne.symm different]
    · intro other earlier
      exact .inl earlier
    · intro other earlier
      exact sound.live_issued other (List.mem_of_mem_erase earlier)
    · exact sound.apart.sublist List.erase_sublist
  · cases taken

/-- What `Post` does. -/
theorem post_cases {runtime after : Registry} {task : Task} {now : ℤ} {posted : Posted}
    (result : runtime.post task now = some (after, posted)) :
    ∃ index executor group written,
      runtime.cpuAt (runtime.route task.state) = some (index, executor) ∧
      executor.groups[Executor.groupIndex task.state]? = some group ∧
      group.post
          { task with
            state := { task.state with executor := some (runtime.route task.state) } }
          now =
        some (written, posted) ∧
      after =
        runtime.setCpu (runtime.route task.state) index
          { executor with
            groups := executor.groups.set (Executor.groupIndex task.state) written } := by
  simp only [Registry.post] at result
  cases present : runtime.cpuAt (runtime.route task.state) with
  | none => simp [present] at result
  | some found =>
      obtain ⟨index, executor⟩ := found
      -- the executor of the task takes no part in the choice of the group
      have group_index_eq :
          Executor.groupIndex
              { task.state with executor := some (runtime.route task.state) } =
            Executor.groupIndex task.state := rfl
      simp only [present, Executor.post, group_index_eq] at result
      cases chosen : executor.groups[Executor.groupIndex task.state]? with
      | none => simp [chosen] at result
      | some group =>
          simp only [chosen, Option.map_map, Option.map_eq_some_iff] at result
          obtain ⟨⟨written, sent⟩, group_eq, same⟩ := result
          cases same
          exact ⟨index, executor, group, written, rfl, chosen, group_eq, rfl⟩

theorem Sound.post {state target : State} (sound : Sound state) {task : Task} {now : ℤ}
    (taken : next state (.post task now) = some target) : Sound target := by
  obtain ⟨⟨after, posted⟩, result, rfl⟩ := Option.map_eq_some_iff.mp taken
  obtain ⟨index, executor, group, written, present, chosen, group_eq, rfl⟩ :=
    post_cases result
  have accounted := sound.accounted _ _ _ present
  have counted := sound.counted _ _ _ present
  refine sound.write present ?_ counted (fun _ _ => rfl)
    (fun _ member => .inl member) sound.live_issued sound.apart
  intro other member
  rcases List.mem_or_eq_of_mem_set member with earlier | rfl
  · exact accounted other earlier
  · exact (accounted group (List.mem_of_getElem? chosen)).post group_eq

theorem sound_of_reachable {state : State}
    (reachable : system.ReachableUnder FreshIds state) : Sound state := by
  refine reachable.invariant ?_ ?_
  · rintro ⟨runtime, issued, live⟩ ⟨fresh, rfl, rfl⟩
    exact fresh.sound
  · intro source action target _ fresh taken sound
    cases action with
    | addEntityTag => exact sound.addEntityTag fresh taken
    | deleteEntityTag issue => exact sound.delete taken
    | post task now => exact sound.post taken

/-! ## A tag leads back to what it reserved -/

/-- The group that a task is posted to, when there is one. -/
def Registry.groupOf (runtime : Registry) (place : ℕ) (state : ExecutionState) :
    Option Group :=
  (runtime.cpuAt place).bind fun found =>
    found.2.groups[Executor.groupIndex state]?

/-- The group of the task books the entity with a slot. -/
def Booked (after : Registry) (place : ℕ) (state : ExecutionState)
    (entity : BitVec 16) (index : ℕ) : Prop :=
  ∃ group, after.groupOf place state = some group ∧
    group.entitiesPeerSlot.lookup entity = some index

/--
A task with a tag is booked under the entity of the tag, unless it has a delay or
runs where its processor is.
-/
theorem booked_of_post {runtime after : Registry} {task : Task} {now : ℤ}
    {posted : Posted} (valid : task.state.tag ≠ invalidObjectId)
    (due : task.getDelay now ≤ 0)
    (unknown :
      ∀ group, runtime.groupOf (runtime.route task.state) task.state = some group →
        group.processorSlot task.state = none)
    (accounted :
      ∀ group, runtime.groupOf (runtime.route task.state) task.state = some group →
        group.Accounted)
    (result : runtime.post task now = some (after, posted)) :
    ∃ index queue,
      Booked after (runtime.route task.state) task.state task.state.entity index ∧
        posted.destination = .slot index queue := by
  obtain ⟨number, executor, group, written, present, chosen, group_eq, rfl⟩ :=
    post_cases result
  have group_of : runtime.groupOf (runtime.route task.state) task.state = some group := by
    simp [Registry.groupOf, present, chosen]
  have bound := (List.getElem?_eq_some_iff.mp chosen).1
  have settled_eq :
      group.settledSlot
          { task.state with executor := some (runtime.route task.state) } =
        group.entitiesPeerSlot.lookup task.state.entity := by
    have processor_eq :
        group.processorSlot
            { task.state with executor := some (runtime.route task.state) } = none :=
      unknown group group_of
    rw [Group.settledSlot, processor_eq]
    exact if_neg valid
  have booked :
      ∀ index, written.entitiesPeerSlot.lookup task.state.entity = some index →
        Booked
          (runtime.setCpu (runtime.route task.state) number
            { executor with
              groups := executor.groups.set (Executor.groupIndex task.state) written })
          (runtime.route task.state) task.state task.state.entity index := by
    intro index found
    refine ⟨written, ?_, found⟩
    simp [Registry.groupOf, Registry.cpuAt_setCpu_self present, bound]
  rcases Group.post_cases group_eq with
    ⟨-, ⟨delayed, -⟩ | ⟨-, index, slot, slotAt, destination,
      ⟨settled, rfl⟩ | ⟨-, -, rfl⟩⟩⟩
  · exact absurd due (not_le.mpr delayed)
  · exact ⟨index, _, booked index (settled_eq.symm.trans settled), destination⟩
  · refine ⟨index, _, booked index ?_, destination⟩
    rw [Group.addEntity_entitiesPeerSlot,
      (accounted group group_of).numbered index slot slotAt]
    exact AList.lookup_insert _

/-- What holds of the tags that were returned. -/
structure TagLaws (state : State) : Prop where
  /-- A runtime with a CPU executor never refuses a tag. -/
  refused :
    state.runtime.addEntityTag.2.1 = invalidObjectId ↔
      ∀ place, state.runtime.cpuAt place = none
  valid : ∀ issue ∈ state.issued, issue.tag ≠ invalidObjectId
  fetched :
    ∀ issue ∈ state.issued,
      state.runtime.fetchExecutor .cpu issue.tag = some issue.place
  /-- A task is booked if its delay is over and its group does not know its processor. -/
  booked :
    ∀ issue ∈ state.issued, ∀ task now after posted,
      task.state.tag = issue.tag →
      state.runtime.post task now = some (after, posted) →
      task.getDelay now ≤ 0 →
      (∀ group,
        state.runtime.groupOf (state.runtime.route task.state) task.state = some group →
          group.processorSlot task.state = none) →
      (task.state.executor = none → state.runtime.route task.state = issue.place) ∧
        ∃ index queue,
          Booked after (state.runtime.route task.state) task.state issue.entity index ∧
            posted.destination = .slot index queue
  released :
    ∀ issue ∈ state.live, ∃ after,
      state.runtime.deleteEntityTag issue.tag = some after ∧
        Released state.runtime after issue
  /-- The other live tags of the same executor have other ids. -/
  apart :
    ∀ issue ∈ state.live, ∀ other ∈ state.live, other ≠ issue →
      other.place = issue.place → other.entity ≠ issue.entity

theorem Sound.valid {state : State} (sound : Sound state) {issue : Issue}
    (member : issue ∈ state.issued) : issue.tag ≠ invalidObjectId := by
  obtain ⟨index, executor, present, tag_eq⟩ := sound.packed issue member
  have small := sound.index_lt _ _ _ present
  rw [tag_eq]
  apply tag_ne_invalidObjectId
  rw [BitVec.toNat_ofNat]
  omega

/-- Live tags of one executor are no more than there are ids. -/
theorem Sound.countP_live_le {state : State} (sound : Sound state) (place : ℕ) :
    state.live.countP (·.place = place) ≤ 65536 := by
  have distinct :
      ((state.live.filter (·.place = place)).map (·.entity.toNat)).Nodup := by
    rw [List.Nodup, List.pairwise_map]
    refine (sound.apart.filter _).imp_of_mem ?_
    intro left right leftMember rightMember apart same
    have here := (List.mem_filter.mp leftMember).2
    have there := (List.mem_filter.mp rightMember).2
    rw [decide_eq_true_eq] at here there
    exact apart (here.trans there.symm) (BitVec.eq_of_toNat_eq same)
  have bounded :
      (state.live.filter (·.place = place)).map (·.entity.toNat) ⊆ List.range 65536 := by
    intro number member
    obtain ⟨issue, -, rfl⟩ := List.mem_map.mp member
    exact List.mem_range.mpr issue.entity.isLt
  calc
    state.live.countP (·.place = place) =
        ((state.live.filter (·.place = place)).map (·.entity.toNat)).length := by
      rw [List.length_map, List.countP_eq_length_filter]
    _ ≤ (List.range 65536).length := (List.subperm_of_subset distinct bounded).length_le
    _ = 65536 := List.length_range

/-- No executor ever has as many entities as `FetchFreeExecutor` starts from. -/
theorem Sound.entitiesCount_lt {state : State} (sound : Sound state)
    {place index : ℕ} {executor : Executor}
    (present : state.runtime.cpuAt place = some (index, executor)) :
    executor.entitiesCount < intMax := by
  have counted := sound.counted place index executor present
  have few := sound.countP_live_le place
  rw [intMax]
  omega

theorem Sound.refused {state : State} (sound : Sound state) :
    state.runtime.addEntityTag.2.1 = invalidObjectId ↔
      ∀ place, state.runtime.cpuAt place = none := by
  rcases state.runtime.addEntityTag_cases with
    ⟨absent, result⟩ | ⟨place, index, executor, present, result⟩
  · rw [result]
    refine ⟨fun _ => ?_, fun _ => rfl⟩
    intro place
    rw [Option.eq_none_iff_forall_ne_some]
    rintro ⟨index, executor⟩ present
    rw [Registry.fetchFreeExecutor, Registry.freeLoop_eq_none] at absent
    have full := absent index executor (List.mem_of_getElem? (Registry.cpuAt_eq_some.mp present))
    exact absurd (sound.entitiesCount_lt present) full.not_gt
  · rw [result]
    have small := sound.index_lt place index executor present
    constructor
    · intro impossible
      refine absurd impossible (tag_ne_invalidObjectId ?_)
      rw [BitVec.toNat_ofNat]
      omega
    · intro absent
      exact absurd ((absent place).symm.trans present) (by simp)

theorem Sound.booked {state : State} (sound : Sound state) {issue : Issue}
    (member : issue ∈ state.issued) {task : Task} {now : ℤ} {after : Registry}
    {posted : Posted} (tag_eq : task.state.tag = issue.tag)
    (result : state.runtime.post task now = some (after, posted))
    (due : task.getDelay now ≤ 0)
    (unknown :
      ∀ group,
        state.runtime.groupOf (state.runtime.route task.state) task.state = some group →
          group.processorSlot task.state = none) :
    (task.state.executor = none → state.runtime.route task.state = issue.place) ∧
      ∃ index queue,
        Booked after (state.runtime.route task.state) task.state issue.entity index ∧
          posted.destination = .slot index queue := by
  obtain ⟨number, executor, -, packed⟩ := sound.packed issue member
  have valid : task.state.tag ≠ invalidObjectId := by
    rw [tag_eq]
    exact sound.valid member
  have entity_eq : task.state.entity = issue.entity := by
    rw [ExecutionState.entity, tag_eq, packed, unpack_tag]
  constructor
  · intro unbound
    simp [Registry.route, unbound, tag_eq, sound.valid member, sound.fetchExecutor member]
  · rw [← entity_eq]
    refine booked_of_post valid due unknown ?_ result
    intro group group_of
    obtain ⟨⟨index, found⟩, present, chosen⟩ := Option.bind_eq_some_iff.mp group_of
    exact sound.accounted _ _ _ present group (List.mem_of_getElem? chosen)

/-- A tag leads back to exactly what it reserved. -/
theorem tag_leads_back {state : State}
    (reachable : system.ReachableUnder FreshIds state) : TagLaws state := by
  have sound := sound_of_reachable reachable
  constructor
  · exact sound.refused
  · intro issue member
    exact sound.valid member
  · intro issue member
    exact sound.fetchExecutor member
  · intro issue member task now after posted tag_eq result due unknown
    exact sound.booked member tag_eq result due unknown
  · intro issue member
    exact sound.released member
  · intro issue member other otherMember different
    have symmetric :
        Std.Symm fun left right : Issue =>
          left.place = right.place → left.entity ≠ right.entity :=
      ⟨fun _ _ apart same => (apart same.symm).symm⟩
    exact sound.apart.forall otherMember member different

/-! ## A runtime with one executor -/

/-- An executor with one group of one slot on one CPU. -/
def loneExecutor : Executor where
  entitiesInc := 0
  entitiesCount := 0
  groups :=
    [{ id := 0
       name := "main"
       slots := [{ id := 0, cpus := [0#64] }]
       cpusPeerSlot := Function.update (fun _ => none) 0#32 (some 0)
       entitiesPeerSlot := ∅ }]

/-- Nothing has been called yet. -/
def loneState : State where
  runtime := { executors := [.cpu 0 loneExecutor, .io], mainExecutor := 0 }
  issued := []
  live := []

theorem loneState_initial : system.initial loneState := by
  have only :
      ∀ place index executor,
        loneState.runtime.cpuAt place = some (index, executor) →
          place = 0 ∧ index = 0 ∧ executor = loneExecutor := by
    intro place index executor present
    rw [Registry.cpuAt_eq_some] at present
    match place with
    | 0 =>
        cases present
        exact ⟨rfl, rfl, rfl⟩
    | 1 => cases present
    | place + 2 => cases present
  refine ⟨⟨?_, ?_, ?_⟩, rfl, rfl⟩
  · intro place index executor present
    obtain ⟨-, -, rfl⟩ := only place index executor present
    exact ⟨1, [0#64], [loneOption], rfl⟩
  · intro place index executor present
    obtain ⟨-, rfl, -⟩ := only place index executor present
    decide
  · intro first second index left right presentFirst presentSecond
    rw [(only _ _ _ presentFirst).1, (only _ _ _ presentSecond).1]

/-- The first tag of a runtime with one executor. -/
def loneTagged : State where
  runtime :=
    { executors :=
        [.cpu 0 { loneExecutor with entitiesInc := 1, entitiesCount := 1 }, .io]
      mainExecutor := 0 }
  issued := [⟨0#64, 0, 0#16⟩]
  live := [⟨0#64, 0, 0#16⟩]

theorem loneTagged_reachable : system.ReachableUnder FreshIds loneTagged := by
  have fresh : FreshIds loneState .addEntityTag := by
    intro place entity _ issue member
    cases member
  exact .step (.start loneState_initial) fresh rfl

/-- The first tag is 0; its first task is booked with slot 0. -/
theorem tag_leads_back_lone :
    TagLaws loneTagged ∧
      ∃ after posted,
        loneTagged.runtime.post ⟨{ tag := 0#64 }, 0⟩ 0 = some (after, posted) ∧
        ∃ index, Booked after 0 { tag := 0#64 } 0#16 index := by
  have laws := tag_leads_back loneTagged_reachable
  refine ⟨laws, _, _, rfl, ?_⟩
  obtain ⟨-, index, queue, booked, -⟩ :=
    laws.booked ⟨0#64, 0, 0#16⟩ (by simp [loneTagged]) ⟨{ tag := 0#64 }, 0⟩ 0 _ _ rfl rfl
      (by decide) (by
        intro group group_of
        rfl)
  exact ⟨index, booked⟩

/-- A task that has run on the CPU of its group is not booked. -/
theorem unbooked_on_known_processor :
    ¬ ∀ state, system.ReachableUnder FreshIds state →
      ∀ issue ∈ state.issued, ∀ task now after posted,
        task.state.tag = issue.tag →
        state.runtime.post task now = some (after, posted) →
        ∃ index,
          Booked after (state.runtime.route task.state) task.state issue.entity index := by
  intro claim
  obtain ⟨index, group, group_of, found⟩ :=
    claim loneTagged loneTagged_reachable ⟨0#64, 0, 0#16⟩ (by simp [loneTagged])
      ⟨{ tag := 0#64, processor := 0#64 }, 0⟩ 0 _ _ rfl rfl
  cases group_of
  cases found

end AsyncRuntime.Runtime.EntityTags
