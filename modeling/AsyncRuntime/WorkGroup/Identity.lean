import AsyncRuntime.WorkGroup.Placement

/-!
# The ids of entities

`AddEntity` takes its ids from a counter of 16 bits that starts again near its
end, without looking at what is still in use.  At the end it returns 0 and also
resets the counter to 0, so 65500 calls of every 65501 yield the ids in order and
two calls in a row yield 0.

A caller deletes an entity by the id it has been given.  An entity is named here
by the number of the call that added it, so that two entities with the same id
remain two.
-/

namespace AsyncRuntime.WorkGroup

/-! ## Adding and deleting entities -/

/-- `AddEntity`, or `DeleteEntity` of the id that an earlier call returned. -/
inductive EntityCall where
  | add
  | delete (call : ℕ)
  deriving DecidableEq

/-- One call; the ids returned so far are kept in the order of the calls. -/
def Executor.entityStep (state : Executor × List (BitVec 16)) :
    EntityCall → Option (Executor × List (BitVec 16))
  | .add => some (state.1.addEntity.1, state.2 ++ [state.1.addEntity.2])
  | .delete call =>
      match state.2[call]? with
      | none => none
      | some id => (state.1.deleteEntity id).map fun executor => (executor, state.2)

/-- A sequence of calls on an executor. -/
def Executor.runEntities (executor : Executor) (calls : List EntityCall) :
    Option (Executor × List (BitVec 16)) :=
  calls.foldlM Executor.entityStep (executor, [])

/-- How often `AddEntity` has been called. -/
def addCount (calls : List EntityCall) : ℕ :=
  calls.count .add

/-- The calls of `AddEntity` whose entities have not been deleted. -/
def liveStep (live : ℕ × List ℕ) : EntityCall → ℕ × List ℕ
  | .add => (live.1 + 1, live.1 :: live.2)
  | .delete call => (live.1, live.2.erase call)

/-- The entities that are live after a sequence of calls. -/
def liveCalls (calls : List EntityCall) : List ℕ :=
  (calls.foldl liveStep (0, [])).2

/-- Only live entities are deleted, and at most 65000 are live at a time. -/
def Admissible (calls : List EntityCall) : Prop :=
  ∀ before call after, calls = before ++ call :: after →
    (∀ entity, call = .delete entity → entity ∈ liveCalls before) ∧
      (liveCalls (before ++ [call])).length ≤ 65000

/-- No call of `AddEntity` returns the id of a live entity. -/
def DistinctIds (executor : Executor) (calls : List EntityCall) : Prop :=
  ∀ before after, calls = before ++ .add :: after →
    ∀ reached ids, executor.runEntities before = some (reached, ids) →
      ∀ entity ∈ liveCalls before, ids[entity]? ≠ some reached.addEntity.2

/-- Two calls get the same place in the cycle of ids, whose ends are both 0. -/
def SameNumber (left right : ℕ) : Prop :=
  left % 65501 = right % 65501 ∨
    (left % 65501 = 0 ∨ left % 65501 = 65500) ∧
      (right % 65501 = 0 ∨ right % 65501 = 65500)

instance (left right : ℕ) : Decidable (SameNumber left right) :=
  inferInstanceAs (Decidable (_ ∨ _))

/-- The id that the call with this number returns. -/
def issued (call : ℕ) : BitVec 16 :=
  if call % 65501 = 65500 then 0 else BitVec.ofNat 16 (call % 65501)

/-! ## Which ids are issued -/

theorem toNat_issued (call : ℕ) :
    (issued call).toNat = if call % 65501 = 65500 then 0 else call % 65501 := by
  rw [issued]
  split
  · rfl
  · rw [BitVec.toNat_ofNat]
    omega

theorem issued_eq_iff (left right : ℕ) :
    issued left = issued right ↔ SameNumber left right := by
  rw [← BitVec.toNat_inj, toNat_issued, toNat_issued, SameNumber]
  split <;> split <;> omega

theorem addCount_append (calls : List EntityCall) (call : EntityCall) :
    addCount (calls ++ [call]) = addCount calls + if call = .add then 1 else 0 := by
  rw [addCount, List.count_append, List.count_singleton, addCount]
  cases call <;> rfl

theorem foldl_liveStep_fst (calls : List EntityCall) :
    (calls.foldl liveStep (0, [])).1 = addCount calls := by
  induction calls using List.reverseRecOn with
  | nil => rfl
  | append_singleton calls call inductionHypothesis =>
      rw [List.foldl_append, addCount_append, ← inductionHypothesis]
      cases call <;> rfl

theorem liveCalls_append (calls : List EntityCall) (call : EntityCall) :
    liveCalls (calls ++ [call]) =
      (liveStep (addCount calls, liveCalls calls) call).2 := by
  rw [liveCalls, List.foldl_append, ← foldl_liveStep_fst, liveCalls]
  rfl

/-- A live entity has been added. -/
theorem lt_addCount_of_mem_liveCalls {calls : List EntityCall} {entity : ℕ}
    (live : entity ∈ liveCalls calls) : entity < addCount calls := by
  induction calls using List.reverseRecOn with
  | nil => exact absurd live List.not_mem_nil
  | append_singleton calls call inductionHypothesis =>
      rw [liveCalls_append] at live
      rw [addCount_append]
      cases call with
      | add =>
          rcases List.mem_cons.mp live with rfl | old
          · exact Nat.lt_succ_self _
          · exact Nat.lt_succ_of_lt (inductionHypothesis old)
      | delete other => exact inductionHypothesis (List.mem_of_mem_erase live)

/-- What the executor and the ids look like after a sequence of calls. -/
structure Issuing (calls : List EntityCall) (executor : Executor)
    (ids : List (BitVec 16)) : Prop where
  counter : executor.entitiesInc.toNat = addCount calls % 65501
  length_eq : ids.length = addCount calls
  ids_eq : ∀ call < addCount calls, ids[call]? = some (issued call)
  groups : ∀ group ∈ executor.groups, group.Accounted

namespace Issuing

variable {calls : List EntityCall} {executor : Executor} {ids : List (BitVec 16)}

theorem addEntity_snd (issuing : Issuing calls executor ids) :
    executor.addEntity.2 = issued (addCount calls) := by
  apply BitVec.eq_of_toNat_eq
  have counter := issuing.counter
  rw [toNat_issued, Executor.addEntity]
  split
  · rw [if_pos (by omega)]
    rfl
  · rw [if_neg (by omega)]
    exact counter

theorem add (issuing : Issuing calls executor ids) :
    Issuing (calls ++ [.add]) executor.addEntity.1
      (ids ++ [executor.addEntity.2]) := by
  have count_eq : addCount (calls ++ [.add]) = addCount calls + 1 :=
    addCount_append calls .add
  refine ⟨?_, ?_, ?_, ?_⟩
  · have counter := issuing.counter
    rw [count_eq, Executor.addEntity]
    split
    · change (0 : ℕ) = _
      omega
    · change (executor.entitiesInc + 1).toNat = _
      rw [BitVec.toNat_add]
      change (executor.entitiesInc.toNat + 1) % 65536 = _
      omega
  · rw [List.length_append, issuing.length_eq, count_eq]
    rfl
  · intro call bound
    rw [count_eq] at bound
    by_cases old : call < addCount calls
    · rw [List.getElem?_append_left (by rw [issuing.length_eq]; exact old)]
      exact issuing.ids_eq call old
    · have last : call = addCount calls := by omega
      rw [last, ← issuing.length_eq, List.getElem?_concat_length,
        issuing.addEntity_snd, issuing.length_eq]
  · have groups_eq : executor.addEntity.1.groups = executor.groups := by
      rw [Executor.addEntity]
      split <;> rfl
    rw [groups_eq]
    exact issuing.groups

end Issuing

/-- Every group deletes the entity, or does not know it. -/
theorem Executor.exists_deleteFromGroups (entity : BitVec 16) {groups : List Group}
    (accounted : ∀ group ∈ groups, group.Accounted) :
    ∃ deleted, Executor.deleteFromGroups entity groups = some deleted ∧
      ∀ group ∈ deleted, group.Accounted := by
  induction groups with
  | nil => exact ⟨[], rfl, fun _ member => absurd member List.not_mem_nil⟩
  | cons group rest inductionHypothesis =>
      have here := accounted group List.mem_cons_self
      rcases here.exists_deleteEntity entity with ⟨next, delete_eq⟩
      rcases inductionHypothesis fun other member =>
          accounted other (List.mem_cons_of_mem group member) with
        ⟨deleted, deleted_eq, deletedAccounted⟩
      refine ⟨next :: deleted, ?_, ?_⟩
      · rw [Executor.deleteFromGroups, delete_eq]
        simp only [deleted_eq, Option.map_some]
      · intro other member
        rcases List.mem_cons.mp member with rfl | old
        · exact here.deleteEntity delete_eq
        · exact deletedAccounted other old

theorem Executor.exists_deleteEntity {executor : Executor} (entity : BitVec 16)
    (accounted : ∀ group ∈ executor.groups, group.Accounted) :
    ∃ next, executor.deleteEntity entity = some next ∧
      next.entitiesInc = executor.entitiesInc ∧
      ∀ group ∈ next.groups, group.Accounted := by
  rcases Executor.exists_deleteFromGroups entity accounted with
    ⟨groups, deleted, groupsAccounted⟩
  rw [Executor.deleteEntity, deleted]
  exact ⟨_, rfl, rfl, groupsAccounted⟩

theorem Issuing.delete {calls : List EntityCall} {executor : Executor}
    {ids : List (BitVec 16)} (issuing : Issuing calls executor ids) {entity : ℕ}
    (live : entity ∈ liveCalls calls) :
    ∃ next,
      Executor.entityStep (executor, ids) (.delete entity) = some (next, ids) ∧
        Issuing (calls ++ [.delete entity]) next ids := by
  have present := issuing.ids_eq entity (lt_addCount_of_mem_liveCalls live)
  rcases Executor.exists_deleteEntity (issued entity) issuing.groups with
    ⟨next, deleted, counter_eq, accounted⟩
  have count_eq : addCount (calls ++ [.delete entity]) = addCount calls :=
    addCount_append calls (.delete entity)
  refine ⟨next, ?_, ?_⟩
  · rw [Executor.entityStep]
    simp only [present, deleted, Option.map_some]
  · refine ⟨?_, ?_, ?_, accounted⟩
    · rw [count_eq, counter_eq]
      exact issuing.counter
    · rw [count_eq]
      exact issuing.length_eq
    · rw [count_eq]
      exact issuing.ids_eq

/-- A sequence of calls up to one of them is admissible. -/
theorem Admissible.init {calls : List EntityCall} {call : EntityCall}
    (admissible : Admissible (calls ++ [call])) : Admissible calls := by
  intro before middle after split_eq
  apply admissible before middle (after ++ [call])
  rw [split_eq, List.append_assoc, List.cons_append]

/-- Every admissible sequence of calls runs through. -/
theorem Executor.exists_runEntities {executor : Executor}
    (start : Issuing [] executor []) {calls : List EntityCall}
    (admissible : Admissible calls) :
    ∃ reached ids, executor.runEntities calls = some (reached, ids) ∧
      Issuing calls reached ids := by
  induction calls using List.reverseRecOn with
  | nil => exact ⟨executor, [], rfl, start⟩
  | append_singleton calls call inductionHypothesis =>
      rcases inductionHypothesis admissible.init with
        ⟨reached, ids, run_eq, issuing⟩
      have run_last :
          executor.runEntities (calls ++ [call]) =
            Executor.entityStep (reached, ids) call := by
        rw [Executor.runEntities] at run_eq ⊢
        simp only [List.foldlM_append, run_eq, Option.bind_eq_bind,
          Option.bind_some, List.foldlM_cons, List.foldlM_nil, bind_pure]
      cases call with
      | add => exact ⟨_, _, run_last, issuing.add⟩
      | delete entity =>
          have live := (admissible calls (.delete entity) [] rfl).1 entity rfl
          rcases issuing.delete live with ⟨next, step_eq, deleted⟩
          exact ⟨next, ids, run_last.trans step_eq, deleted⟩

/-- The groups of a new executor have no entities yet. -/
theorem createGroups_accounted {hardware : ℕ} {cpus : List CpuId}
    {options : List WorkGroupOption} {cpusWg used : ℕ → ℕ}
    {groups all : List Group}
    (created : createGroups hardware cpus options cpusWg groups = some (all, used))
    (accounted : ∀ group ∈ groups, group.Accounted) :
    ∀ group ∈ all, group.Accounted := by
  induction options generalizing cpusWg groups with
  | nil =>
      cases created
      exact accounted
  | cons option rest inductionHypothesis =>
      rw [createGroups] at created
      split at created
      · cases created
      · rename_i group taken group_eq
        refine inductionHypothesis created fun other member => ?_
        rw [List.mem_append, List.mem_singleton] at member
        rcases member with old | rfl
        · exact accounted other old
        · exact Group.create_accounted group_eq

theorem Issuing.start {hardware : ℕ} {cpus : List CpuId}
    {options : List WorkGroupOption} {executor : Executor}
    (created : Executor.create hardware cpus options = some executor) :
    Issuing [] executor [] := by
  rw [Executor.create] at created
  split at created
  · cases created
  · cases created
  · rename_i first rest used groups_eq
    cases created
    refine ⟨rfl, rfl, ?_, ?_⟩
    · intro call bound
      exact absurd bound (Nat.not_lt_zero call)
    · exact createGroups_accounted groups_eq
        fun group member => absurd member List.not_mem_nil

/-- The ids of live entities differ if the entities differ in the cycle of ids. -/
theorem Issuing.distinctIds_iff_apart {executor : Executor}
    (start : Issuing [] executor []) {calls : List EntityCall}
    (admissible : Admissible calls) :
    DistinctIds executor calls ↔
      ∀ before after, calls = before ++ .add :: after →
        ∀ entity ∈ liveCalls before, ¬ SameNumber entity (addCount before) := by
  have runs {before after : List EntityCall}
      (split_eq : calls = before ++ .add :: after) :
      ∃ reached ids, executor.runEntities before = some (reached, ids) ∧
        Issuing before reached ids := by
    apply Executor.exists_runEntities start
    intro first call rest first_eq
    apply admissible first call (rest ++ .add :: after)
    rw [split_eq, first_eq, List.append_assoc, List.cons_append]
  have same_iff {before : List EntityCall} {reached : Executor}
      {ids : List (BitVec 16)} (issuing : Issuing before reached ids) {entity : ℕ}
      (live : entity ∈ liveCalls before) :
      ids[entity]? = some reached.addEntity.2 ↔
        SameNumber entity (addCount before) := by
    rw [issuing.ids_eq entity (lt_addCount_of_mem_liveCalls live),
      issuing.addEntity_snd, Option.some_inj]
    exact issued_eq_iff entity (addCount before)
  constructor
  · intro distinct before after split_eq entity live same
    rcases runs split_eq with ⟨reached, ids, run_eq, issuing⟩
    exact distinct before after split_eq reached ids run_eq entity live
      ((same_iff issuing live).mpr same)
  · intro apart before after split_eq reached ids run_eq entity live same
    rcases runs split_eq with ⟨found, foundIds, found_eq, issuing⟩
    rw [found_eq] at run_eq
    cases run_eq
    exact apart before after split_eq entity live
      ((same_iff issuing live).mp same)

/--
For every executor and every admissible sequence of calls: no call of `AddEntity`
returns the id of a live entity if and only if no live entity has, at any call,
the place of that call in the cycle of ids.
-/
theorem distinctIds_iff {hardware : ℕ} {cpus : List CpuId}
    {options : List WorkGroupOption} {executor : Executor}
    (created : Executor.create hardware cpus options = some executor)
    {calls : List EntityCall} (admissible : Admissible calls) :
    DistinctIds executor calls ↔
      ∀ before after, calls = before ++ .add :: after →
        ∀ entity ∈ liveCalls before, ¬ SameNumber entity (addCount before) :=
  (Issuing.start created).distinctIds_iff_apart admissible

/-! ## Two entities with one id -/

theorem Admissible.concat {calls : List EntityCall} (admissible : Admissible calls)
    {call : EntityCall}
    (live : ∀ entity, call = .delete entity → entity ∈ liveCalls calls)
    (few : (liveCalls (calls ++ [call])).length ≤ 65000) :
    Admissible (calls ++ [call]) := by
  intro before middle after split_eq
  rcases List.eq_nil_or_concat after with rfl | ⟨front, last, rfl⟩
  · rcases List.append_inj' split_eq rfl with ⟨rfl, call_eq⟩
    cases call_eq
    exact ⟨live, few⟩
  · rw [List.concat_eq_append, ← List.cons_append, ← List.append_assoc] at split_eq
    rcases List.append_inj' split_eq rfl with ⟨front_eq, -⟩
    exact admissible before middle front front_eq

theorem admissible_nil : Admissible [] := by
  intro before call after split_eq
  simp at split_eq

/-- Entities that are added and deleted one after the other. -/
def addDelete : ℕ → List EntityCall
  | 0 => []
  | rounds + 1 => addDelete rounds ++ [.add] ++ [.delete rounds]

theorem addCount_addDelete (rounds : ℕ) : addCount (addDelete rounds) = rounds := by
  induction rounds with
  | zero => rfl
  | succ rounds inductionHypothesis =>
      rw [addDelete, addCount_append, addCount_append, inductionHypothesis]
      rfl

theorem liveCalls_addDelete (rounds : ℕ) : liveCalls (addDelete rounds) = [] := by
  induction rounds with
  | zero => rfl
  | succ rounds inductionHypothesis =>
      rw [addDelete, liveCalls_append, liveCalls_append, inductionHypothesis,
        addCount_addDelete]
      simp [liveStep]

theorem liveCalls_addDelete_add (rounds : ℕ) :
    liveCalls (addDelete rounds ++ [.add]) = [rounds] := by
  rw [liveCalls_append, liveCalls_addDelete, addCount_addDelete]
  rfl

theorem admissible_addDelete (rounds : ℕ) : Admissible (addDelete rounds) := by
  induction rounds with
  | zero => exact admissible_nil
  | succ rounds inductionHypothesis =>
      have added : Admissible (addDelete rounds ++ [.add]) := by
        apply inductionHypothesis.concat
        · intro entity call_eq
          cases call_eq
        · rw [liveCalls_addDelete_add, List.length_singleton]
          decide
      apply added.concat
      · intro entity call_eq
        cases call_eq
        rw [liveCalls_addDelete_add]
        exact List.mem_singleton_self rounds
      · have none_left := liveCalls_addDelete (rounds + 1)
        rw [addDelete] at none_left
        rw [none_left]
        exact Nat.zero_le _

/-- One group of one worker. -/
def loneOption : WorkGroupOption :=
  ⟨"main", fun _ => 1, 1⟩

theorem exists_loneExecutor :
    ∃ executor, Executor.create 1 [0#64] [loneOption] = some executor :=
  Option.isSome_iff_exists.mp rfl

/-- Two entities that are live together are at different places. -/
theorem distinctIds_iff_pair :
    ∃ executor, Executor.create 1 [0#64] [loneOption] = some executor ∧
      Admissible [.add, .add] ∧ DistinctIds executor [.add, .add] := by
  rcases exists_loneExecutor with ⟨executor, created⟩
  have admissible : Admissible [.add, .add] := by
    refine @Admissible.concat [.add] ?_ .add (by simp) (by decide)
    exact @Admissible.concat [] admissible_nil .add (by simp) (by decide)
  refine ⟨executor, created, admissible, (distinctIds_iff created admissible).mpr ?_⟩
  intro before after split_eq entity live
  have short := congrArg List.length split_eq
  rw [List.length_append, List.length_cons] at short
  match before, split_eq with
  | [], _ => exact absurd live List.not_mem_nil
  | [.add], _ =>
      have first : entity = 0 := List.mem_singleton.mp live
      rw [first]
      decide
  | _ :: _ :: rest, _ =>
      rw [List.length_cons, List.length_cons] at short
      simp only [List.length_cons, List.length_nil] at short
      omega

/-- After 65500 entities have come and gone, the next two get the id 0. -/
theorem id_zero_twice :
    ¬ ∀ executor, Executor.create 1 [0#64] [loneOption] = some executor →
      ∀ calls, Admissible calls → DistinctIds executor calls := by
  intro claim
  rcases exists_loneExecutor with ⟨executor, created⟩
  let before := addDelete 65500 ++ [.add]
  have live : liveCalls before = [65500] := liveCalls_addDelete_add 65500
  have count : addCount before = 65501 := by
    rw [addCount_append, addCount_addDelete]
    rfl
  have first : Admissible before := by
    apply (admissible_addDelete 65500).concat (by simp)
    rw [liveCalls_addDelete_add]
    decide
  have admissible : Admissible (before ++ [.add]) := by
    apply first.concat (by simp)
    rw [liveCalls_append, live, count]
    decide
  have apart := ((Issuing.start created).distinctIds_iff_apart admissible).mp
    (claim executor created _ admissible) before [] rfl
  apply apart 65500
  · rw [live]
    exact List.mem_singleton_self _
  · rw [count]
    exact .inr (by decide)

end AsyncRuntime.WorkGroup
