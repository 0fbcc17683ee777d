import AsyncRuntime.WorkStealQueue.Concurrent

/-!
# The work-stealing queue is linearizable

Every step is one of the task queue on the arrays without their counters, or counts a
store and is none.
-/

namespace AsyncRuntime.WorkStealQueue

open AsyncRuntime.Foundation

universe u v

variable {Item : Type u} {Thief : Type v}

/-! ## The task queue behind the words -/

/-- The array without its counter. -/
def AtomicArray.abstract (array : AtomicArray Item) : TaskQueue.Array Item where
  capacity := array.capacity
  slots := fun cell => some (array.slots cell)

/-- The words of the task queue. -/
def Words.abstract (words : Words Item) : TaskQueue.Level Item where
  top := words.top
  bottom := words.bottom
  array := words.array
  arrays := fun pointer => (words.arrays pointer).abstract
  allocated := words.allocated
  garbage := words.garbage

/-- Where the owner is in the task queue: a store has been made before it is counted. -/
def OwnerPc.abstract : OwnerPc Item → TaskQueue.OwnerPc Item
  | .idle result => .idle result
  | .pushLoadBottom item => .pushLoadBottom item
  | .pushLoadTop item bottom => .pushLoadTop item bottom
  | .pushLoadArray item bottom top => .pushLoadArray item bottom top
  | .resizeLoad item bottom top old new index => .resizeLoad item bottom top old new index
  | .resizeStore item bottom top old new index copied =>
      .resizeStore item bottom top old new index (some copied)
  | .resizeCount item bottom top old new index =>
      TaskQueue.resizeLoop item bottom top old new (index + 1)
  | .resizePublish item bottom old new => .resizePublish item bottom old new
  | .pushStoreSlot item bottom array => .pushStoreSlot item bottom array
  | .pushCount item bottom _ => .pushStoreBottom item bottom
  | .pushStoreBottom item bottom => .pushStoreBottom item bottom
  | .popLoadBottom => .popLoadBottom
  | .popLoadArray bottom => .popLoadArray bottom
  | .popStoreBottom bottom array => .popStoreBottom bottom array
  | .popLoadTop bottom array => .popLoadTop bottom array
  | .popLoadSlot bottom array top => .popLoadSlot bottom array top
  | .popCompareExchange bottom top item => .popCompareExchange bottom top (some item)
  | .popRestoreBottom bottom item => .popRestoreBottom bottom item

/-- Where a thief is in the task queue. -/
def ThiefPc.abstract : ThiefPc Item → TaskQueue.ThiefPc Item
  | .idle result => .idle result
  | .loadTop => .loadTop
  | .loadBottom top => .loadBottom top
  | .loadArray top => .loadArray top
  | .loadSlot top array => .loadSlot top array
  | .compareExchange top item => .compareExchange top (some item)

/-- The step counts a store. -/
def OwnerPc.counts : OwnerPc Item → Bool
  | .resizeCount _ _ _ _ _ _ => true
  | .pushCount _ _ _ => true
  | _ => false

theorem AtomicArray.abstract_storeSlot (array : AtomicArray Item) (index : ℤ) (item : Item) :
    (array.storeSlot index item).abstract = array.abstract.push index (some item) := by
  have slots_eq : (fun cell => some ((array.storeSlot index item).slots cell)) =
      Function.update (fun cell => some (array.slots cell)) (ringCell array.capacity index)
        (some item) := by
    funext cell
    exact Function.apply_update (fun _ => some) array.slots _ item cell
  rw [AtomicArray.abstract, slots_eq]
  rfl

theorem Words.abstract_storeSlot (words : Words Item) (pointer : ℕ) (index : ℤ) (item : Item) :
    (words.storeSlot pointer index item).abstract =
      words.abstract.storeSlot pointer index (some item) := by
  have arrays_eq : (fun other => ((words.storeSlot pointer index item).arrays other).abstract) =
      Function.update (fun other => (words.arrays other).abstract) pointer
        ((words.arrays pointer).abstract.push index (some item)) := by
    funext other
    rw [← AtomicArray.abstract_storeSlot]
    exact Function.apply_update (fun _ => AtomicArray.abstract) words.arrays _ _ other
  rw [Words.abstract, arrays_eq]
  rfl

theorem Words.abstract_allocate (words : Words Item) (capacity : ℤ) :
    (words.allocate capacity).abstract = words.abstract.allocate capacity := by
  have arrays_eq : (fun other => ((words.allocate capacity).arrays other).abstract) =
      Function.update (fun other => (words.arrays other).abstract) words.allocated
        { (words.arrays words.allocated).abstract with capacity := capacity } := by
    funext other
    exact Function.apply_update (fun _ => AtomicArray.abstract) words.arrays _ _ other
  rw [Words.abstract, arrays_eq]
  rfl

/-- The task queue does not see the counters. -/
theorem Words.abstract_fetchAdd (words : Words Item) (pointer : ℕ) :
    (words.fetchAdd pointer).abstract = words.abstract := by
  have arrays_eq : (fun other => ((words.fetchAdd pointer).arrays other).abstract) =
      fun other => (words.arrays other).abstract := by
    have unchanged : (words.arrays pointer).fetchAdd.abstract =
        (words.arrays pointer).abstract := rfl
    funext other
    have counted : (words.fetchAdd pointer).arrays =
        Function.update words.arrays pointer (words.arrays pointer).fetchAdd := rfl
    rcases eq_or_ne other pointer with rfl | elsewhere
    · rw [counted, Function.update_self, unchanged]
    · rw [counted, Function.update_of_ne elsewhere]
  rw [Words.abstract, arrays_eq]
  rfl

theorem abstract_resizeLoop (item : Item) (bottom top : ℤ) (old new : ℕ) (index : ℤ) :
    (resizeLoop item bottom top old new index).abstract =
      TaskQueue.resizeLoop item bottom top old new index := by
  unfold resizeLoop TaskQueue.resizeLoop
  split <;> rfl

theorem OwnerPc.abstract_outcome (pc : OwnerPc Item) : pc.abstract.outcome = pc.outcome := by
  cases pc with
  | resizeCount item bottom top old new index =>
      exact TaskQueue.outcome_resizeLoop item bottom top old new (index + 1)
  | _ => rfl

theorem ThiefPc.abstract_outcome (pc : ThiefPc Item) : pc.abstract.outcome = pc.outcome := by
  cases pc <;> rfl

/-- A step that counts is none of the task queue. -/
theorem ownerStep_of_counts (words : Words Item) {pc : OwnerPc Item} (counts : pc.counts = true) :
    (ownerStep words pc).1.abstract = words.abstract ∧
      (ownerStep words pc).2.abstract = pc.abstract ∧ (ownerStep words pc).2.outcome = none := by
  cases pc with
  | resizeCount item bottom top old new index =>
      refine ⟨words.abstract_fetchAdd new, abstract_resizeLoop _ _ _ _ _ _, ?_⟩
      simp only [ownerStep, resizeLoop]
      split <;> rfl
  | pushCount item bottom array => exact ⟨words.abstract_fetchAdd array, rfl, rfl⟩
  | _ => cases counts

/-- The other steps of the owner are those of the task queue. -/
theorem ownerStep_abstract (words : Words Item) {pc : OwnerPc Item} (loud : pc.counts = false) :
    TaskQueue.ownerStep words.abstract pc.abstract =
      ((ownerStep words pc).1.abstract, (ownerStep words pc).2.abstract) := by
  cases pc with
  | pushLoadArray item bottom top =>
      by_cases full : (words.arrays words.array).capacity - 1 < bottom - top
      · have step_eq : ownerStep words (.pushLoadArray item bottom top) =
            (words.allocate (2 * (words.arrays words.array).capacity),
              resizeLoop item bottom top words.array words.allocated top) := if_pos full
        rw [step_eq, Words.abstract_allocate, abstract_resizeLoop]
        exact if_pos full
      · have step_eq : ownerStep words (.pushLoadArray item bottom top) =
            (words, .pushStoreSlot item bottom words.array) := if_neg full
        rw [step_eq]
        exact if_neg full
  | resizeStore item bottom top old new index copied =>
      rw [ownerStep, Words.abstract_storeSlot]
      rfl
  | pushStoreSlot item bottom array =>
      rw [ownerStep, Words.abstract_storeSlot]
      rfl
  | popLoadTop bottom array =>
      by_cases nonempty : words.top ≤ bottom
      · have step_eq : ownerStep words (.popLoadTop bottom array) =
            (words, .popLoadSlot bottom array words.top) := if_pos nonempty
        rw [step_eq]
        exact if_pos nonempty
      · have step_eq : ownerStep words (.popLoadTop bottom array) =
            (words, .popRestoreBottom bottom none) := if_neg nonempty
        rw [step_eq]
        exact if_neg nonempty
  | popLoadSlot bottom array top =>
      by_cases last : top = bottom
      · have step_eq : ownerStep words (.popLoadSlot bottom array top) =
            (words, .popCompareExchange bottom top ((words.arrays array).load bottom)) :=
          if_pos last
        rw [step_eq]
        exact if_pos last
      · have step_eq : ownerStep words (.popLoadSlot bottom array top) =
            (words, .idle (some ((words.arrays array).load bottom))) := if_neg last
        rw [step_eq]
        exact if_neg last
  | popCompareExchange bottom top item =>
      by_cases won : words.top = top
      · have step_eq : ownerStep words (.popCompareExchange bottom top item) =
            ({ words with top := top + 1 }, .popRestoreBottom bottom (some item)) := if_pos won
        rw [step_eq]
        exact if_pos won
      · have step_eq : ownerStep words (.popCompareExchange bottom top item) =
            (words, .popRestoreBottom bottom none) := if_neg won
        rw [step_eq]
        exact if_neg won
  | resizeCount item bottom top old new index => cases loud
  | pushCount item bottom array => cases loud
  | _ => rfl

theorem thiefStep_abstract (words : Words Item) (pc : ThiefPc Item) :
    TaskQueue.thiefStep words.abstract pc.abstract =
      ((thiefStep words pc).1.abstract, (thiefStep words pc).2.abstract) := by
  cases pc with
  | loadBottom top =>
      by_cases nonempty : top < words.bottom
      · have step_eq : thiefStep words (.loadBottom top) = (words, .loadArray top) :=
          if_pos nonempty
        rw [step_eq]
        exact if_pos nonempty
      · have step_eq : thiefStep words (.loadBottom top) = (words, .idle none) :=
          if_neg nonempty
        rw [step_eq]
        exact if_neg nonempty
  | compareExchange top item =>
      by_cases won : words.top = top
      · have step_eq : thiefStep words (.compareExchange top item) =
            ({ words with top := top + 1 }, .idle (some item)) := if_pos won
        rw [step_eq]
        exact if_pos won
      · have step_eq : thiefStep words (.compareExchange top item) = (words, .idle none) :=
          if_neg won
        rw [step_eq]
        exact if_neg won
  | _ => rfl

/-! ## The simulation -/

/-- The task queue is in the same place; what it has pushed and returned does not matter. -/
structure Follows (state : State Item Thief) (queue : TaskQueue.State Item Thief) : Prop where
  level : queue.level = state.words.abstract
  owner : queue.owner = state.owner.abstract
  thieves : queue.thieves = fun thief => (state.thieves thief).abstract

section Simulation

variable [DecidableEq Thief] {capacity : ℤ} {state : State Item Thief}
  {queue : TaskQueue.State Item Thief}

theorem abstract_update (state : State Item Thief) (thief : Thief) (pc : ThiefPc Item) :
    Function.update (fun other => (state.thieves other).abstract) thief pc.abstract =
      fun other => (Function.update state.thieves thief pc other).abstract := by
  funext other
  exact (Function.apply_update (fun _ => ThiefPc.abstract) state.thieves thief pc other).symm

/-- The owner of the task queue takes its step. -/
theorem steps_owner {words : Words Item} {pc : OwnerPc Item}
    (busy : ∀ result, queue.owner ≠ .idle result)
    (stepped : TaskQueue.ownerStep queue.level queue.owner = (words.abstract, pc.abstract)) :
    ∃ next, (TaskQueue.observed Item Thief capacity).Steps queue
        (pc.abstract.outcome.toList.map .returned) next ∧
      next.level = words.abstract ∧ next.owner = pc.abstract ∧ next.thieves = queue.thieves := by
  have taken : (TaskQueue.observed Item Thief capacity).next queue .owner =
      some
        { queue with
          level := (TaskQueue.ownerStep queue.level queue.owner).1
          owner := (TaskQueue.ownerStep queue.level queue.owner).2
          pushed := queue.pushed ++ queue.owner.completes.toList
          returned :=
            queue.returned ++ (TaskQueue.ownerStep queue.level queue.owner).2.handsOut.toList } := by
    simp only [TaskQueue.observed, TaskQueue.system, TaskQueue.next]
  have steps := ObservedSystem.Steps.one taken
  simp only [stepped] at steps
  exact ⟨_, steps, rfl, rfl, rfl⟩

/-- A thief of the task queue takes its step. -/
theorem steps_thief {words : Words Item} {pc : ThiefPc Item} {thief : Thief}
    (busy : ∀ result, queue.thieves thief ≠ .idle result)
    (stepped :
      TaskQueue.thiefStep queue.level (queue.thieves thief) = (words.abstract, pc.abstract)) :
    ∃ next, (TaskQueue.observed Item Thief capacity).Steps queue
        (pc.abstract.outcome.toList.map (.stole thief)) next ∧
      next.level = words.abstract ∧ next.owner = queue.owner ∧
      next.thieves = Function.update queue.thieves thief pc.abstract := by
  have taken : (TaskQueue.observed Item Thief capacity).next queue (.thief thief) =
      some
        { queue with
          level := (TaskQueue.thiefStep queue.level (queue.thieves thief)).1
          thieves :=
            Function.update queue.thieves thief
              (TaskQueue.thiefStep queue.level (queue.thieves thief)).2
          returned :=
            queue.returned ++
              (TaskQueue.thiefStep queue.level (queue.thieves thief)).2.handsOut.toList } := by
    simp only [TaskQueue.observed, TaskQueue.system, TaskQueue.next]
  have steps := ObservedSystem.Steps.one taken
  simp only [stepped, TaskQueue.observed, Function.update_self] at steps
  exact ⟨_, steps, rfl, rfl, rfl⟩

/-- A step of the owner is answered by one of the task queue, or by none. -/
theorem Follows.owner_step (follows : Follows state queue)
    (busy : ∀ result, state.owner ≠ .idle result) :
    ∃ next, (TaskQueue.observed Item Thief capacity).Steps queue
        ((ownerStep state.words state.owner).2.outcome.toList.map .returned) next ∧
      Follows
        { state with
          words := (ownerStep state.words state.owner).1
          owner := (ownerStep state.words state.owner).2 } next := by
  cases counts : state.owner.counts with
  | true =>
      obtain ⟨words_eq, owner_eq, silent⟩ := ownerStep_of_counts state.words counts
      refine ⟨queue, ?_, ⟨?_, ?_, follows.thieves⟩⟩
      · rw [silent]
        exact .done
      · rw [follows.level, words_eq]
      · rw [follows.owner, owner_eq]
  | false =>
      have stepped := ownerStep_abstract state.words counts
      rw [← follows.level, ← follows.owner] at stepped
      have inside : ∀ result, queue.owner ≠ .idle result := by
        intro result outside
        rw [follows.owner] at outside
        cases place : state.owner with
        | idle last => exact busy last place
        | resizeCount item bottom top old new index =>
            rw [place] at counts
            cases counts
        | _ => simp only [place, OwnerPc.abstract, reduceCtorEq] at outside
      obtain ⟨next, steps, level_eq, owner_eq, thieves_eq⟩ :=
        @steps_owner _ _ _ capacity _ _ _ inside stepped
      rw [OwnerPc.abstract_outcome] at steps
      exact ⟨next, steps, ⟨level_eq, owner_eq, thieves_eq.trans follows.thieves⟩⟩

theorem Follows.thief_step (follows : Follows state queue) {thief : Thief}
    (busy : ∀ result, state.thieves thief ≠ .idle result) :
    ∃ next, (TaskQueue.observed Item Thief capacity).Steps queue
        ((thiefStep state.words (state.thieves thief)).2.outcome.toList.map (.stole thief)) next ∧
      Follows
        { state with
          words := (thiefStep state.words (state.thieves thief)).1
          thieves :=
            Function.update state.thieves thief
              (thiefStep state.words (state.thieves thief)).2 } next := by
  have place_eq : queue.thieves thief = (state.thieves thief).abstract := by
    rw [follows.thieves]
  have stepped := thiefStep_abstract state.words (state.thieves thief)
  rw [← follows.level, ← place_eq] at stepped
  have inside : ∀ result, queue.thieves thief ≠ .idle result := by
    intro result outside
    rw [place_eq] at outside
    cases place : state.thieves thief with
    | idle last => exact busy last place
    | _ => simp only [place, ThiefPc.abstract, reduceCtorEq] at outside
  obtain ⟨next, steps, level_eq, owner_eq, thieves_eq⟩ :=
    @steps_thief _ _ _ capacity _ _ _ _ inside stepped
  rw [ThiefPc.abstract_outcome] at steps
  refine ⟨next, steps, ⟨level_eq, owner_eq.trans follows.owner, ?_⟩⟩
  rw [thieves_eq, follows.thieves]
  exact abstract_update state thief _

/-- A call is a call of the task queue. -/
theorem Follows.called (follows : Follows state queue)
    {action : TaskQueue.Action Item Thief} {target : State Item Thief}
    (calls : action ≠ .owner ∧ ∀ thief, action ≠ .thief thief)
    (taken : next state action = some target) :
    ∃ following, (TaskQueue.observed Item Thief capacity).Steps queue
        ((observed Item Thief capacity).shows state action target) following ∧
      Follows target following := by
  cases action with
  | push item =>
      cases place : state.owner with
      | idle result =>
          simp only [next, place, Option.some.injEq] at taken
          subst taken
          have outside : queue.owner = .idle result := by rw [follows.owner, place]; rfl
          have called : (TaskQueue.observed Item Thief capacity).next queue (.push item) =
              some { queue with owner := .pushLoadBottom item } := by
            simp only [TaskQueue.observed, TaskQueue.system, TaskQueue.next, outside]
          exact ⟨_, .one called, ⟨follows.level, rfl, follows.thieves⟩⟩
      | _ => simp only [next, place, reduceCtorEq] at taken
  | pop =>
      cases place : state.owner with
      | idle result =>
          simp only [next, place, Option.some.injEq] at taken
          subst taken
          have outside : queue.owner = .idle result := by rw [follows.owner, place]; rfl
          have called : (TaskQueue.observed Item Thief capacity).next queue .pop =
              some { queue with owner := .popLoadBottom } := by
            simp only [TaskQueue.observed, TaskQueue.system, TaskQueue.next, outside]
          exact ⟨_, .one called, ⟨follows.level, rfl, follows.thieves⟩⟩
      | _ => simp only [next, place, reduceCtorEq] at taken
  | steal thief =>
      cases place : state.thieves thief with
      | idle result =>
          simp only [next, place, Option.some.injEq] at taken
          subst taken
          have outside : queue.thieves thief = (ThiefPc.idle result).abstract := by
            rw [follows.thieves, ← place]
          have called : (TaskQueue.observed Item Thief capacity).next queue (.steal thief) =
              some
                { queue with thieves := Function.update queue.thieves thief .loadTop } := by
            simp only [TaskQueue.observed, TaskQueue.system, TaskQueue.next, outside,
              ThiefPc.abstract]
          refine ⟨_, .one called, ⟨follows.level, follows.owner, ?_⟩⟩
          rw [follows.thieves]
          exact abstract_update state thief .loadTop
      | _ => simp only [next, place, reduceCtorEq] at taken
  | owner => exact absurd rfl calls.1
  | thief thief => exact absurd rfl (calls.2 thief)

end Simulation

/-- The task queue follows the work-stealing queue step by step. -/
def simulation (Item : Type u) (Thief : Type v) [DecidableEq Thief] (capacity : ℤ) :
    ObservedSystem.Simulation (observed Item Thief capacity) (fun _ _ => True)
      (TaskQueue.observed Item Thief capacity) where
  relation := Follows
  start := by
    rintro _ ⟨memory, rfl⟩
    exact ⟨_, ⟨fun pointer cell => some (memory pointer cell), rfl⟩, ⟨rfl, rfl, rfl⟩⟩
  step := by
    intro source action target queue _ _ taken follows
    have stepped : next source action = some target := taken
    cases action with
    | owner =>
        have busy : ∀ result, source.owner ≠ .idle result := by
          intro result outside
          simp only [next, outside, reduceCtorEq] at stepped
        have moved :
            { source with
              words := (ownerStep source.words source.owner).1
              owner := (ownerStep source.words source.owner).2 } = target := by
          simp only [next] at stepped
          exact Option.some.inj stepped
        subst moved
        exact follows.owner_step busy
    | thief thief =>
        have busy : ∀ result, source.thieves thief ≠ .idle result := by
          intro result outside
          simp only [next, outside, reduceCtorEq] at stepped
        have moved :
            { source with
              words := (thiefStep source.words (source.thieves thief)).1
              thieves :=
                Function.update source.thieves thief
                  (thiefStep source.words (source.thieves thief)).2 } = target := by
          simp only [next] at stepped
          exact Option.some.inj stepped
        subst moved
        obtain ⟨following, steps, follows⟩ := @Follows.thief_step _ _ _ capacity _ _ follows _ busy
        refine ⟨following, ?_, follows⟩
        simpa only [observed, Function.update_self] using steps
    | push item => exact follows.called ⟨by simp, by simp⟩ stepped
    | pop => exact follows.called ⟨by simp, by simp⟩ stepped
    | steal thief => exact follows.called ⟨by simp, by simp⟩ stepped

/--
Whatever the owner and the thieves do in any order of their atomic steps, the calls
and their results are a history of the deque whose operations take effect one at a
time.
-/
theorem refines_stealingDeque (Item : Type u) (Thief : Type v) [DecidableEq Thief]
    (exponent : ℕ) :
    (observed Item Thief (2 ^ exponent)).Refines (fun _ _ => True)
      (StealingDeque.system Item Thief) :=
  (simulation Item Thief (2 ^ exponent)).refines.trans
    (TaskQueue.simulation Item Thief exponent).refines

end AsyncRuntime.WorkStealQueue
