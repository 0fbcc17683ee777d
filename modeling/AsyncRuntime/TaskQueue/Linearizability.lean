import AsyncRuntime.Foundation.StealingDeque
import AsyncRuntime.TaskQueue.Conservation

/-!
# The task queue is linearizable

Whatever the threads do, what the calls return can be explained by operations that
take effect one at a time, each of them between its call and its return.  `push`
takes effect with its store to `_bottom` and `steal` with its compare-exchange.
A `pop` takes effect when it has seen that no thief can reach the last item any
more, or that there is none, and otherwise with its compare-exchange.  The items
of the deque are those from `_top` to the first index that no thief can take.
-/

namespace AsyncRuntime.TaskQueue

open AsyncRuntime.Foundation
open AsyncRuntime.Foundation.StealingDeque (OwnerPhase ThiefPhase OwnerMove ThiefMove)

universe u v

variable {Item : Type u} {Thief : Type v}

/-- The result, when the operation has returned. -/
def OwnerPc.outcome : OwnerPc Item → Option (Option Item)
  | .idle result => some result
  | _ => none

/-- The result, when the `steal` has returned. -/
def ThiefPc.outcome : ThiefPc Item → Option (Option Item)
  | .idle result => some result
  | _ => none

/-- The queue, with the calls and the returns as its events. -/
def observed (Item : Type u) (Thief : Type v) [DecidableEq Thief] (capacity : ℤ) :
    ObservedSystem (State Item Thief) (Action Item Thief)
      (StealingDeque.Event Item Thief) where
  toTransitionSystem := system Item Thief capacity
  shows := fun _ action target =>
    match action with
    | .push item => [.push item]
    | .pop => [.pop]
    | .owner => target.owner.outcome.toList.map .returned
    | .steal thief => [.steal thief]
    | .thief thief => (target.thieves thief).outcome.toList.map (.stole thief)

/-! ## The deque behind the words -/

/-- The items that a thief or a `pop` can still take. -/
def stored (level : Level Item) (pc : OwnerPc Item) : List (Option Item) :=
  span level.current.pop level.top (stealBound level pc)

/-- Whether the operation of the owner has taken effect. -/
def ownerPhase (level : Level Item) : OwnerPc Item → OwnerPhase Item
  | .idle result => .idle result
  | .pushLoadBottom item => .pushing item
  | .pushLoadTop item _ => .pushing item
  | .pushLoadArray item _ _ => .pushing item
  | .resizeLoad item _ _ _ _ _ => .pushing item
  | .resizeStore item _ _ _ _ _ _ => .pushing item
  | .resizePublish item _ _ _ => .pushing item
  | .pushStoreSlot item _ _ => .pushing item
  | .pushStoreBottom item _ => .pushing item
  | .popLoadBottom => .popping
  | .popLoadArray _ => .popping
  | .popStoreBottom _ _ => .popping
  | .popLoadTop _ _ => .popping
  | .popLoadSlot bottom array top =>
      if top = bottom then .popping else .done ((level.arrays array).pop bottom)
  | .popCompareExchange _ _ _ => .popping
  | .popRestoreBottom _ item => .done item

/-- A `steal` takes effect only as it returns. -/
def ThiefPc.phase : ThiefPc Item → ThiefPhase Item
  | .idle result => .idle result
  | _ => .stealing

theorem ownerPhase_resizeLoop (level : Level Item) (item : Item) (bottom top : ℤ)
    (old new : ℕ) (index : ℤ) :
    ownerPhase level (resizeLoop item bottom top old new index) = .pushing item := by
  unfold resizeLoop
  split <;> rfl

theorem outcome_resizeLoop (item : Item) (bottom top : ℤ) (old new : ℕ) (index : ℤ) :
    (resizeLoop item bottom top old new index).outcome = none := by
  unfold resizeLoop
  split <;> rfl

section Ends

variable {content : ℤ → Option Item} {items : List Item} {lower upper : ℤ}

theorem exists_last (ordered : lower ≤ upper)
    (held : items.map some = span content lower (upper + 1)) :
    ∃ before last, items = before ++ [last] ∧ before.map some = span content lower upper ∧
      content upper = some last := by
  rw [span_add_one_right ordered, List.map_eq_append_iff] at held
  obtain ⟨before, ending, rfl, before_eq, ending_eq⟩ := held
  obtain ⟨last, rfl, last_eq⟩ := List.map_eq_singleton_iff.mp ending_eq
  exact ⟨before, last, rfl, before_eq, last_eq.symm⟩

theorem exists_first (nonempty : lower < upper)
    (held : items.map some = span content lower upper) :
    ∃ first rest, items = first :: rest ∧ rest.map some = span content (lower + 1) upper ∧
      content lower = some first := by
  rw [span_add_one_left nonempty] at held
  obtain ⟨first, rest, rfl, first_eq, rest_eq⟩ := List.map_eq_cons_iff.mp held
  exact ⟨first, rest, rfl, rest_eq, first_eq.symm⟩

theorem eq_nil_of_span (empty : upper ≤ lower)
    (held : items.map some = span content lower upper) : items = [] := by
  rw [span_of_le empty] at held
  exact List.map_eq_nil_iff.mp held

end Ends

/-- What the deque does when the owner takes a step. -/
def OwnerSimulated (items : List Item) (level : Level Item) (pc : OwnerPc Item) : Prop :=
  ∃ after : List Item,
    after.map some = stored (ownerStep level pc).1 (ownerStep level pc).2 ∧
      OwnerMove items (ownerPhase level pc) (ownerStep level pc).2.outcome after
        (ownerPhase (ownerStep level pc).1 (ownerStep level pc).2)

section Owner

variable {level : Level Item} {pc : OwnerPc Item} {items : List Item}

/-- A step with no effect on the deque. -/
theorem OwnerSimulated.of_stay (held : items.map some = stored level pc)
    (stored_eq : stored (ownerStep level pc).1 (ownerStep level pc).2 = stored level pc)
    (phase_eq :
      ownerPhase (ownerStep level pc).1 (ownerStep level pc).2 = ownerPhase level pc)
    (outcome_eq : (ownerStep level pc).2.outcome = none) : OwnerSimulated items level pc := by
  refine ⟨items, held.trans stored_eq.symm, ?_⟩
  rw [phase_eq, outcome_eq]
  exact .stays

/-- The steps of `push` and of its resize. -/
theorem ownerSimulated_push (invariant : LevelInv level pc) {item : Item}
    (pushing : pc.pushing = some item) (held : items.map some = stored level pc) :
    OwnerSimulated items level pc := by
  obtain ⟨top_nonneg, top_le, fits, array_lt, power, owner⟩ := invariant
  cases pc with
  | pushLoadBottom item => exact .of_stay held rfl rfl rfl
  | pushLoadTop item bottom => exact .of_stay held rfl rfl rfl
  | pushLoadArray item bottom top =>
      by_cases full : (level.arrays level.array).capacity - 1 < bottom - top
      · have step_eq : ownerStep level (.pushLoadArray item bottom top) =
            (level.allocate (2 * (level.arrays level.array).capacity),
              resizeLoop item bottom top level.array level.allocated top) := if_pos full
        refine .of_stay held ?_ ?_ ?_
        · rw [step_eq, stored, stealBound_resizeLoop, Level.allocate_current _ array_lt]
          rfl
        · rw [step_eq, ownerPhase_resizeLoop]
          rfl
        · rw [step_eq, outcome_resizeLoop]
      · have step_eq : ownerStep level (.pushLoadArray item bottom top) =
            (level, .pushStoreSlot item bottom level.array) := if_neg full
        refine .of_stay held ?_ ?_ ?_ <;> rw [step_eq] <;> rfl
  | resizeLoad item bottom top old new index => exact .of_stay held rfl rfl rfl
  | resizeStore item bottom top old new index copied =>
      obtain ⟨resize, unfinished, rfl⟩ := owner
      have current_eq :
          (level.storeSlot new index ((level.arrays old).pop index)).current =
            level.current := Level.storeSlot_of_ne level resize.new_ne.symm _ _
      refine .of_stay held ?_ ?_ ?_
      · simp only [ownerStep, stored, stealBound_resizeLoop, current_eq]
        rfl
      · exact ownerPhase_resizeLoop _ _ _ _ _ _ _
      · exact outcome_resizeLoop _ _ _ _ _ _
  | resizePublish item bottom old new =>
      obtain ⟨top, resize⟩ := owner
      refine .of_stay held ?_ rfl rfl
      -- the new array agrees with the old one on the whole window
      refine span_congr fun index above below => ?_
      have copied := resize.copied index (resize.top_le.trans above)
        (by rw [resize.bottom_eq]; exact below)
      rw [resize.old_eq] at copied
      exact copied
  | pushStoreSlot item bottom array =>
      obtain ⟨rfl, rfl, roomy⟩ := owner
      refine .of_stay held ?_ rfl rfl
      -- the slot of `_bottom` is none of the stored ones: the queue is not full
      refine span_congr fun index above below => ?_
      have above : level.top ≤ index := above
      have below : index < level.bottom := below
      have close : level.bottom - index < (level.arrays level.array).capacity := by
        rw [Level.current] at roomy
        omega
      have written : (ownerStep level (.pushStoreSlot item level.bottom level.array)).1.current =
          (level.arrays level.array).push level.bottom (some item) :=
        Level.storeSlot_self _ _ _ _
      rw [written]
      exact Array.pop_push_of_lt (power _ array_lt) (top_nonneg.trans above) below close _
  | pushStoreBottom item bottom =>
      obtain ⟨rfl, -, written⟩ := owner
      simp only [logicalBottom] at top_le
      refine ⟨items ++ [item], ?_, .pushes⟩
      rw [List.map_append, held]
      simp only [stored, ownerStep, stealBound, logicalBottom]
      rw [span_add_one_right top_le]
      exact congrArg _ (congrArg (fun content => [content]) written.symm)
  | _ => cases pushing

/-- The steps of `pop`. -/
theorem ownerSimulated_pop (invariant : LevelInv level pc) (popping : pc.pushing = none)
    (busy : ∀ result, pc ≠ .idle result) (held : items.map some = stored level pc) :
    OwnerSimulated items level pc := by
  obtain ⟨top_nonneg, top_le, fits, array_lt, power, owner⟩ := invariant
  cases pc with
  | idle result => exact absurd rfl (busy result)
  | popLoadBottom => exact .of_stay held rfl rfl rfl
  | popLoadArray bottom => exact .of_stay held rfl rfl rfl
  | popStoreBottom bottom array =>
      obtain ⟨rfl, rfl⟩ := owner
      refine .of_stay held ?_ rfl rfl
      simp only [stored, ownerStep, stealBound, logicalBottom]
      rw [Int.sub_add_cancel]
      rfl
  | popLoadTop bottom array =>
      obtain ⟨rfl, rfl⟩ := owner
      rcases lt_trichotomy level.top level.bottom with several | last | empty
      · -- no thief will reach the last item
        have step_eq : ownerStep level (.popLoadTop level.bottom level.array) =
            (level, .popLoadSlot level.bottom level.array level.top) := if_pos several.le
        obtain ⟨before, last, rfl, before_eq, last_eq⟩ := exists_last several.le held
        have reserved : ownerPhase level (.popLoadSlot level.bottom level.array level.top) =
            .done (before ++ [last]).getLast? := by
          rw [ownerPhase, if_neg several.ne, List.getLast?_concat]
          exact congrArg _ last_eq
        have bound : stealBound level (.popLoadSlot level.bottom level.array level.top) =
            level.bottom := if_neg several.ne
        refine ⟨before, ?_, ?_⟩
        · rw [step_eq, stored, bound, before_eq]
        · have move := @OwnerMove.pops _ (before ++ [last])
          rw [List.dropLast_concat, ← reserved] at move
          rw [step_eq]
          exact move
      · have step_eq : ownerStep level (.popLoadTop level.bottom level.array) =
            (level, .popLoadSlot level.bottom level.array level.top) := if_pos last.le
        have contested :
            ownerPhase level (.popLoadSlot level.bottom level.array level.top) = .popping :=
          if_pos last
        have bound : stealBound level (.popLoadSlot level.bottom level.array level.top) =
            level.bottom + 1 := if_pos last
        refine .of_stay held ?_ ?_ ?_
        · rw [step_eq, stored, bound]
          rfl
        · rw [step_eq, contested]
          rfl
        · rw [step_eq]
          rfl
      · have step_eq : ownerStep level (.popLoadTop level.bottom level.array) =
            (level, .popRestoreBottom level.bottom none) := if_neg empty.not_ge
        obtain rfl := eq_nil_of_span (Int.add_one_le_of_lt empty) held
        rw [OwnerSimulated, step_eq]
        exact ⟨[], held, .pops⟩
  | popLoadSlot bottom array top =>
      obtain ⟨rfl, rfl, -, -, -⟩ := owner
      by_cases last : top = level.bottom
      · have step_eq : ownerStep level (.popLoadSlot level.bottom level.array top) =
            (level, .popCompareExchange level.bottom top
              ((level.arrays level.array).pop level.bottom)) := if_pos last
        have contested :
            ownerPhase level (.popLoadSlot level.bottom level.array top) = .popping :=
          if_pos last
        have bound : stealBound level (.popLoadSlot level.bottom level.array top) =
            level.bottom + 1 := if_pos last
        refine .of_stay held ?_ ?_ ?_
        · rw [step_eq, stored, stored, bound]
          rfl
        · rw [step_eq, contested]
          rfl
        · rw [step_eq]
          rfl
      · have step_eq : ownerStep level (.popLoadSlot level.bottom level.array top) =
            (level, .idle ((level.arrays level.array).pop level.bottom)) := if_neg last
        have bound : stealBound level (.popLoadSlot level.bottom level.array top) =
            level.bottom := if_neg last
        have reserved : ownerPhase level (.popLoadSlot level.bottom level.array top) =
            .done ((level.arrays level.array).pop level.bottom) := if_neg last
        rw [stored, bound] at held
        rw [OwnerSimulated, step_eq, reserved]
        exact ⟨items, held, .finishes⟩
  | popCompareExchange bottom top item =>
      obtain ⟨rfl, rfl, top_ge, contents⟩ := owner
      by_cases won : level.top = level.bottom
      · have step_eq : ownerStep level (.popCompareExchange level.bottom level.bottom item) =
            ({ level with top := level.bottom + 1 }, .popRestoreBottom level.bottom item) :=
          if_pos won
        obtain ⟨before, last, rfl, before_eq, last_eq⟩ := exists_last won.le held
        rw [span_of_le won.ge, List.map_eq_nil_iff] at before_eq
        subst before_eq
        rw [OwnerSimulated, step_eq, contents won, last_eq]
        exact ⟨[], (span_of_le le_rfl).symm, .pops⟩
      · have step_eq : ownerStep level (.popCompareExchange level.bottom level.bottom item) =
            (level, .popRestoreBottom level.bottom none) := if_neg won
        obtain rfl := eq_nil_of_span (lt_of_le_of_ne top_ge (Ne.symm won)) held
        rw [OwnerSimulated, step_eq]
        exact ⟨[], held, .pops⟩
  | popRestoreBottom bottom item =>
      obtain ⟨rfl, -⟩ := owner
      exact ⟨items, held, .finishes⟩
  | _ => cases popping

theorem ownerSimulated (invariant : LevelInv level pc) (busy : ∀ result, pc ≠ .idle result)
    (held : items.map some = stored level pc) : OwnerSimulated items level pc := by
  cases pushing : pc.pushing with
  | none => exact ownerSimulated_pop invariant pushing busy held
  | some item => exact ownerSimulated_push invariant pushing held

end Owner

/-! ## The thieves -/

/-- A thief's step leaves the owner's operation where it is. -/
theorem ownerPhase_thiefStep (level : Level Item) (pc : OwnerPc Item) (thief : ThiefPc Item) :
    ownerPhase (thiefStep level thief).1 pc = ownerPhase level pc := by
  have arrays_eq : (thiefStep level thief).1.arrays = level.arrays := by
    cases thief <;> simp only [thiefStep] <;> split <;> rfl
  cases pc with
  | popLoadSlot bottom array top => simp only [ownerPhase, arrays_eq]
  | _ => rfl

theorem thiefSimulated {level : Level Item} {pc : OwnerPc Item} {thief : ThiefPc Item}
    {items : List Item} (invariant : ThiefInv level pc thief)
    (busy : ∀ result, thief ≠ .idle result) (held : items.map some = stored level pc) :
    ∃ after : List Item,
      after.map some = stored (thiefStep level thief).1 pc ∧
        ThiefMove items thief.phase (thiefStep level thief).2.outcome after
          (thiefStep level thief).2.phase := by
  cases thief with
  | idle result => exact absurd rfl (busy result)
  | loadTop => exact ⟨items, held, .stays⟩
  | loadBottom top =>
      simp only [thiefStep]
      split
      · exact ⟨items, held, .stays⟩
      · exact ⟨items, held, .givesUp⟩
  | loadArray top => exact ⟨items, held, .stays⟩
  | loadSlot top array => exact ⟨items, held, .stays⟩
  | compareExchange top item =>
      by_cases won : level.top = top
      · subst won
        obtain ⟨takeable, item_eq⟩ := invariant.2 rfl
        have step_eq : thiefStep level (.compareExchange level.top item) =
            ({ level with top := level.top + 1 }, .idle item) := if_pos rfl
        have bound_eq :
            stealBound { level with top := level.top + 1 } pc = stealBound level pc := by
          cases pc <;> rfl
        obtain ⟨first, rest, rfl, rest_eq, first_eq⟩ := exists_first takeable held
        rw [step_eq, item_eq, first_eq]
        refine ⟨rest, ?_, .takes⟩
        rw [stored, bound_eq]
        exact rest_eq
      · have step_eq : thiefStep level (.compareExchange top item) = (level, .idle none) :=
          if_neg won
        rw [step_eq]
        exact ⟨items, held, .givesUp⟩

/-! ## The simulation -/

/-- The deque agrees with the words and with the threads. -/
structure Simulated (state : State Item Thief) (specification : StealingDeque.State Item Thief) :
    Prop where
  level : LevelInv state.level state.owner
  thieves : ∀ thief, ThiefInv state.level state.owner (state.thieves thief)
  items : specification.items.map some = stored state.level state.owner
  owner : specification.owner = ownerPhase state.level state.owner
  phases : specification.thieves = fun thief => (state.thieves thief).phase

theorem Simulated.initial (exponent : ℕ) (memory : ℕ → ℤ → Option Item) :
    Simulated (State.initial (2 ^ exponent) memory : State Item Thief)
      StealingDeque.State.initial where
  level := (inv_initial exponent memory : Inv (State.initial _ memory : State Item Thief)).level
  thieves := fun _ => trivial
  items := (span_of_le le_rfl).symm
  owner := rfl
  phases := rfl

section Steps

variable [DecidableEq Thief] {state : State Item Thief}
  {specification : StealingDeque.State Item Thief}

theorem Simulated.push (simulated : Simulated state specification) {result : Option Item}
    (idle : state.owner = .idle result) (item : Item) :
    ∃ next, (StealingDeque.system Item Thief).Steps specification [.push item] next ∧
      Simulated { state with owner := .pushLoadBottom item } next := by
  obtain ⟨level, thieves, items, owner, phases⟩ := simulated
  rw [idle] at level thieves items owner
  have taken : (StealingDeque.system Item Thief).next specification (.push item) =
      some { specification with owner := .pushing item } := by
    simp only [StealingDeque.system, StealingDeque.State.next, owner, ownerPhase]
  refine ⟨_, .one taken, ⟨?_, ?_, items, rfl, phases⟩⟩
  · exact ⟨level.1, level.2, level.3, level.4, level.5, trivial⟩
  · intro thief
    exact (thieves thief).frame (.of_bound rfl rfl rfl rfl rfl id)

theorem Simulated.pop (simulated : Simulated state specification) {result : Option Item}
    (idle : state.owner = .idle result) :
    ∃ next, (StealingDeque.system Item Thief).Steps specification [.pop] next ∧
      Simulated { state with owner := .popLoadBottom } next := by
  obtain ⟨level, thieves, items, owner, phases⟩ := simulated
  rw [idle] at level thieves items owner
  have taken : (StealingDeque.system Item Thief).next specification .pop =
      some { specification with owner := .popping } := by
    simp only [StealingDeque.system, StealingDeque.State.next, owner, ownerPhase]
  refine ⟨_, .one taken, ⟨?_, ?_, items, rfl, phases⟩⟩
  · exact ⟨level.1, level.2, level.3, level.4, level.5, trivial⟩
  · intro thief
    exact (thieves thief).frame (.of_bound rfl rfl rfl rfl rfl id)

theorem Simulated.owner_step (simulated : Simulated state specification)
    (busy : ∀ result, state.owner ≠ .idle result) {pushed returned : List Item} :
    ∃ next,
      (StealingDeque.system Item Thief).Steps specification
        ((ownerStep state.level state.owner).2.outcome.toList.map .returned) next ∧
      Simulated
        { state with
          level := (ownerStep state.level state.owner).1
          owner := (ownerStep state.level state.owner).2
          pushed := pushed
          returned := returned } next := by
  obtain ⟨level, thieves, items, owner, phases⟩ := simulated
  obtain ⟨after, held, move⟩ := ownerSimulated level busy items
  rw [← owner] at move
  refine ⟨_, move.steps specification.thieves, ⟨level.ownerStep, ?_, held, rfl, phases⟩⟩
  exact fun thief => (thieves thief).frame level.ownerStep_frame

theorem Simulated.steal (simulated : Simulated state specification) {thief : Thief}
    {result : Option Item} (idle : state.thieves thief = .idle result) :
    ∃ next, (StealingDeque.system Item Thief).Steps specification [.steal thief] next ∧
      Simulated { state with thieves := Function.update state.thieves thief .loadTop } next := by
  obtain ⟨level, thieves, items, owner, phases⟩ := simulated
  have outside : specification.thieves thief = .idle result := by
    simp only [phases, idle, ThiefPc.phase]
  have taken : (StealingDeque.system Item Thief).next specification (.steal thief) =
      some (specification.setThief thief .stealing) := by
    simp only [StealingDeque.system, StealingDeque.State.next, outside]
  refine ⟨_, .one taken, ⟨level, ?_, items, owner, ?_⟩⟩
  · intro other
    dsimp only
    rcases eq_or_ne other thief with rfl | elsewhere
    · rw [Function.update_self]
      trivial
    · rw [Function.update_of_ne elsewhere]
      exact thieves other
  · funext other
    simp only [StealingDeque.State.setThief, phases]
    rcases eq_or_ne other thief with rfl | elsewhere
    · rw [Function.update_self, Function.update_self]
      rfl
    · rw [Function.update_of_ne elsewhere, Function.update_of_ne elsewhere]

theorem Simulated.thief_step (simulated : Simulated state specification) {thief : Thief}
    (busy : ∀ result, state.thieves thief ≠ .idle result) {returned : List Item} :
    ∃ next,
      (StealingDeque.system Item Thief).Steps specification
        ((thiefStep state.level (state.thieves thief)).2.outcome.toList.map (.stole thief))
        next ∧
      Simulated
        { state with
          level := (thiefStep state.level (state.thieves thief)).1
          thieves :=
            Function.update state.thieves thief
              (thiefStep state.level (state.thieves thief)).2
          returned := returned } next := by
  obtain ⟨level, thieves, items, owner, phases⟩ := simulated
  obtain ⟨after, held, move⟩ := thiefSimulated (thieves thief) busy items
  have phase_eq : (state.thieves thief).phase = specification.thieves thief := by rw [phases]
  rw [phase_eq] at move
  refine ⟨_, move.steps, ⟨level.thiefStep (thieves thief), ?_, held, ?_, ?_⟩⟩
  · intro other
    dsimp only
    rcases eq_or_ne other thief with rfl | elsewhere
    · rw [Function.update_self]
      exact (thieves other).thiefStep level level.published
    · rw [Function.update_of_ne elsewhere]
      exact (thieves other).frame (LevelInv.thiefStep_frame _)
  · exact owner.trans (ownerPhase_thiefStep _ _ _).symm
  · funext other
    dsimp only
    rcases eq_or_ne other thief with rfl | elsewhere
    · rw [Function.update_self, Function.update_self]
    · rw [Function.update_of_ne elsewhere, Function.update_of_ne elsewhere, phases]

end Steps

/-- The deque follows the queue step by step. -/
def simulation (Item : Type u) (Thief : Type v) [DecidableEq Thief] (exponent : ℕ) :
    ObservedSystem.Simulation (observed Item Thief (2 ^ exponent)) (fun _ _ => True)
      (StealingDeque.system Item Thief) where
  relation := Simulated
  start := by
    rintro _ ⟨memory, rfl⟩
    exact ⟨_, rfl, .initial exponent memory⟩
  step := by
    intro source action target specification _ _ taken simulated
    rcases next_cases taken with
      ⟨item, result, rfl, idle, rfl⟩ | ⟨result, rfl, idle, rfl⟩ |
      ⟨rfl, busy, rfl⟩ | ⟨thief, rfl, rfl⟩ | ⟨thief, rfl, busy, rfl⟩
    · exact simulated.push idle item
    · exact simulated.pop idle
    · exact simulated.owner_step busy
    · cases outside : source.thieves thief with
      | idle result => exact simulated.steal outside
      | _ => simp [observed, system, TaskQueue.next, outside] at taken
    · obtain ⟨next, steps, follows⟩ := simulated.thief_step busy
      refine ⟨next, ?_, follows⟩
      simpa only [observed, Function.update_self] using steps

/--
Whatever the owner and the thieves do, in any order of their atomic steps, the
calls and their results are a history of the deque whose operations take effect
one at a time.
-/
theorem linearizable (Item : Type u) (Thief : Type v) [DecidableEq Thief] (exponent : ℕ) :
    (observed Item Thief (2 ^ exponent)).Refines (fun _ _ => True)
      (StealingDeque.system Item Thief) :=
  (simulation Item Thief exponent).refines

end AsyncRuntime.TaskQueue
