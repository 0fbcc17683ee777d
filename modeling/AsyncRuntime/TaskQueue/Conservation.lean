import AsyncRuntime.TaskQueue.Invariant

/-!
# The task queue neither loses nor duplicates an item

The items in the queue at any moment are the contents of the window from
`_top` to the logical bottom together with the item a `pop` has won and not yet
returned.  Every step keeps the balance between the items pushed, the items
handed out and the items in the queue; with pairwise distinct pushes this gives
that no item is handed out twice.
-/

namespace AsyncRuntime.TaskQueue

open AsyncRuntime.Foundation

universe u v

variable {Item : Type u} {Thief : Type v}

/-- The item a `pop` has won by compare-exchange and will return. -/
def OwnerPc.held : OwnerPc Item → Option Item
  | .popRestoreBottom _ item => item
  | _ => none

/-- An optional item as a multiset of non-null pointers. -/
def pointers (item : Option Item) : Multiset (Option Item) :=
  (item.toList.map some : List (Option Item))

@[simp]
theorem pointers_none : pointers (none : Option Item) = 0 := rfl

@[simp]
theorem pointers_some (item : Item) : pointers (some item) = {some item} := rfl

theorem pointers_of_ne_none {item : Option Item} (nonNull : item ≠ none) :
    pointers item = {item} := by
  obtain ⟨value, rfl⟩ := Option.ne_none_iff_exists'.mp nonNull
  rfl

/-- Everything the queue still owes: the stored items and the held one. -/
def contents (level : Level Item) (pc : OwnerPc Item) :
    Multiset (Option Item) :=
  pointers pc.held +
    window level.current.pop level.top (logicalBottom level pc)

/-- The balance of one step of the owner. -/
theorem contents_ownerStep {level : Level Item} {pc : OwnerPc Item}
    (invariant : LevelInv level pc)
    (nonNull : none ∉ contents level pc)
    (busy : ∀ result, pc ≠ .idle result) :
    contents (ownerStep level pc).1 (ownerStep level pc).2 +
        pointers (ownerStep level pc).2.handsOut =
      contents level pc + pointers pc.completes := by
  obtain ⟨top_nonneg, top_le, fits, array_lt, power, owner⟩ := invariant
  cases pc with
  | idle result => exact absurd rfl (busy result)
  | pushLoadBottom item => rfl
  | pushLoadTop item bottom => rfl
  | pushLoadArray item bottom top =>
      simp only [ownerStep]
      split
      · have held :
            (resizeLoop item bottom top level.array level.allocated top).held =
              none := by
          unfold resizeLoop
          split <;> rfl
        have handsOut :
            (resizeLoop item bottom top level.array level.allocated top).handsOut =
              none := by
          unfold resizeLoop
          split <;> rfl
        simp only [contents, held, handsOut, logicalBottom_resizeLoop,
          Level.allocate_current _ array_lt]
        rfl
      · rfl
  | resizeLoad item bottom top old new index => rfl
  | resizeStore item bottom top old new index copied =>
      obtain ⟨resize, unfinished, rfl⟩ := owner
      have held :
          (resizeLoop item bottom top old new (index + 1)).held = none := by
        unfold resizeLoop
        split <;> rfl
      have handsOut :
          (resizeLoop item bottom top old new (index + 1)).handsOut = none := by
        unfold resizeLoop
        split <;> rfl
      have current_eq :
          (level.storeSlot new index ((level.arrays old).pop index)).current =
            level.current := by
        simp only [Level.current]
        rw [Level.storeSlot_of_ne level]
        · rfl
        · exact resize.new_ne.symm
      simp only [ownerStep, contents, held, handsOut, logicalBottom_resizeLoop,
        current_eq]
      rfl
  | resizePublish item bottom old new =>
      obtain ⟨top, resize⟩ := owner
      -- the new array agrees with the old one on the whole window
      have agree :
          ∀ index, level.top ≤ index → index < level.bottom →
            (level.arrays new).pop index = level.current.pop index := by
        intro index above below
        have copied :=
          resize.copied index (resize.top_le.trans above)
            (by rw [resize.bottom_eq]; exact below)
        rw [resize.old_eq] at copied
        exact copied
      have windows :
          window (level.arrays new).pop level.top level.bottom =
            window level.current.pop level.top level.bottom :=
        window_congr agree
      simp only [ownerStep, contents, OwnerPc.held, OwnerPc.handsOut,
        OwnerPc.completes, logicalBottom, Level.current]
      simp only [Level.current] at windows
      rw [windows]
  | pushStoreSlot item bottom array =>
      obtain ⟨rfl, rfl, roomy⟩ := owner
      have agree :
          ∀ index, level.top ≤ index → index < level.bottom →
            ((level.storeSlot level.array level.bottom
                (some item)).current).pop index =
              level.current.pop index := by
        intro index above below
        simp only [Level.current] at roomy ⊢
        rw [show (level.storeSlot level.array level.bottom (some item)).array =
          level.array from rfl, Level.storeSlot_self]
        exact
          Array.pop_push_of_lt (power _ array_lt) (top_nonneg.trans above) below
            (by omega) _
      simp only [ownerStep, contents, OwnerPc.held, OwnerPc.handsOut,
        OwnerPc.completes, logicalBottom]
      exact congrArg (_ + · + _) (window_congr agree)
  | pushStoreBottom item bottom =>
      obtain ⟨rfl, -, slot⟩ := owner
      simp only [logicalBottom] at top_le
      simp only [ownerStep, contents, OwnerPc.held, OwnerPc.handsOut,
        OwnerPc.completes, logicalBottom, Level.current] at slot ⊢
      rw [window_add_one_right top_le, slot]
      simp [Multiset.add_comm]
  | popLoadBottom => rfl
  | popLoadArray bottom => rfl
  | popStoreBottom bottom array =>
      obtain ⟨rfl, rfl⟩ := owner
      simp [ownerStep, contents, OwnerPc.held, OwnerPc.handsOut,
        OwnerPc.completes, logicalBottom, Level.current]
  | popLoadTop bottom array =>
      simp only [ownerStep]
      split <;> rfl
  | popLoadSlot bottom array top =>
      obtain ⟨rfl, rfl, top_bottom, top_old, reserved⟩ := owner
      simp only [ownerStep]
      split
      · rfl
      · rename_i several
        have reserved := reserved several
        simp only [contents, OwnerPc.held, OwnerPc.handsOut, OwnerPc.completes,
          logicalBottom, pointers_none, Multiset.zero_add, Multiset.add_zero,
          window_add_one_right reserved] at nonNull ⊢
        have itemNonNull : (level.arrays level.array).pop level.bottom ≠ none := by
          intro null
          apply nonNull
          rw [Level.current, null]
          exact Multiset.mem_cons_self _ _
        rw [pointers_of_ne_none itemNonNull, Multiset.add_comm,
          Multiset.singleton_add]
        rfl
  | popCompareExchange bottom top item =>
      obtain ⟨rfl, rfl, top_ge, current⟩ := owner
      simp only [logicalBottom] at top_le
      simp only [ownerStep]
      split
      · rename_i won
        obtain rfl := current won
        simp only [contents, OwnerPc.held, OwnerPc.handsOut, OwnerPc.completes,
          logicalBottom, pointers_none, Multiset.zero_add, Multiset.add_zero,
          won, window_add_one_right le_rfl, window_of_le le_rfl] at nonNull ⊢
        have itemNonNull : level.current.pop level.bottom ≠ none := by
          intro null
          apply nonNull
          rw [null]
          exact Multiset.mem_cons_self _ _
        rw [pointers_of_ne_none itemNonNull]
        rfl
      · rfl
  | popRestoreBottom bottom item =>
      obtain ⟨rfl, taken⟩ := owner
      simp only [ownerStep, contents, OwnerPc.held, OwnerPc.handsOut,
        OwnerPc.completes, logicalBottom, pointers_none, Multiset.zero_add,
        Multiset.add_zero, taken, window_of_le le_rfl]

/-- The balance of one step of a thief. -/
theorem contents_thiefStep {level : Level Item} {pc : OwnerPc Item}
    {thief : ThiefPc Item} (thief_inv : ThiefInv level pc thief)
    (nonNull : none ∉ contents level pc)
    (busy : ∀ result, thief ≠ .idle result) :
    contents (thiefStep level thief).1 pc +
        pointers (thiefStep level thief).2.handsOut =
      contents level pc := by
  cases thief with
  | idle result => exact absurd rfl (busy result)
  | loadTop => exact Multiset.add_zero _
  | loadBottom top =>
      simp only [thiefStep]
      split <;> exact Multiset.add_zero _
  | loadArray top => exact Multiset.add_zero _
  | loadSlot top array => exact Multiset.add_zero _
  | compareExchange top item =>
      simp only [thiefStep]
      split
      · rename_i won
        subst won
        obtain ⟨takeable, rfl⟩ := thief_inv.2 rfl
        have stored : level.top < logicalBottom level pc :=
          takeable.trans_le (stealBound_le level pc)
        have logical_eq :
            logicalBottom { level with top := level.top + 1 } pc =
              logicalBottom level pc := by
          cases pc <;> rfl
        simp only [contents, window_add_one_left stored] at nonNull
        have itemNonNull : level.current.pop level.top ≠ none := by
          intro null
          apply nonNull
          rw [null]
          exact Multiset.mem_add.mpr (.inr (Multiset.mem_cons_self _ _))
        simp only [contents, ThiefPc.handsOut]
        rw [logical_eq, window_add_one_left stored,
          pointers_of_ne_none itemNonNull, Multiset.add_assoc,
          Multiset.add_comm (window _ _ _), Multiset.singleton_add]
        rfl
      · exact Multiset.add_zero _

/-! ## Whole runs -/

/-- The item of the `push` in progress. -/
def OwnerPc.pushing : OwnerPc Item → Option Item
  | .pushLoadBottom item => some item
  | .pushLoadTop item _ => some item
  | .pushLoadArray item _ _ => some item
  | .resizeLoad item _ _ _ _ _ => some item
  | .resizeStore item _ _ _ _ _ _ => some item
  | .resizePublish item _ _ _ => some item
  | .pushStoreSlot item _ _ => some item
  | .pushStoreBottom item _ => some item
  | _ => none

@[simp]
theorem pushing_resizeLoop (item : Item) (bottom top : ℤ) (old new : ℕ)
    (index : ℤ) :
    (resizeLoop item bottom top old new index).pushing = some item := by
  unfold resizeLoop
  split <;> rfl

/-- A step either goes on with the same `push`, or completes it, or has none. -/
theorem pushing_ownerStep (level : Level Item) (pc : OwnerPc Item) :
    (ownerStep level pc).2.pushing = pc.pushing ∧ pc.completes = none ∨
      (ownerStep level pc).2.pushing = none ∧ pc.completes = pc.pushing := by
  cases pc with
  | pushLoadArray item bottom top =>
      left
      simp only [ownerStep]
      split
      · exact ⟨pushing_resizeLoop _ _ _ _ _ _, rfl⟩
      · exact ⟨rfl, rfl⟩
  | resizeStore item bottom top old new index copied =>
      exact .inl ⟨pushing_resizeLoop _ _ _ _ _ _, rfl⟩
  | pushStoreBottom item bottom => exact .inr ⟨rfl, rfl⟩
  | popLoadTop bottom array =>
      left
      simp only [ownerStep]
      split <;> exact ⟨rfl, rfl⟩
  | popLoadSlot bottom array top =>
      left
      simp only [ownerStep]
      split <;> exact ⟨rfl, rfl⟩
  | popCompareExchange bottom top item =>
      left
      simp only [ownerStep]
      split <;> exact ⟨rfl, rfl⟩
  | _ => exact .inl ⟨rfl, rfl⟩

/-- Everything one step of the queue can be. -/
theorem next_cases [DecidableEq Thief] {state target : State Item Thief}
    {action : Action Item Thief} (taken : next state action = some target) :
    (∃ item result,
        action = .push item ∧ state.owner = .idle result ∧
          target = { state with owner := .pushLoadBottom item }) ∨
      (∃ result,
        action = .pop ∧ state.owner = .idle result ∧
          target = { state with owner := .popLoadBottom }) ∨
      (action = .owner ∧ (∀ result, state.owner ≠ .idle result) ∧
        target =
          { state with
            level := (ownerStep state.level state.owner).1
            owner := (ownerStep state.level state.owner).2
            pushed := state.pushed ++ state.owner.completes.toList
            returned :=
              state.returned ++
                (ownerStep state.level state.owner).2.handsOut.toList }) ∨
      (∃ thief,
        action = .steal thief ∧
          target =
            { state with
              thieves := Function.update state.thieves thief .loadTop }) ∨
      ∃ thief,
        action = .thief thief ∧
          (∀ result, state.thieves thief ≠ .idle result) ∧
          target =
            { state with
              level := (thiefStep state.level (state.thieves thief)).1
              thieves :=
                Function.update state.thieves thief
                  (thiefStep state.level (state.thieves thief)).2
              returned :=
                state.returned ++
                  (thiefStep state.level
                    (state.thieves thief)).2.handsOut.toList } := by
  cases action with
  | push item =>
      left
      cases pc : state.owner <;> simp only [next, pc, reduceCtorEq,
        Option.some.injEq] at taken
      exact ⟨item, _, rfl, rfl, taken.symm⟩
  | pop =>
      right; left
      cases pc : state.owner <;> simp only [next, pc, reduceCtorEq,
        Option.some.injEq] at taken
      exact ⟨_, rfl, rfl, taken.symm⟩
  | owner =>
      right; right; left
      cases pc : state.owner <;> simp only [next, pc, reduceCtorEq,
        Option.some.injEq] at taken <;>
      exact ⟨rfl, nofun, taken.symm⟩
  | steal thief =>
      right; right; right; left
      cases pc : state.thieves thief <;> simp only [next, pc, reduceCtorEq,
        Option.some.injEq] at taken
      exact ⟨thief, rfl, taken.symm⟩
  | thief thief =>
      right; right; right; right
      cases pc : state.thieves thief <;> simp only [next, pc, reduceCtorEq,
        Option.some.injEq] at taken <;>
      exact ⟨thief, rfl, by rw [pc]; nofun, by rw [pc]; exact taken.symm⟩

/-- The invariant of every run with pairwise distinct pushes. -/
structure Inv (state : State Item Thief) : Prop where
  level : LevelInv state.level state.owner
  thieves :
    ∀ thief, ThiefInv state.level state.owner (state.thieves thief)
  balance :
    ((state.pushed.map some : List (Option Item)) : Multiset (Option Item)) =
      ((state.returned.map some : List (Option Item)) : Multiset (Option Item)) +
        contents state.level state.owner
  distinct : state.pushed.Nodup
  fresh :
    ∀ item, state.owner.pushing = some item → item ∉ state.pushed

theorem Inv.nonNull {state : State Item Thief} (invariant : Inv state) :
    none ∉ contents state.level state.owner := by
  intro member
  have pushed :
      none ∈
        ((state.pushed.map some : List (Option Item)) :
          Multiset (Option Item)) := by
    rw [invariant.balance]
    exact Multiset.mem_add.mpr (.inr member)
  simp at pushed

theorem inv_initial (exponent : ℕ) (memory : ℕ → ℤ → Option Item) :
    Inv (State.initial (2 ^ exponent) memory : State Item Thief) where
  level :=
    { top_nonneg := le_rfl
      top_le := le_rfl
      fits := by
        show (0 : ℤ) - 0 ≤ 2 ^ exponent
        rw [Int.sub_self]
        exact Int.pow_nonneg (by decide)
      array_lt := Nat.zero_lt_one
      power := fun _ _ => ⟨exponent, rfl⟩
      owner := trivial }
  thieves := fun _ => trivial
  balance := by
    simp [State.initial, Level.create, contents, OwnerPc.held, logicalBottom,
      window_of_le]
  distinct := List.nodup_nil
  fresh := by simp [State.initial, OwnerPc.pushing]

theorem coe_append_toList (items : List Item) (item : Option Item) :
    (((items ++ item.toList).map some : List (Option Item)) :
        Multiset (Option Item)) =
      ((items.map some : List (Option Item)) : Multiset (Option Item)) +
        pointers item := by
  rw [List.map_append, ← Multiset.coe_add]
  rfl

theorem Inv.next [DecidableEq Thief] {state target : State Item Thief}
    {action : Action Item Thief} (invariant : Inv state)
    (permitted : distinctPushes state action)
    (taken : TaskQueue.next state action = some target) :
    Inv target := by
  have nonNull := invariant.nonNull
  obtain ⟨level, thieves, balance, distinct, fresh⟩ := invariant
  rcases next_cases taken with
    ⟨item, result, rfl, idle, rfl⟩ | ⟨result, rfl, idle, rfl⟩ |
    ⟨rfl, busy, rfl⟩ | ⟨thief, rfl, rfl⟩ | ⟨thief, rfl, busy, rfl⟩
  · rw [idle] at level thieves balance
    refine ⟨⟨level.1, level.2, level.3, level.4, level.5, trivial⟩, ?_, balance,
      distinct, ?_⟩
    · intro thief
      exact (thieves thief).frame (.of_bound rfl rfl rfl rfl rfl id)
    · intro pushing same
      obtain rfl := Option.some.inj same
      exact permitted
  · rw [idle] at level thieves balance
    refine ⟨⟨level.1, level.2, level.3, level.4, level.5, trivial⟩, ?_, balance,
      distinct, nofun⟩
    intro thief
    exact (thieves thief).frame (.of_bound rfl rfl rfl rfl rfl id)
  · refine
      ⟨level.ownerStep, fun thief => (thieves thief).frame level.ownerStep_frame,
        ?_, ?_, ?_⟩
    · simp only [coe_append_toList]
      rw [balance, Multiset.add_assoc, Multiset.add_assoc,
        ← contents_ownerStep level nonNull busy,
        Multiset.add_comm (contents _ _)]
    · simp only
      rcases pushing_ownerStep state.level state.owner with
        ⟨-, completes⟩ | ⟨-, completes⟩
      · simpa [completes] using distinct
      · rw [completes]
        cases pushing : state.owner.pushing with
        | none => simpa using distinct
        | some item =>
            have apart : ∀ other ∈ state.pushed, other ≠ item := by
              rintro other member rfl
              exact fresh other pushing member
            simpa [List.nodup_append, distinct] using apart
    · intro item pushing
      simp only at pushing ⊢
      rcases pushing_ownerStep state.level state.owner with
        ⟨same, completes⟩ | ⟨none, -⟩
      · rw [completes]
        simpa using fresh item (same ▸ pushing)
      · rw [none] at pushing
        exact absurd pushing nofun
  · refine ⟨level, ?_, balance, distinct, fresh⟩
    intro other
    simp only
    rcases eq_or_ne other thief with rfl | elsewhere
    · rw [Function.update_self]
      trivial
    · rw [Function.update_of_ne elsewhere]
      exact thieves other
  · refine ⟨level.thiefStep (thieves thief), ?_, ?_, distinct, fresh⟩
    · intro other
      simp only
      rcases eq_or_ne other thief with rfl | elsewhere
      · rw [Function.update_self]
        exact (thieves other).thiefStep level level.published
      · rw [Function.update_of_ne elsewhere]
        exact (thieves other).frame (LevelInv.thiefStep_frame _)
    · simp only [coe_append_toList]
      rw [balance, Multiset.add_assoc,
        ← contents_thiefStep (thieves thief) nonNull busy,
        Multiset.add_comm (contents _ _)]

theorem reachable_inv [DecidableEq Thief] {exponent : ℕ}
    {state : State Item Thief}
    (reachable :
      (system Item Thief (2 ^ exponent)).ReachableUnder distinctPushes state) :
    Inv state := by
  refine reachable.invariant ?_ ?_
  · rintro _ ⟨memory, rfl⟩
    exact inv_initial exponent memory
  · intro source action target _ permitted taken invariant
    exact invariant.next permitted taken

/--
In every run with pairwise distinct pushes, from any power-of-two capacity and
under any number of thieves: no item is handed out twice, only pushed items are
handed out, and whenever no operation is in progress the pushed items are
exactly the items handed out plus those stored from `_top` to `_bottom - 1`.
-/
theorem reachable_conserves [DecidableEq Thief] (exponent : ℕ)
    {state : State Item Thief}
    (reachable :
      (system Item Thief (2 ^ exponent)).ReachableUnder distinctPushes state) :
    state.returned.Nodup ∧
      (∀ item ∈ state.returned, item ∈ state.pushed) ∧
      (state.quiescent →
        ((state.pushed.map some : List (Option Item)) : Multiset (Option Item)) =
          ((state.returned.map some : List (Option Item)) :
              Multiset (Option Item)) +
            window state.level.current.pop state.level.top state.level.bottom) := by
  have invariant := reachable_inv reachable
  have below :
      ((state.returned.map some : List (Option Item)) :
          Multiset (Option Item)) ≤
        ((state.pushed.map some : List (Option Item)) :
          Multiset (Option Item)) := by
    rw [invariant.balance]
    exact Multiset.le_add_right _ _
  refine ⟨?_, ?_, ?_⟩
  · have pushed : (state.pushed.map some).Nodup :=
      invariant.distinct.map (Option.some_injective Item)
    have returned : (state.returned.map some).Nodup :=
      Multiset.coe_nodup.mp
        (Multiset.nodup_of_le below (Multiset.coe_nodup.mpr pushed))
    exact returned.of_map some
  · intro item member
    have returned : some item ∈ state.returned.map some :=
      List.mem_map_of_mem member
    have pushed := Multiset.mem_of_le below (Multiset.mem_coe.mpr returned)
    simpa using pushed
  · rintro ⟨⟨result, idle⟩, -⟩
    have balance := invariant.balance
    rw [idle] at balance
    simpa [contents, OwnerPc.held, logicalBottom] using balance

/-- A queue of capacity one: two pushes, the second of which resizes, and a steal. -/
def stealAfterResize : List (Action ℕ Unit) :=
  [.push 7, .owner, .owner, .owner, .owner, .owner, .steal (), .thief (),
    .thief (), .push 8, .owner, .owner, .owner, .owner, .owner, .thief (),
    .owner, .owner, .owner, .thief (), .thief ()]

/-- The thief that read the first array hands out the item after the resize. -/
theorem reachable_conserves_stealAfterResize :
    ∃ state : State ℕ Unit,
      (system ℕ Unit (2 ^ 0)).ReachableUnder distinctPushes state ∧
        state.returned = [7] ∧ state.pushed = [7, 8] ∧
        ((state.pushed.map some : List (Option ℕ)) : Multiset (Option ℕ)) =
          ((state.returned.map some : List (Option ℕ)) : Multiset (Option ℕ)) +
            window state.level.current.pop state.level.top state.level.bottom := by
  obtain ⟨state, reachable, holds⟩ :=
    TransitionSystem.exists_reachableUnder_of_run
      (system ℕ Unit (2 ^ 0)) distinctPushes
      ⟨fun _ _ => none, rfl⟩
      stealAfterResize
      (fun state =>
        decide
          (state.returned = [7] ∧ state.pushed = [7, 8] ∧
            state.owner = .idle none ∧ state.thieves () = .idle (some 7)))
      (by decide)
  simp only [decide_eq_true_eq] at holds
  obtain ⟨returned, pushed, owner, thief⟩ := holds
  have quiescent : state.quiescent :=
    ⟨⟨_, owner⟩, fun _ => ⟨_, thief⟩⟩
  exact
    ⟨state, reachable, returned, pushed,
      (reachable_conserves 0 reachable).2.2 quiescent⟩

end AsyncRuntime.TaskQueue
