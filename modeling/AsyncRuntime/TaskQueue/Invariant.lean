import AsyncRuntime.TaskQueue.Model

/-!
# The invariant of the task queue

The words `_top` and `_bottom` do not by themselves delimit the stored items:
while the owner is inside `pop` it has lowered `_bottom` by one although the
item at that index is still contested.  `logicalBottom` adds the index back.
`stealBound` is the first index no thief can still take; it differs from
`logicalBottom` exactly when the owner has seen that it may take an item
without a compare-exchange.

`LevelInv` ties the owner's local copies to the shared words, `ThiefInv` ties a
thief's, however stale, to them: a thief whose copy of `_top` is still current
holds the right item, in whichever array it looked.
-/

namespace AsyncRuntime.TaskQueue

open AsyncRuntime.Foundation

universe u v

variable {Item : Type u} {Thief : Type v}

/-- The array the owner has allocated and not yet stored into `_array`. -/
def OwnerPc.unpublished : OwnerPc Item → Option ℕ
  | .resizeLoad _ _ _ _ new _ => some new
  | .resizeStore _ _ _ _ new _ _ => some new
  | .resizePublish _ _ _ new => some new
  | _ => none

/-- One past the last index that holds an item. -/
def logicalBottom (level : Level Item) : OwnerPc Item → ℤ
  | .popLoadTop _ _ => level.bottom + 1
  | .popLoadSlot _ _ _ => level.bottom + 1
  | .popCompareExchange _ _ _ => level.bottom + 1
  | .popRestoreBottom _ _ => level.bottom + 1
  | _ => level.bottom

/-- One past the last index a thief can still take. -/
def stealBound (level : Level Item) : OwnerPc Item → ℤ
  | .popLoadSlot bottom _ top =>
      if top = bottom then level.bottom + 1 else level.bottom
  | pc => logicalBottom level pc

/-- What a resize in progress has established about the two arrays. -/
structure ResizeInv (level : Level Item) (bottom top : ℤ) (old new : ℕ)
    (index : ℤ) : Prop where
  bottom_eq : bottom = level.bottom
  old_eq : old = level.array
  new_lt : new < level.allocated
  new_ne : new ≠ level.array
  doubled :
    (level.arrays new).capacity = 2 * (level.arrays old).capacity
  top_nonneg : 0 ≤ top
  top_le : top ≤ level.top
  fits : bottom - top ≤ (level.arrays old).capacity
  started : top ≤ index
  index_le : index ≤ bottom
  copied :
    ∀ position, top ≤ position → position < index →
      (level.arrays new).pop position = (level.arrays old).pop position

/-- The owner's local copies against the shared words, at each of its steps. -/
def OwnerInv (level : Level Item) : OwnerPc Item → Prop
  | .idle _ => True
  | .pushLoadBottom _ => True
  | .pushLoadTop _ bottom => bottom = level.bottom
  | .pushLoadArray _ bottom top =>
      bottom = level.bottom ∧ 0 ≤ top ∧ top ≤ level.top ∧ top ≤ bottom ∧
        bottom - top ≤ level.current.capacity
  | .resizeLoad _ bottom top old new index =>
      ResizeInv level bottom top old new index ∧ index ≠ bottom
  | .resizeStore _ bottom top old new index copied =>
      ResizeInv level bottom top old new index ∧ index ≠ bottom ∧
        copied = (level.arrays old).pop index
  | .resizePublish _ bottom old new =>
      ∃ top, ResizeInv level bottom top old new bottom
  | .pushStoreSlot _ bottom array =>
      bottom = level.bottom ∧ array = level.array ∧
        bottom - level.top < level.current.capacity
  | .pushStoreBottom item bottom =>
      bottom = level.bottom ∧ bottom - level.top < level.current.capacity ∧
        level.current.pop bottom = some item
  | .popLoadBottom => True
  | .popLoadArray bottom => bottom = level.bottom - 1
  | .popStoreBottom bottom array =>
      bottom = level.bottom - 1 ∧ array = level.array
  | .popLoadTop bottom array => bottom = level.bottom ∧ array = level.array
  | .popLoadSlot bottom array top =>
      bottom = level.bottom ∧ array = level.array ∧ top ≤ bottom ∧
        top ≤ level.top ∧ (top ≠ bottom → level.top ≤ bottom)
  | .popCompareExchange bottom top item =>
      bottom = level.bottom ∧ top = bottom ∧ bottom ≤ level.top ∧
        (level.top = bottom → item = level.current.pop bottom)
  | .popRestoreBottom bottom _ =>
      bottom = level.bottom ∧ level.top = bottom + 1

/-- The shared words and the owner. -/
structure LevelInv (level : Level Item) (pc : OwnerPc Item) : Prop where
  top_nonneg : 0 ≤ level.top
  top_le : level.top ≤ logicalBottom level pc
  fits : logicalBottom level pc - level.top ≤ level.current.capacity
  array_lt : level.array < level.allocated
  power :
    ∀ pointer, pointer < level.allocated →
      ∃ exponent : ℕ, (level.arrays pointer).capacity = 2 ^ exponent
  owner : OwnerInv level pc

/-- A thief's local copies against the shared words. -/
def ThiefInv (level : Level Item) (pc : OwnerPc Item) : ThiefPc Item → Prop
  | .idle _ => True
  | .loadTop => True
  | .loadBottom top => top ≤ level.top
  | .loadArray top =>
      top ≤ level.top ∧ (top = level.top → top < stealBound level pc)
  | .loadSlot top array =>
      top ≤ level.top ∧ array < level.allocated ∧
        pc.unpublished ≠ some array ∧
        (top = level.top →
          top < stealBound level pc ∧
            (level.arrays array).pop top = level.current.pop top)
  | .compareExchange top item =>
      top ≤ level.top ∧
        (top = level.top →
          top < stealBound level pc ∧ item = level.current.pop top)

/-! ## Reading and writing slots -/

theorem Array.pop_push_self (array : Array Item) (index : ℤ)
    (item : Option Item) :
    (array.push index item).pop index = item := by
  simp [Array.pop, Array.push]

/-- Within one capacity, a store leaves the other indexes alone. -/
theorem Array.pop_push_of_lt {array : Array Item}
    (power : ∃ exponent : ℕ, array.capacity = 2 ^ exponent)
    {index position : ℤ} (nonneg : 0 ≤ position) (ordered : position < index)
    (close : index - position < array.capacity) (item : Option Item) :
    (array.push index item).pop position = array.pop position := by
  obtain ⟨exponent, capacity⟩ := power
  have distinct :
      ringCell array.capacity position ≠ ringCell array.capacity index := by
    rw [capacity] at close ⊢
    exact ringCell_injective_of_lt exponent nonneg ordered close
  simp [Array.pop, Array.push, Function.update_of_ne distinct]

@[simp]
theorem Array.push_capacity (array : Array Item) (index : ℤ)
    (item : Option Item) :
    (array.push index item).capacity = array.capacity := rfl

@[simp]
theorem Level.storeSlot_self (level : Level Item) (pointer : ℕ) (index : ℤ)
    (item : Option Item) :
    (level.storeSlot pointer index item).arrays pointer =
      (level.arrays pointer).push index item := by
  simp [Level.storeSlot]

theorem Level.storeSlot_of_ne (level : Level Item) {pointer other : ℕ}
    (distinct : other ≠ pointer) (index : ℤ) (item : Option Item) :
    (level.storeSlot pointer index item).arrays other = level.arrays other := by
  simp [Level.storeSlot, Function.update_of_ne distinct]

@[simp]
theorem Level.storeSlot_capacity (level : Level Item) (pointer other : ℕ)
    (index : ℤ) (item : Option Item) :
    ((level.storeSlot pointer index item).arrays other).capacity =
      (level.arrays other).capacity := by
  by_cases same : other = pointer
  · subst same
    simp
  · rw [Level.storeSlot_of_ne level same]

@[simp]
theorem Level.allocate_new (level : Level Item) (capacity : ℤ) :
    (level.allocate capacity).arrays level.allocated =
      { level.arrays level.allocated with capacity := capacity } := by
  simp [Level.allocate]

theorem Level.allocate_of_ne (level : Level Item) (capacity : ℤ) {other : ℕ}
    (distinct : other ≠ level.allocated) :
    (level.allocate capacity).arrays other = level.arrays other := by
  simp [Level.allocate, Function.update_of_ne distinct]

theorem Level.allocate_current {level : Level Item} (capacity : ℤ)
    (allocated : level.array < level.allocated) :
    (level.allocate capacity).current = level.current :=
  level.allocate_of_ne capacity allocated.ne

theorem LevelInv.capacity_pos {level : Level Item} {pc : OwnerPc Item}
    (invariant : LevelInv level pc) : 0 < level.current.capacity := by
  obtain ⟨exponent, capacity⟩ := invariant.power _ invariant.array_lt
  rw [Level.current, capacity]
  exact Int.pow_pos (by decide)

/-! ## The steps of the owner -/

@[simp]
theorem logicalBottom_resizeLoop (level : Level Item) (item : Item)
    (bottom top : ℤ) (old new : ℕ) (index : ℤ) :
    logicalBottom level (resizeLoop item bottom top old new index) =
      level.bottom := by
  unfold resizeLoop
  split <;> rfl

@[simp]
theorem stealBound_resizeLoop (level : Level Item) (item : Item)
    (bottom top : ℤ) (old new : ℕ) (index : ℤ) :
    stealBound level (resizeLoop item bottom top old new index) =
      level.bottom := by
  unfold resizeLoop
  split <;> rfl

@[simp]
theorem unpublished_resizeLoop (item : Item) (bottom top : ℤ) (old new : ℕ)
    (index : ℤ) :
    (resizeLoop item bottom top old new index).unpublished = some new := by
  unfold resizeLoop
  split <;> rfl

/-- The loop head keeps the invariant of the resize, whichever way it goes. -/
theorem ResizeInv.loop {level : Level Item} {bottom top : ℤ} {old new : ℕ}
    {index : ℤ} (resize : ResizeInv level bottom top old new index)
    (item : Item) :
    OwnerInv level (resizeLoop item bottom top old new index) := by
  unfold resizeLoop
  split
  · rename_i finished
    subst finished
    exact ⟨top, resize⟩
  · rename_i unfinished
    exact ⟨resize, unfinished⟩

/-- A resize starts with a new array of twice the capacity, into which nothing is copied. -/
theorem ResizeInv.start {level : Level Item} {top : ℤ}
    (array_lt : level.array < level.allocated) (nonneg : 0 ≤ top) (top_le : top ≤ level.top)
    (ordered : top ≤ level.bottom) (close : level.bottom - top ≤ level.current.capacity) :
    ResizeInv (level.allocate (2 * (level.arrays level.array).capacity)) level.bottom top
      level.array level.allocated top := by
  have new_ne : level.allocated ≠ level.array := array_lt.ne'
  exact
    { bottom_eq := rfl
      old_eq := rfl
      new_lt := Nat.lt_succ_self _
      new_ne := new_ne
      doubled := by
        rw [Level.allocate_new, Level.allocate_of_ne level _ new_ne.symm]
      top_nonneg := nonneg
      top_le := top_le
      fits := by
        rw [Level.allocate_of_ne level _ new_ne.symm]
        exact close
      started := le_rfl
      index_le := ordered
      copied := fun position above below => by omega }

/-- Twice a power of two is a power of two. -/
theorem Level.power_allocate {level : Level Item} (array_lt : level.array < level.allocated)
    (power :
      ∀ pointer, pointer < level.allocated →
        ∃ exponent : ℕ, (level.arrays pointer).capacity = 2 ^ exponent) :
    ∀ pointer,
      pointer < (level.allocate (2 * (level.arrays level.array).capacity)).allocated →
        ∃ exponent : ℕ,
          ((level.allocate (2 * (level.arrays level.array).capacity)).arrays pointer).capacity =
            2 ^ exponent := by
  intro pointer pointer_lt
  rcases eq_or_ne pointer level.allocated with rfl | older
  · obtain ⟨exponent, capacity⟩ := power _ array_lt
    refine ⟨exponent + 1, ?_⟩
    rw [Level.allocate_new]
    simp only [capacity]
    rw [pow_succ, mul_comm]
  · rw [Level.allocate_of_ne level _ older]
    apply power
    simp only [Level.allocate] at pointer_lt
    omega

/-- Copying one slot advances the resize. -/
theorem ResizeInv.store {level : Level Item} {bottom top : ℤ} {old new : ℕ}
    {index : ℤ} (resize : ResizeInv level bottom top old new index)
    (unfinished : index ≠ bottom)
    (power :
      ∀ pointer, pointer < level.allocated →
        ∃ exponent : ℕ, (level.arrays pointer).capacity = 2 ^ exponent) :
    ResizeInv (level.storeSlot new index ((level.arrays old).pop index))
      bottom top old new (index + 1) := by
  have old_ne : old ≠ new := by
    rw [resize.old_eq]
    exact resize.new_ne.symm
  have fits := resize.fits
  have started := resize.started
  have doubled := resize.doubled
  have index_lt : index < bottom :=
    lt_of_le_of_ne resize.index_le unfinished
  exact
    { bottom_eq := resize.bottom_eq
      old_eq := resize.old_eq
      new_lt := resize.new_lt
      new_ne := resize.new_ne
      doubled := by simpa using doubled
      top_nonneg := resize.top_nonneg
      top_le := resize.top_le
      fits := by simpa using fits
      started := by omega
      index_le := by omega
      copied := by
        intro position above below
        rw [Level.storeSlot_of_ne level old_ne, Level.storeSlot_self]
        rcases eq_or_ne position index with rfl | elsewhere
        · exact Array.pop_push_self _ _ _
        · have before : position < index := by omega
          rw [Array.pop_push_of_lt (power _ resize.new_lt)
            (resize.top_nonneg.trans above) before (by omega)]
          exact resize.copied position above before }

/-- Every step of the owner keeps the invariant of the shared words. -/
theorem LevelInv.ownerStep {level : Level Item} {pc : OwnerPc Item}
    (invariant : LevelInv level pc) :
    LevelInv (ownerStep level pc).1 (ownerStep level pc).2 := by
  have positive := invariant.capacity_pos
  obtain ⟨top_nonneg, top_le, fits, array_lt, power, owner⟩ := invariant
  cases pc with
  | idle result => exact ⟨top_nonneg, top_le, fits, array_lt, power, trivial⟩
  | pushLoadBottom item => exact ⟨top_nonneg, top_le, fits, array_lt, power, rfl⟩
  | pushLoadTop item bottom =>
      simp only [OwnerInv] at owner
      subst owner
      exact
        ⟨top_nonneg, top_le, fits, array_lt, power,
          rfl, top_nonneg, le_rfl, top_le, fits⟩
  | pushLoadArray item bottom top =>
      obtain ⟨rfl, nonneg, top_old, ordered, close⟩ := owner
      simp only [TaskQueue.ownerStep]
      split
      · have resize := ResizeInv.start array_lt nonneg top_old ordered close
        refine ⟨top_nonneg, ?_, ?_, Nat.lt_succ_of_lt array_lt, Level.power_allocate array_lt power,
          resize.loop item⟩
        · rw [logicalBottom_resizeLoop]
          exact top_le
        · rw [logicalBottom_resizeLoop, Level.allocate_current _ array_lt]
          exact fits
      · rename_i roomy
        refine ⟨top_nonneg, top_le, fits, array_lt, power, rfl, rfl, ?_⟩
        simp only [Level.current]
        omega
  | resizeLoad item bottom top old new index =>
      exact
        ⟨top_nonneg, top_le, fits, array_lt, power, owner.1, owner.2, rfl⟩
  | resizeStore item bottom top old new index copied =>
      obtain ⟨resize, unfinished, rfl⟩ := owner
      have array_ne : level.array ≠ new := resize.new_ne.symm
      refine
        ⟨top_nonneg, ?_, ?_, array_lt, ?_,
          (resize.store unfinished power).loop item⟩
      · simp only [TaskQueue.ownerStep, logicalBottom_resizeLoop]
        exact top_le
      · simp only [TaskQueue.ownerStep, logicalBottom_resizeLoop, Level.current,
          Level.storeSlot_capacity]
        exact fits
      · simp only [TaskQueue.ownerStep, Level.storeSlot_capacity]
        exact power
  | resizePublish item bottom old new =>
      obtain ⟨top, resize⟩ := owner
      obtain ⟨rfl, rfl, new_lt, new_ne, doubled, -, top_old, close, -⟩ := resize
      simp only [logicalBottom, Level.current] at top_le fits positive
      refine
        ⟨top_nonneg, top_le, ?_, new_lt, power, rfl, rfl, ?_⟩
      · simp only [TaskQueue.ownerStep, logicalBottom, Level.current]
        omega
      · simp only [TaskQueue.ownerStep, Level.current]
        omega
  | pushStoreSlot item bottom array =>
      obtain ⟨rfl, rfl, roomy⟩ := owner
      refine ⟨top_nonneg, top_le, ?_, array_lt, ?_, rfl, ?_, ?_⟩
      · simp only [TaskQueue.ownerStep, Level.current, Level.storeSlot_capacity]
        exact fits
      · simp only [TaskQueue.ownerStep, Level.storeSlot_capacity]
        exact power
      · simp only [TaskQueue.ownerStep, Level.current, Level.storeSlot_capacity]
        exact roomy
      · simp only [TaskQueue.ownerStep, Level.current]
        rw [show (level.storeSlot level.array level.bottom (some item)).array =
          level.array from rfl, Level.storeSlot_self]
        exact Array.pop_push_self _ _ _
  | pushStoreBottom item bottom =>
      obtain ⟨rfl, roomy, -⟩ := owner
      simp only [logicalBottom] at top_le fits
      refine ⟨top_nonneg, ?_, ?_, array_lt, power, trivial⟩
      · simp only [TaskQueue.ownerStep, logicalBottom]
        omega
      · simp only [TaskQueue.ownerStep, logicalBottom, Level.current] at roomy ⊢
        omega
  | popLoadBottom => exact ⟨top_nonneg, top_le, fits, array_lt, power, rfl⟩
  | popLoadArray bottom =>
      exact ⟨top_nonneg, top_le, fits, array_lt, power, owner, rfl⟩
  | popStoreBottom bottom array =>
      obtain ⟨rfl, rfl⟩ := owner
      simp only [logicalBottom] at top_le fits
      refine ⟨top_nonneg, ?_, ?_, array_lt, power, rfl, rfl⟩
      · simpa [TaskQueue.ownerStep, logicalBottom] using top_le
      · simpa [TaskQueue.ownerStep, logicalBottom, Level.current] using fits
  | popLoadTop bottom array =>
      obtain ⟨rfl, rfl⟩ := owner
      simp only [logicalBottom] at top_le
      simp only [TaskQueue.ownerStep]
      split
      · rename_i nonempty
        exact
          ⟨top_nonneg, top_le, fits, array_lt, power,
            rfl, rfl, nonempty, le_rfl, fun _ => nonempty⟩
      · refine ⟨top_nonneg, top_le, fits, array_lt, power, rfl, ?_⟩
        show level.top = level.bottom + 1
        omega
  | popLoadSlot bottom array top =>
      obtain ⟨rfl, rfl, top_bottom, top_old, reserved⟩ := owner
      simp only [TaskQueue.ownerStep]
      split
      · rename_i last
        exact
          ⟨top_nonneg, top_le, fits, array_lt, power,
            rfl, last, last ▸ top_old, fun _ => rfl⟩
      · rename_i several
        simp only [logicalBottom] at top_le fits
        refine ⟨top_nonneg, reserved several, ?_, array_lt, power, trivial⟩
        simp only [logicalBottom]
        omega
  | popCompareExchange bottom top item =>
      obtain ⟨rfl, rfl, top_ge, contents⟩ := owner
      simp only [logicalBottom] at top_le fits
      simp only [TaskQueue.ownerStep]
      split
      · rename_i won
        refine ⟨by simpa using by omega, ?_, ?_, array_lt, power, rfl, rfl⟩
        · simp [logicalBottom]
        · simp only [logicalBottom, Level.current] at positive ⊢
          omega
      · refine ⟨top_nonneg, top_le, fits, array_lt, power, rfl, ?_⟩
        show level.top = level.bottom + 1
        omega
  | popRestoreBottom bottom item =>
      obtain ⟨rfl, taken⟩ := owner
      exact ⟨top_nonneg, top_le, fits, array_lt, power, trivial⟩

/-! ## What a step leaves to the thieves -/

/--
A step that a thief elsewhere cannot be hurt by: `_top` never goes back, and as
long as it stays where it is, the item it points to stays takeable and stays in
every array a thief may be looking at.
-/
structure ThiefFrame (level : Level Item) (pc : OwnerPc Item)
    (level' : Level Item) (pc' : OwnerPc Item) : Prop where
  top_le : level.top ≤ level'.top
  allocated_le : level.allocated ≤ level'.allocated
  published :
    ∀ pointer, pointer < level.allocated → pc.unpublished ≠ some pointer →
      pc'.unpublished ≠ some pointer
  bound :
    level'.top = level.top → level.top < stealBound level pc →
      level.top < stealBound level' pc'
  current :
    level'.top = level.top → level.top < stealBound level pc →
      level'.current.pop level.top = level.current.pop level.top
  slots :
    level'.top = level.top → level.top < stealBound level pc →
      ∀ pointer, pointer < level.allocated → pc.unpublished ≠ some pointer →
        (level'.arrays pointer).pop level.top =
          (level.arrays pointer).pop level.top

theorem ThiefInv.frame {level level' : Level Item} {pc pc' : OwnerPc Item}
    (frame : ThiefFrame level pc level' pc') {thief : ThiefPc Item}
    (invariant : ThiefInv level pc thief) :
    ThiefInv level' pc' thief := by
  have top_le := frame.top_le
  cases thief with
  | idle result => trivial
  | loadTop => trivial
  | loadBottom top => exact le_trans invariant top_le
  | loadArray top =>
      obtain ⟨old, current⟩ := invariant
      refine ⟨old.trans top_le, ?_⟩
      intro same
      obtain rfl : top = level.top := by omega
      exact frame.bound same.symm (current rfl)
  | loadSlot top array =>
      obtain ⟨old, allocated, published, current⟩ := invariant
      refine
        ⟨old.trans top_le, allocated.trans_le frame.allocated_le,
          frame.published array allocated published, ?_⟩
      intro same
      obtain rfl : top = level.top := by omega
      obtain ⟨takeable, contents⟩ := current rfl
      refine ⟨frame.bound same.symm takeable, ?_⟩
      rw [frame.slots same.symm takeable array allocated published,
        frame.current same.symm takeable, contents]
  | compareExchange top item =>
      obtain ⟨old, current⟩ := invariant
      refine ⟨old.trans top_le, ?_⟩
      intro same
      obtain rfl : top = level.top := by omega
      obtain ⟨takeable, contents⟩ := current rfl
      exact
        ⟨frame.bound same.symm takeable,
          contents.trans (frame.current same.symm takeable).symm⟩

/-- A step that changes no shared word but the owner's own `_bottom`. -/
theorem ThiefFrame.of_bound {level level' : Level Item} {pc pc' : OwnerPc Item}
    (top_eq : level'.top = level.top)
    (array_eq : level'.array = level.array)
    (arrays_eq : level'.arrays = level.arrays)
    (allocated_eq : level'.allocated = level.allocated)
    (published : pc'.unpublished = pc.unpublished)
    (bound : level.top < stealBound level pc → level.top < stealBound level' pc') :
    ThiefFrame level pc level' pc' where
  top_le := top_eq.ge
  allocated_le := allocated_eq.ge
  published := fun _ _ fresh => published ▸ fresh
  bound := fun _ => bound
  current := fun _ _ => by rw [Level.current, Level.current, arrays_eq, array_eq]
  slots := fun _ _ pointer _ _ => by rw [arrays_eq]

/-- A step that moves `_top` invalidates every copy of it. -/
theorem ThiefFrame.of_top_lt {level level' : Level Item} {pc pc' : OwnerPc Item}
    (top_lt : level.top < level'.top)
    (allocated_eq : level'.allocated = level.allocated)
    (published : pc'.unpublished = pc.unpublished) :
    ThiefFrame level pc level' pc' where
  top_le := top_lt.le
  allocated_le := allocated_eq.ge
  published := fun _ _ fresh => published ▸ fresh
  bound := fun same => absurd same top_lt.ne'
  current := fun same => absurd same top_lt.ne'
  slots := fun same => absurd same top_lt.ne'

/-- No step of the owner hurts a thief. -/
theorem LevelInv.ownerStep_frame {level : Level Item} {pc : OwnerPc Item}
    (invariant : LevelInv level pc) :
    ThiefFrame level pc (TaskQueue.ownerStep level pc).1
      (TaskQueue.ownerStep level pc).2 := by
  obtain ⟨top_nonneg, top_le, fits, array_lt, power, owner⟩ := invariant
  cases pc with
  | idle result => exact .of_bound rfl rfl rfl rfl rfl id
  | pushLoadBottom item => exact .of_bound rfl rfl rfl rfl rfl id
  | pushLoadTop item bottom => exact .of_bound rfl rfl rfl rfl rfl id
  | pushLoadArray item bottom top =>
      simp only [TaskQueue.ownerStep]
      split
      · exact
          { top_le := le_rfl
            allocated_le := Nat.le_succ _
            published := by
              intro pointer allocated _ fresh
              rw [unpublished_resizeLoop, Option.some.injEq] at fresh
              omega
            bound := by
              intro _ takeable
              rw [stealBound_resizeLoop]
              exact takeable
            current := fun _ _ => by rw [Level.allocate_current _ array_lt]
            slots := by
              intro _ _ pointer allocated _
              rw [Level.allocate_of_ne level _ allocated.ne] }
      · exact .of_bound rfl rfl rfl rfl rfl id
  | resizeLoad item bottom top old new index =>
      exact .of_bound rfl rfl rfl rfl rfl id
  | resizeStore item bottom top old new index copied =>
      obtain ⟨resize, unfinished, rfl⟩ := owner
      exact
        { top_le := le_rfl
          allocated_le := le_rfl
          published := by
            intro pointer _ fresh
            simp only [TaskQueue.ownerStep, unpublished_resizeLoop]
            exact fresh
          bound := by
            intro _ takeable
            simp only [TaskQueue.ownerStep, stealBound_resizeLoop]
            exact takeable
          current := by
            intro _ _
            simp only [TaskQueue.ownerStep, Level.current]
            rw [Level.storeSlot_of_ne level]
            · rfl
            · exact resize.new_ne.symm
          slots := by
            intro _ _ pointer _ fresh
            simp only [TaskQueue.ownerStep]
            rw [Level.storeSlot_of_ne level]
            rintro rfl
            exact fresh rfl }
  | resizePublish item bottom old new =>
      obtain ⟨top, resize⟩ := owner
      exact
        { top_le := le_rfl
          allocated_le := le_rfl
          published := fun pointer _ _ => by
            simp [TaskQueue.ownerStep, OwnerPc.unpublished]
          bound := fun _ takeable => takeable
          current := by
            intro _ takeable
            have covered : level.top < bottom := by
              rw [resize.bottom_eq]
              exact takeable
            have copied := resize.copied level.top resize.top_le covered
            rw [resize.old_eq] at copied
            exact copied
          slots := fun _ _ _ _ _ => rfl }
  | pushStoreSlot item bottom array =>
      obtain ⟨rfl, rfl, roomy⟩ := owner
      -- the slot of `_top` is not the slot of `_bottom`: the queue is not full
      have untouched :
          level.top < level.bottom →
            ∀ pointer,
              ((level.storeSlot level.array level.bottom
                    (some item)).arrays pointer).pop level.top =
                (level.arrays pointer).pop level.top := by
        intro takeable pointer
        rcases eq_or_ne pointer level.array with rfl | elsewhere
        · rw [Level.storeSlot_self]
          exact Array.pop_push_of_lt (power _ array_lt) top_nonneg takeable roomy _
        · rw [Level.storeSlot_of_ne level elsewhere]
      exact
        { top_le := le_rfl
          allocated_le := le_rfl
          published := fun pointer _ _ => by
            simp [TaskQueue.ownerStep, OwnerPc.unpublished]
          bound := fun _ takeable => takeable
          current := fun _ takeable => untouched takeable _
          slots := fun _ takeable pointer _ _ => untouched takeable pointer }
  | pushStoreBottom item bottom =>
      obtain ⟨rfl, -, -⟩ := owner
      refine .of_bound rfl rfl rfl rfl rfl ?_
      intro takeable
      exact takeable.trans (by simp [TaskQueue.ownerStep, stealBound, logicalBottom])
  | popLoadBottom => exact .of_bound rfl rfl rfl rfl rfl id
  | popLoadArray bottom => exact .of_bound rfl rfl rfl rfl rfl id
  | popStoreBottom bottom array =>
      obtain ⟨rfl, rfl⟩ := owner
      refine .of_bound rfl rfl rfl rfl rfl ?_
      intro takeable
      simpa [TaskQueue.ownerStep, stealBound, logicalBottom] using takeable
  | popLoadTop bottom array =>
      obtain ⟨rfl, rfl⟩ := owner
      simp only [TaskQueue.ownerStep]
      split
      · refine .of_bound rfl rfl rfl rfl rfl ?_
        intro takeable
        simp only [stealBound, logicalBottom] at takeable ⊢
        split <;> omega
      · exact .of_bound rfl rfl rfl rfl rfl id
  | popLoadSlot bottom array top =>
      simp only [TaskQueue.ownerStep]
      split
      · rename_i last
        refine .of_bound rfl rfl rfl rfl rfl ?_
        intro takeable
        simpa [stealBound, logicalBottom, last] using takeable
      · rename_i several
        refine .of_bound rfl rfl rfl rfl rfl ?_
        intro takeable
        simpa [stealBound, logicalBottom, several] using takeable
  | popCompareExchange bottom top item =>
      simp only [TaskQueue.ownerStep]
      split
      · rename_i won
        exact .of_top_lt (by simp only; omega) rfl rfl
      · exact .of_bound rfl rfl rfl rfl rfl id
  | popRestoreBottom bottom item =>
      obtain ⟨rfl, -⟩ := owner
      exact .of_bound rfl rfl rfl rfl rfl id

/-! ## The steps of a thief -/

theorem stealBound_le (level : Level Item) (pc : OwnerPc Item) :
    stealBound level pc ≤ logicalBottom level pc := by
  cases pc <;> simp only [stealBound, logicalBottom, le_refl]
  split <;> omega

theorem bottom_le_stealBound (level : Level Item) (pc : OwnerPc Item) :
    level.bottom ≤ stealBound level pc := by
  cases pc <;> simp only [stealBound, logicalBottom, le_refl] <;> omega

/-- Taking the item at `_top` is compatible with the owner wherever it is. -/
theorem LevelInv.advanceTop {level : Level Item} {pc : OwnerPc Item}
    (invariant : LevelInv level pc)
    (takeable : level.top < stealBound level pc) :
    LevelInv { level with top := level.top + 1 } pc := by
  have bound := stealBound_le level pc
  obtain ⟨top_nonneg, top_le, fits, array_lt, power, owner⟩ := invariant
  have logical_eq :
      logicalBottom { level with top := level.top + 1 } pc =
        logicalBottom level pc := by
    cases pc <;> rfl
  refine ⟨?_, ?_, ?_, array_lt, power, ?_⟩
  · simp only
    omega
  · rw [logical_eq]
    simp only
    omega
  · rw [logical_eq]
    simp only [Level.current] at fits ⊢
    omega
  · cases pc with
    | idle result => trivial
    | pushLoadBottom item => trivial
    | pushLoadTop item bottom => exact owner
    | pushLoadArray item bottom top =>
        obtain ⟨same, nonneg, old, ordered, close⟩ := owner
        exact ⟨same, nonneg, old.trans (by simp), ordered, close⟩
    | resizeLoad item bottom top old new index =>
        obtain ⟨resize, unfinished⟩ := owner
        exact ⟨{ resize with top_le := resize.top_le.trans (by simp) }, unfinished⟩
    | resizeStore item bottom top old new index copied =>
        obtain ⟨resize, unfinished, slot⟩ := owner
        exact
          ⟨{ resize with top_le := resize.top_le.trans (by simp) }, unfinished, slot⟩
    | resizePublish item bottom old new =>
        obtain ⟨top, resize⟩ := owner
        exact ⟨top, { resize with top_le := resize.top_le.trans (by simp) }⟩
    | pushStoreSlot item bottom array =>
        obtain ⟨same, array_eq, roomy⟩ := owner
        refine ⟨same, array_eq, ?_⟩
        simp only [Level.current] at roomy ⊢
        omega
    | pushStoreBottom item bottom =>
        obtain ⟨same, roomy, slot⟩ := owner
        refine ⟨same, ?_, slot⟩
        simp only [Level.current] at roomy ⊢
        omega
    | popLoadBottom => trivial
    | popLoadArray bottom => exact owner
    | popStoreBottom bottom array => exact owner
    | popLoadTop bottom array => exact owner
    | popLoadSlot bottom array top =>
        obtain ⟨same, array_eq, top_bottom, old, reserved⟩ := owner
        refine ⟨same, array_eq, top_bottom, old.trans (by simp), ?_⟩
        intro several
        simp only [stealBound, several, if_false] at takeable
        simp only
        omega
    | popCompareExchange bottom top item =>
        obtain ⟨same, last, top_ge, contents⟩ := owner
        refine ⟨same, last, top_ge.trans (by simp), ?_⟩
        simp only
        omega
    | popRestoreBottom bottom item =>
        obtain ⟨same, taken⟩ := owner
        simp only [stealBound, logicalBottom] at takeable
        omega

/-- A thief's step keeps the invariant of the words and of the owner. -/
theorem LevelInv.thiefStep {level : Level Item} {pc : OwnerPc Item}
    (invariant : LevelInv level pc) {thief : ThiefPc Item}
    (thief_inv : ThiefInv level pc thief) :
    LevelInv (thiefStep level thief).1 pc := by
  cases thief with
  | idle result => exact invariant
  | loadTop => exact invariant
  | loadBottom top =>
      simp only [TaskQueue.thiefStep]
      split <;> exact invariant
  | loadArray top => exact invariant
  | loadSlot top array => exact invariant
  | compareExchange top item =>
      simp only [TaskQueue.thiefStep]
      split
      · rename_i won
        subst won
        exact invariant.advanceTop (thief_inv.2 rfl).1
      · exact invariant

theorem LevelInv.thiefStep_frame {level : Level Item} {pc : OwnerPc Item}
    (thief : ThiefPc Item) :
    ThiefFrame level pc (TaskQueue.thiefStep level thief).1 pc := by
  cases thief with
  | idle result => exact .of_bound rfl rfl rfl rfl rfl id
  | loadTop => exact .of_bound rfl rfl rfl rfl rfl id
  | loadBottom top =>
      simp only [TaskQueue.thiefStep]
      split <;> exact .of_bound rfl rfl rfl rfl rfl id
  | loadArray top => exact .of_bound rfl rfl rfl rfl rfl id
  | loadSlot top array => exact .of_bound rfl rfl rfl rfl rfl id
  | compareExchange top item =>
      simp only [TaskQueue.thiefStep]
      split
      · rename_i won
        exact .of_top_lt (by simp only; omega) rfl rfl
      · exact .of_bound rfl rfl rfl rfl rfl id

/-- A thief's step keeps its own invariant. -/
theorem ThiefInv.thiefStep {level : Level Item} {pc : OwnerPc Item}
    (invariant : LevelInv level pc)
    (published : pc.unpublished ≠ some level.array) {thief : ThiefPc Item}
    (thief_inv : ThiefInv level pc thief) :
    ThiefInv (TaskQueue.thiefStep level thief).1 pc
      (TaskQueue.thiefStep level thief).2 := by
  cases thief with
  | idle result => trivial
  | loadTop => exact le_refl level.top
  | loadBottom top =>
      simp only [TaskQueue.thiefStep]
      split
      · rename_i nonempty
        exact ⟨thief_inv, fun _ => nonempty.trans_le (bottom_le_stealBound level pc)⟩
      · trivial
  | loadArray top =>
      obtain ⟨old, current⟩ := thief_inv
      exact
        ⟨old, invariant.array_lt, published, fun same => ⟨current same, rfl⟩⟩
  | loadSlot top array =>
      obtain ⟨old, -, -, current⟩ := thief_inv
      exact ⟨old, current⟩
  | compareExchange top item =>
      simp only [TaskQueue.thiefStep]
      split <;> trivial

/-- The array the owner is still filling is never the published one. -/
theorem LevelInv.published {level : Level Item} {pc : OwnerPc Item}
    (invariant : LevelInv level pc) : pc.unpublished ≠ some level.array := by
  have owner := invariant.owner
  cases pc with
  | resizeLoad item bottom top old new index =>
      intro same
      exact owner.1.new_ne (Option.some.inj same)
  | resizeStore item bottom top old new index copied =>
      intro same
      exact owner.1.new_ne (Option.some.inj same)
  | resizePublish item bottom old new =>
      obtain ⟨top, resize⟩ := owner
      intro same
      exact resize.new_ne (Option.some.inj same)
  | _ => simp [OwnerPc.unpublished]

end AsyncRuntime.TaskQueue
