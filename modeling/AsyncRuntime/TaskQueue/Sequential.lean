import AsyncRuntime.TaskQueue.Invariant
import Mathlib.Algebra.BigOperators.Fin
import Mathlib.Logic.Relation
import Mathlib.Tactic.Abel
import Mathlib.Tactic.Positivity
import Mathlib.Tactic.Ring

/-!
# The task queue used by one thread at a time

When no two operations overlap, `push`, `pop` and `steal` are functions of the
level.  They are written out here as the source has them, together with the loops
over the priorities, `size`, `empty` and `capacity`.  Each function is what its
thread does when it runs alone in the interleaved model.

The purpose of the queue is stated separately, as an array of double-ended queues:
`pop` takes the last item of a level, `steal` the first one, and without a priority
both act on the lowest level that has an item.  Any sequence of calls conforms to
it.
-/

namespace AsyncRuntime.TaskQueue

open AsyncRuntime.Foundation

universe u

variable {Item : Type u}

/-! ## The operations on one level -/

/-- The loop of `Array::resize` with this many iterations to go. -/
def Array.copy (old : Array Item) : Array Item → ℤ → ℕ → Array Item
  | new, _, 0 => new
  | new, index, count + 1 =>
      old.copy (new.push index (old.pop index)) (index + 1) count

/-- `Array::resize(b, t)` on uninitialised memory. -/
def Array.resize (array : Array Item) (memory : ℤ → Option Item) (bottom top : ℤ) :
    Array Item :=
  array.copy { capacity := 2 * array.capacity, slots := memory } top
    (bottom - top).toNat

namespace Level

/-- `resize_array(a, p, b, t)`. -/
def resizeArray (level : Level Item) (bottom top : ℤ) : Level Item :=
  { level with
    array := level.allocated
    arrays := Function.update level.arrays level.allocated
      (level.current.resize (level.arrays level.allocated).slots bottom top)
    allocated := level.allocated + 1
    garbage := level.garbage ++ [level.array] }

/-- `push(o, p)`. -/
def push (level : Level Item) (item : Item) : Level Item :=
  let bottom := level.bottom
  let top := level.top
  let roomy :=
    -- queue is full
    if level.current.capacity - 1 < bottom - top then
      level.resizeArray bottom top
    else
      level
  { roomy.storeSlot roomy.array bottom (some item) with bottom := bottom + 1 }

/-- `pop(p)`. -/
def pop (level : Level Item) : Level Item × Option Item :=
  let bottom := level.bottom - 1
  let lowered := { level with bottom := bottom }
  let top := lowered.top
  if top ≤ bottom then
    let item := level.current.pop bottom
    if top = bottom then
      -- nobody can have moved `_top` before the compare-exchange
      ({ lowered with top := top + 1, bottom := bottom + 1 }, item)
    else
      (lowered, item)
  else
    ({ lowered with bottom := bottom + 1 }, none)

/-- `steal(p)`. -/
def steal (level : Level Item) : Level Item × Option Item :=
  if level.top < level.bottom then
    ({ level with top := level.top + 1 }, level.current.pop level.top)
  else
    (level, none)

/-- `size(p)`. -/
def size (level : Level Item) : ℕ :=
  if level.top ≤ level.bottom then (level.bottom - level.top).toNat else 0

/-- `empty(p)`. -/
def empty (level : Level Item) : Bool :=
  isEmpty level.bottom level.top

/-- `capacity(p)`. -/
def capacity (level : Level Item) : ℤ :=
  level.current.capacity

end Level

/-! ## The queue with all its priorities -/

/-- `TaskQueue<T, TF_MAX_PRIORITY>`: one level for each priority. -/
abbrev Queue (Item : Type u) (priorities : ℕ) :=
  Fin priorities → Level Item

namespace Queue

variable {priorities : ℕ}

/-- `TaskQueue(int64_t c)` on uninitialised memory. -/
def create (capacity : ℤ) (memory : Fin priorities → ℕ → ℤ → Option Item) :
    Queue Item priorities :=
  fun priority => .create capacity (memory priority)

/-- `push(o, p)`. -/
def push (queue : Queue Item priorities) (item : Item) (priority : Fin priorities) :
    Queue Item priorities :=
  Function.update queue priority ((queue priority).push item)

/-- `pop(p)`. -/
def popAt (queue : Queue Item priorities) (priority : Fin priorities) :
    Queue Item priorities × Option Item :=
  let result := (queue priority).pop
  (Function.update queue priority result.1, result.2)

/-- `steal(p)`. -/
def stealAt (queue : Queue Item priorities) (priority : Fin priorities) :
    Queue Item priorities × Option Item :=
  let result := (queue priority).steal
  (Function.update queue priority result.1, result.2)

/-- The loop of `pop()` and `steal()`: the first item that is not null. -/
def scan
    (take :
      Queue Item priorities → Fin priorities → Queue Item priorities × Option Item) :
    Queue Item priorities → List (Fin priorities) →
      Queue Item priorities × Option Item
  | queue, [] => (queue, none)
  | queue, priority :: rest =>
      match take queue priority with
      | (taken, some item) => (taken, some item)
      | (taken, none) => scan take taken rest

/-- `pop()`. -/
def pop (queue : Queue Item priorities) : Queue Item priorities × Option Item :=
  scan popAt queue (List.finRange priorities)

/-- `steal()`. -/
def steal (queue : Queue Item priorities) : Queue Item priorities × Option Item :=
  scan stealAt queue (List.finRange priorities)

/-- `empty()`. -/
def empty (queue : Queue Item priorities) : Bool :=
  (List.finRange priorities).all fun priority => (queue priority).empty

/-- `size()`; the first iteration assigns, the later ones add. -/
def size (queue : Queue Item priorities) : ℕ :=
  (List.finRange priorities).foldl
    (fun sum priority =>
      if priority.val ≠ 0 then
        (queue priority).size + sum
      else
        (queue priority).size)
    0

/-- `capacity()`. -/
def capacity (queue : Queue Item priorities) : ℤ :=
  (List.finRange priorities).foldl
    (fun sum priority =>
      if priority.val ≠ 0 then
        (queue priority).capacity + sum
      else
        (queue priority).capacity)
    0

end Queue

/-- The calls on a queue. -/
inductive Call (Item : Type u) (priorities : ℕ) where
  | push (item : Item) (priority : Fin priorities)
  | popAt (priority : Fin priorities)
  | pop
  | stealAt (priority : Fin priorities)
  | steal
  | sizeAt (priority : Fin priorities)
  | size
  | emptyAt (priority : Fin priorities)
  | empty
  | capacityAt (priority : Fin priorities)
  | capacity

/-- What a call returns. -/
inductive Reply (Item : Type u) where
  | done
  | item (item : Option Item)
  | count (size : ℕ)
  | flag (empty : Bool)
  | capacity (capacity : ℤ)

/-- One call, from its beginning to its end. -/
def Queue.call {priorities : ℕ} (queue : Queue Item priorities) :
    Call Item priorities → Queue Item priorities × Reply Item
  | .push item priority => (queue.push item priority, .done)
  | .popAt priority =>
      let result := queue.popAt priority
      (result.1, .item result.2)
  | .pop =>
      let result := queue.pop
      (result.1, .item result.2)
  | .stealAt priority =>
      let result := queue.stealAt priority
      (result.1, .item result.2)
  | .steal =>
      let result := queue.steal
      (result.1, .item result.2)
  | .sizeAt priority => (queue, .count (queue priority).size)
  | .size => (queue, .count queue.size)
  | .emptyAt priority => (queue, .flag (queue priority).empty)
  | .empty => (queue, .flag queue.empty)
  | .capacityAt priority => (queue, .capacity (queue priority).capacity)
  | .capacity => (queue, .capacity queue.capacity)

/-! ## What the queue is for -/

namespace Deques

variable {priorities : ℕ}

/-- The lowest-numbered level that has an item. -/
def IsLowest (deques : Fin priorities → List Item) (priority : Fin priorities) : Prop :=
  deques priority ≠ [] ∧ ∀ lower, lower < priority → deques lower = []

/--
A call on an array of double-ended queues, what it returns and what it leaves.  The
capacity of a level is the initial one, doubled some number of times, and no level
holds more items than that.
-/
inductive Step (exponent : ℕ) (deques : Fin priorities → List Item) :
    Call Item priorities → Reply Item → (Fin priorities → List Item) → Prop where
  | push (item : Item) (priority : Fin priorities) :
      Step exponent deques (.push item priority) .done
        (Function.update deques priority (deques priority ++ [item]))
  | popAt (priority : Fin priorities) :
      Step exponent deques (.popAt priority) (.item (deques priority).getLast?)
        (Function.update deques priority (deques priority).dropLast)
  | pop {priority : Fin priorities} (lowest : IsLowest deques priority) :
      Step exponent deques .pop (.item (deques priority).getLast?)
        (Function.update deques priority (deques priority).dropLast)
  | popEmpty (empty : ∀ priority, deques priority = []) :
      Step exponent deques .pop (.item none) deques
  | stealAt (priority : Fin priorities) :
      Step exponent deques (.stealAt priority) (.item (deques priority).head?)
        (Function.update deques priority (deques priority).tail)
  | steal {priority : Fin priorities} (lowest : IsLowest deques priority) :
      Step exponent deques .steal (.item (deques priority).head?)
        (Function.update deques priority (deques priority).tail)
  | stealEmpty (empty : ∀ priority, deques priority = []) :
      Step exponent deques .steal (.item none) deques
  | sizeAt (priority : Fin priorities) :
      Step exponent deques (.sizeAt priority) (.count (deques priority).length) deques
  | size :
      Step exponent deques .size (.count (∑ priority, (deques priority).length)) deques
  | emptyAt (priority : Fin priorities) :
      Step exponent deques (.emptyAt priority) (.flag (deques priority).isEmpty) deques
  | empty {flag : Bool} (flag_iff : flag = true ↔ ∀ priority, deques priority = []) :
      Step exponent deques .empty (.flag flag) deques
  | capacityAt (priority : Fin priorities) (doublings : ℕ)
      (fits : ((deques priority).length : ℤ) ≤ 2 ^ exponent * 2 ^ doublings) :
      Step exponent deques (.capacityAt priority)
        (.capacity (2 ^ exponent * 2 ^ doublings)) deques
  | capacity (doublings : Fin priorities → ℕ)
      (fits :
        ∀ priority,
          ((deques priority).length : ℤ) ≤ 2 ^ exponent * 2 ^ doublings priority) :
      Step exponent deques .capacity
        (.capacity (∑ priority, 2 ^ exponent * 2 ^ doublings priority)) deques

/-- Every call of a sequence replies and acts as the double-ended queues do. -/
def Conforms (exponent : ℕ) :
    (Fin priorities → List Item) → Queue Item priorities →
      List (Call Item priorities) → Prop
  | _, _, [] => True
  | deques, queue, call :: rest =>
      ∃ after, Step exponent deques call (queue.call call).2 after ∧
        Conforms exponent after (queue.call call).1 rest

end Deques

/-! ## A level holds a list of items -/

/-- The level holds these items, in the order in which they were pushed. -/
structure Represents (exponent : ℕ) (level : Level Item) (items : List Item) :
    Prop where
  top_nonneg : 0 ≤ level.top
  bottom_eq : level.bottom = level.top + items.length
  slot_eq :
    ∀ (offset : ℕ) (item : Item), items[offset]? = some item →
      level.current.pop (level.top + offset) = some item
  fits : (items.length : ℤ) ≤ level.current.capacity
  array_lt : level.array < level.allocated
  doubled : ∃ doublings : ℕ, level.current.capacity = 2 ^ exponent * 2 ^ doublings

theorem represents_create (exponent : ℕ) (memory : ℕ → ℤ → Option Item) :
    Represents exponent (Level.create (2 ^ exponent) memory) [] where
  top_nonneg := le_rfl
  bottom_eq := rfl
  slot_eq := by simp
  fits := by
    simp only [Level.create, Level.current, List.length_nil, Nat.cast_zero]
    positivity
  array_lt := Nat.one_pos
  doubled := ⟨0, by simp [Level.create, Level.current]⟩

section Level

variable {exponent : ℕ} {level : Level Item} {items : List Item}

theorem Represents.power (represents : Represents exponent level items) :
    ∃ power : ℕ, level.current.capacity = 2 ^ power := by
  obtain ⟨doublings, capacity⟩ := represents.doubled
  exact ⟨exponent + doublings, by rw [capacity, pow_add]⟩

/-- The loop of `Array::resize` copies the window and keeps what it copied before. -/
theorem Array.copy_pop {old new : Array Item} {lower index : ℤ} {count : ℕ}
    (power : ∃ power : ℕ, new.capacity = 2 ^ power)
    (nonneg : 0 ≤ lower) (started : lower ≤ index)
    (fits : index + count - lower ≤ new.capacity)
    (copied :
      ∀ position, lower ≤ position → position < index →
        new.pop position = old.pop position) :
    ∀ position, lower ≤ position → position < index + count →
      (old.copy new index count).pop position = old.pop position := by
  induction count generalizing new index with
  | zero =>
      intro position above below
      exact copied position above (by simpa using below)
  | succ count inductionHypothesis =>
      intro position above below
      rw [Array.copy]
      refine inductionHypothesis ?_ ?_ ?_ ?_ position above ?_
      · simpa using power
      · omega
      · rw [Array.push_capacity]
        omega
      · intro earlier earlier_above earlier_below
        by_cases same : earlier = index
        · subst same
          exact Array.pop_push_self new earlier _
        · rw [Array.pop_push_of_lt power (by omega) (by omega) (by omega)]
          exact copied earlier earlier_above (by omega)
      · omega

@[simp]
theorem Array.copy_capacity (old new : Array Item) (index : ℤ) (count : ℕ) :
    (old.copy new index count).capacity = new.capacity := by
  induction count generalizing new index with
  | zero => rfl
  | succ count inductionHypothesis =>
      rw [Array.copy, inductionHypothesis, Array.push_capacity]

@[simp]
theorem Level.resizeArray_current (bottom top : ℤ) :
    (level.resizeArray bottom top).current =
      level.current.resize (level.arrays level.allocated).slots bottom top := by
  simp [Level.resizeArray, Level.current]

/-- A resize re-homes the items and doubles the capacity. -/
theorem Represents.resizeArray (represents : Represents exponent level items) :
    Represents exponent (level.resizeArray level.bottom level.top) items := by
  have nonneg := represents.top_nonneg
  have bottom_eq := represents.bottom_eq
  have fits := represents.fits
  obtain ⟨doublings, capacity⟩ := represents.doubled
  have count : (level.bottom - level.top).toNat = items.length := by omega
  have copied :
      ∀ position, level.top ≤ position → position < level.top + items.length →
        (level.resizeArray level.bottom level.top).current.pop position =
          level.current.pop position := by
    rw [Level.resizeArray_current, Array.resize, count]
    refine Array.copy_pop ?_ nonneg le_rfl ?_ ?_
    · exact ⟨exponent + doublings + 1, by simp only [capacity]; ring⟩
    · simp only
      omega
    · intro position above below
      omega
  refine ⟨nonneg, bottom_eq, ?_, ?_, ?_, ?_⟩
  · intro offset item found
    have inside : offset < items.length := (List.getElem?_eq_some_iff.mp found).1
    rw [← represents.slot_eq offset item found]
    exact copied _ (by simp [Level.resizeArray]) (by simp [Level.resizeArray, inside])
  · simp only [Level.resizeArray_current, Array.resize, Array.copy_capacity]
    omega
  · exact Nat.lt_succ_self _
  · refine ⟨doublings + 1, ?_⟩
    simp only [Level.resizeArray_current, Array.resize, Array.copy_capacity, capacity]
    ring

/-- The item goes into the slot after the window, which is free. -/
theorem Represents.store (represents : Represents exponent level items)
    (room : (items.length : ℤ) < level.current.capacity) (item : Item) :
    Represents exponent
      { level.storeSlot level.array level.bottom (some item) with
        bottom := level.bottom + 1 }
      (items ++ [item]) := by
  have nonneg := represents.top_nonneg
  have bottom_eq := represents.bottom_eq
  have current_eq :
      (level.storeSlot level.array level.bottom (some item)).current =
        level.current.push level.bottom (some item) :=
    level.storeSlot_self level.array level.bottom (some item)
  refine ⟨nonneg, ?_, ?_, ?_, represents.array_lt, ?_⟩
  · simp only [bottom_eq, Level.storeSlot, List.length_append, List.length_singleton]
    push_cast
    ring
  · intro offset stored found
    change
      (level.storeSlot level.array level.bottom (some item)).current.pop
        (level.top + offset) = some stored
    rw [current_eq]
    by_cases last : offset < items.length
    · rw [List.getElem?_append_left last] at found
      rw [Array.pop_push_of_lt represents.power (by omega) (by omega) (by omega)]
      exact represents.slot_eq offset stored found
    · rw [List.getElem?_append_right (Nat.le_of_not_lt last),
        List.getElem?_singleton] at found
      have offset_eq : offset = items.length := by
        by_contra different
        rw [if_neg (by omega)] at found
        cases found
      rw [if_pos (by omega)] at found
      cases found
      rw [offset_eq, ← bottom_eq]
      exact Array.pop_push_self _ _ _
  · change
      ((items ++ [item]).length : ℤ) ≤
        (level.storeSlot level.array level.bottom (some item)).current.capacity
    rw [current_eq, Array.push_capacity, List.length_append]
    push_cast
    simp only [List.length_singleton]
    omega
  · change
      ∃ doublings : ℕ,
        (level.storeSlot level.array level.bottom (some item)).current.capacity =
          2 ^ exponent * 2 ^ doublings
    rw [current_eq, Array.push_capacity]
    exact represents.doubled

theorem Represents.push (represents : Represents exponent level items) (item : Item) :
    Represents exponent (level.push item) (items ++ [item]) := by
  have bottom_eq := represents.bottom_eq
  have fits := represents.fits
  unfold Level.push
  by_cases full : level.current.capacity - 1 < level.bottom - level.top
  · simp only [if_pos full]
    refine represents.resizeArray.store ?_ item
    have positive : 0 < level.current.capacity := by
      obtain ⟨power, capacity⟩ := represents.power
      rw [capacity]
      positivity
    simp only [Level.resizeArray_current, Array.resize, Array.copy_capacity]
    omega
  · simp only [if_neg full]
    exact represents.store (by omega) item

theorem Represents.empty_iff (represents : Represents exponent level items) :
    level.empty = items.isEmpty := by
  have bottom_eq := represents.bottom_eq
  cases items with
  | nil => simp_all [Level.empty, isEmpty]
  | cons head rest =>
      simp only [List.length_cons] at bottom_eq
      simp only [Level.empty, isEmpty, List.isEmpty_cons, decide_eq_false_iff_not]
      omega

theorem Represents.size_eq (represents : Represents exponent level items) :
    level.size = items.length := by
  have bottom_eq := represents.bottom_eq
  unfold Level.size
  rw [if_pos (by omega)]
  omega

/-- `pop(p)` takes the item that was pushed last. -/
theorem Represents.pop (represents : Represents exponent level items) :
    level.pop.2 = items.getLast? ∧ Represents exponent level.pop.1 items.dropLast := by
  have nonneg := represents.top_nonneg
  have bottom_eq := represents.bottom_eq
  have fits := represents.fits
  unfold Level.pop
  rcases List.eq_nil_or_concat' items with rfl | ⟨earlier, last, rfl⟩
  · have above : ¬ level.top ≤ level.bottom - 1 := by
      simp only [List.length_nil, Nat.cast_zero] at bottom_eq
      omega
    simp only [if_neg above, sub_add_cancel]
    exact ⟨rfl, represents⟩
  · simp only [List.length_append, List.length_singleton] at bottom_eq fits
    push_cast at bottom_eq fits
    have stored :
        level.current.pop (level.bottom - 1) = some last := by
      have slot := represents.slot_eq earlier.length last (by simp)
      rwa [show level.top + (earlier.length : ℤ) = level.bottom - 1 by omega] at slot
    have below : level.top ≤ level.bottom - 1 := by omega
    simp only [if_pos below, stored, List.getLast?_concat, List.dropLast_concat]
    by_cases single : level.top = level.bottom - 1
    · have alone : earlier = [] := by
        apply List.eq_nil_of_length_eq_zero
        omega
      subst alone
      simp only [if_pos single]
      refine ⟨trivial, ?_, ?_, by simp, ?_, represents.array_lt, represents.doubled⟩
      · simp only
        omega
      · simp only [List.length_nil, Nat.cast_zero]
        omega
      · change (0 : ℤ) ≤ level.current.capacity
        omega
    · simp only [if_neg single]
      refine ⟨trivial, nonneg, ?_, ?_, ?_, represents.array_lt, represents.doubled⟩
      · simp only
        omega
      · intro offset item found
        have inside : offset < earlier.length := (List.getElem?_eq_some_iff.mp found).1
        exact represents.slot_eq offset item
          (by rw [List.getElem?_append_left inside, found])
      · change (earlier.length : ℤ) ≤ level.current.capacity
        omega

/-- `steal(p)` takes the item that was pushed first. -/
theorem Represents.steal (represents : Represents exponent level items) :
    level.steal.2 = items.head? ∧ Represents exponent level.steal.1 items.tail := by
  have nonneg := represents.top_nonneg
  have bottom_eq := represents.bottom_eq
  have fits := represents.fits
  unfold Level.steal
  cases items with
  | nil =>
      have above : ¬ level.top < level.bottom := by
        simp only [List.length_nil, Nat.cast_zero] at bottom_eq
        omega
      simp only [if_neg above]
      exact ⟨rfl, represents⟩
  | cons first rest =>
      simp only [List.length_cons] at bottom_eq fits
      push_cast at bottom_eq fits
      have below : level.top < level.bottom := by omega
      have stored : level.current.pop level.top = some first := by
        simpa using represents.slot_eq 0 first rfl
      simp only [if_pos below, stored]
      refine ⟨rfl, ?_, ?_, ?_, ?_, represents.array_lt, represents.doubled⟩
      · simp only
        omega
      · simp only [List.tail_cons]
        omega
      · intro offset item found
        have slot := represents.slot_eq (offset + 1) item found
        push_cast at slot
        rwa [show level.top + ((offset : ℤ) + 1) = level.top + 1 + offset by ring]
          at slot
      · change (rest.length : ℤ) ≤ level.current.capacity
        omega

end Level

/-! ## Each operation is its thread running alone -/

section Alone

variable {level : Level Item}

/-- A step of the owner, when nobody else moves. -/
def ownerMoves (source target : Level Item × OwnerPc Item) : Prop :=
  ownerStep source.1 source.2 = target

/-- A step of a thief, when nobody else moves. -/
def thiefMoves (source target : Level Item × ThiefPc Item) : Prop :=
  thiefStep source.1 source.2 = target

/-- The loop of `Array::resize` in steps. -/
theorem resizeLoop_alone (item : Item) {bottom : ℤ} (top : ℤ) {old new : ℕ}
    (distinct : old ≠ new) {index : ℤ} {count : ℕ} (left : bottom = index + count) :
    Relation.ReflTransGen ownerMoves
      (level, resizeLoop item bottom top old new index)
      ({ level with
          arrays := Function.update level.arrays new
            ((level.arrays old).copy (level.arrays new) index count) },
        .resizePublish item bottom old new) := by
  induction count generalizing level index with
  | zero =>
      have finished : index = bottom := by simp [left]
      simp only [resizeLoop, if_pos finished, Array.copy, Function.update_eq_self]
      exact .refl
  | succ count inductionHypothesis =>
      push_cast at left
      have unfinished : index ≠ bottom := by omega
      simp only [resizeLoop, if_neg unfinished]
      refine .head rfl (.head rfl ?_)
      have rest :=
        @inductionHypothesis (level.storeSlot new index ((level.arrays old).pop index))
          (index + 1) (by omega)
      rw [level.storeSlot_of_ne distinct, level.storeSlot_self] at rest
      simpa [Level.storeSlot, Array.copy, ownerStep] using rest

theorem push_alone (ordered : level.top ≤ level.bottom)
    (array_lt : level.array < level.allocated) (item : Item) :
    Relation.ReflTransGen ownerMoves
      (level, .pushLoadBottom item) (level.push item, .idle none) := by
  refine .head rfl (.head rfl ?_)
  unfold Level.push
  by_cases full : level.current.capacity - 1 < level.bottom - level.top
  · have started :
        ownerStep level (.pushLoadArray item level.bottom level.top) =
          (level.allocate (2 * level.current.capacity),
            resizeLoop item level.bottom level.top level.array level.allocated
              level.top) :=
      if_pos full
    have copied :=
      @resizeLoop_alone _ (level.allocate (2 * level.current.capacity)) item _
        level.top _ _ array_lt.ne _ _
        (show level.bottom = level.top + (level.bottom - level.top).toNat by omega)
    rw [level.allocate_of_ne _ array_lt.ne, level.allocate_new] at copied
    simp only [if_pos full]
    refine .head started (copied.trans ?_)
    have stored :
        Relation.ReflTransGen ownerMoves
          (level.resizeArray level.bottom level.top,
            .pushStoreSlot item level.bottom level.allocated)
          ({ (level.resizeArray level.bottom level.top).storeSlot level.allocated
              level.bottom (some item) with bottom := level.bottom + 1 },
            .idle none) :=
      .head rfl (.single rfl)
    refine .head ?_ stored
    simp [ownerMoves, ownerStep, Level.resizeArray, Level.allocate, Array.resize,
      Level.current]
  · have enough :
        ownerStep level (.pushLoadArray item level.bottom level.top) =
          (level, .pushStoreSlot item level.bottom level.array) :=
      if_neg full
    simp only [if_neg full]
    exact .head enough (.head rfl (.single rfl))

theorem pop_alone :
    Relation.ReflTransGen ownerMoves
      (level, .popLoadBottom) (level.pop.1, .idle level.pop.2) := by
  refine .head rfl (.head rfl (.head rfl ?_))
  unfold Level.pop
  by_cases found : level.top ≤ level.bottom - 1
  · by_cases single : level.top = level.bottom - 1
    · simp only [if_pos found, if_pos single]
      refine .head (if_pos found) (.head (if_pos single) (.head (if_pos rfl) ?_))
      exact .single rfl
    · simp only [if_pos found, if_neg single]
      exact .head (if_pos found) (.single (if_neg single))
  · simp only [if_neg found]
    exact .head (if_neg found) (.single rfl)

theorem steal_alone :
    Relation.ReflTransGen thiefMoves
      (level, .loadTop) (level.steal.1, .idle level.steal.2) := by
  refine .head rfl ?_
  unfold Level.steal
  by_cases found : level.top < level.bottom
  · simp only [if_pos found]
    exact .head (if_pos found) (.head rfl (.head rfl (.single (if_pos rfl))))
  · simp only [if_neg found]
    exact .single (if_neg found)

end Alone

/-! ## The loops over the priorities -/

section Queue

variable {exponent priorities : ℕ} {queue : Queue Item priorities}
  {deques : Fin priorities → List Item}

/-- Every level holds the items of its double-ended queue. -/
def RepresentsAll (exponent : ℕ) (queue : Queue Item priorities)
    (deques : Fin priorities → List Item) : Prop :=
  ∀ priority, Represents exponent (queue priority) (deques priority)

theorem RepresentsAll.update (represents : RepresentsAll exponent queue deques)
    {priority : Fin priorities} {level : Level Item} {items : List Item}
    (written : Represents exponent level items) :
    RepresentsAll exponent (Function.update queue priority level)
      (Function.update deques priority items) := by
  intro other
  by_cases same : other = priority
  · subst same
    simpa using written
  · simpa [Function.update_of_ne same] using represents other

/-- An operation takes an item from one end of a level. -/
structure TakesFrom (exponent : ℕ)
    (take :
      Queue Item priorities → Fin priorities → Queue Item priorities × Option Item)
    (pick : List Item → Option Item) (rest : List Item → List Item) : Prop where
  pick_eq_none : ∀ items, pick items = none ↔ items = []
  rest_nil : rest [] = []
  taken :
    ∀ queue deques priority, RepresentsAll exponent queue deques →
      (take queue priority).2 = pick (deques priority) ∧
        RepresentsAll exponent (take queue priority).1
          (Function.update deques priority (rest (deques priority)))

theorem takesFrom_popAt :
    TakesFrom exponent
      (Queue.popAt :
        Queue Item priorities → Fin priorities → Queue Item priorities × Option Item)
      List.getLast? List.dropLast where
  pick_eq_none := fun _ => List.getLast?_eq_none_iff
  rest_nil := rfl
  taken := by
    intro queue deques priority represents
    obtain ⟨item_eq, popped⟩ := (represents priority).pop
    exact ⟨item_eq, represents.update popped⟩

theorem takesFrom_stealAt :
    TakesFrom exponent
      (Queue.stealAt :
        Queue Item priorities → Fin priorities → Queue Item priorities × Option Item)
      List.head? List.tail where
  pick_eq_none := fun _ => List.head?_eq_none_iff
  rest_nil := rfl
  taken := by
    intro queue deques priority represents
    obtain ⟨item_eq, stolen⟩ := (represents priority).steal
    exact ⟨item_eq, represents.update stolen⟩

/-- The loop stops at the first level that has an item. -/
theorem TakesFrom.scan
    {take :
      Queue Item priorities → Fin priorities → Queue Item priorities × Option Item}
    {pick : List Item → Option Item} {rest : List Item → List Item}
    (takes : TakesFrom exponent take pick rest)
    (represents : RepresentsAll exponent queue deques) (levels : List (Fin priorities)) :
    ((∀ priority ∈ levels, deques priority = []) ∧
      (Queue.scan take queue levels).2 = none ∧
      RepresentsAll exponent (Queue.scan take queue levels).1 deques) ∨
    ∃ before priority after,
      levels = before ++ priority :: after ∧
      (∀ lower ∈ before, deques lower = []) ∧ deques priority ≠ [] ∧
      (Queue.scan take queue levels).2 = pick (deques priority) ∧
      RepresentsAll exponent (Queue.scan take queue levels).1
        (Function.update deques priority (rest (deques priority))) := by
  induction levels generalizing queue with
  | nil => exact .inl ⟨by simp, rfl, represents⟩
  | cons priority others inductionHypothesis =>
      obtain ⟨item_eq, taken⟩ := takes.taken queue deques priority represents
      by_cases empty : deques priority = []
      · have null : (take queue priority).2 = none := by
          rw [item_eq]
          exact (takes.pick_eq_none _).mpr empty
        have scan_eq :
            Queue.scan take queue (priority :: others) =
              Queue.scan take (take queue priority).1 others := by
          rw [Queue.scan, ← Prod.mk.eta (p := take queue priority), null]
        have same :
            Function.update deques priority (rest (deques priority)) = deques := by
          rw [empty, takes.rest_nil, ← empty, Function.update_eq_self]
        rw [same] at taken
        rw [scan_eq]
        rcases inductionHypothesis taken with
          ⟨allEmpty, result⟩ | ⟨before, found, after, split, lower, result⟩
        · refine .inl ⟨?_, result⟩
          intro other member
          rcases List.mem_cons.mp member with rfl | member
          · exact empty
          · exact allEmpty other member
        · refine .inr ⟨priority :: before, found, after, by rw [split]; rfl, ?_, result⟩
          intro other member
          rcases List.mem_cons.mp member with rfl | member
          · exact empty
          · exact lower other member
      · obtain ⟨item, picked⟩ :=
          Option.ne_none_iff_exists'.mp (mt (takes.pick_eq_none _).mp empty)
        have scan_eq :
            Queue.scan take queue (priority :: others) = take queue priority := by
          rw [Queue.scan, ← Prod.mk.eta (p := take queue priority), item_eq, picked]
        refine .inr ⟨[], priority, others, rfl, by simp, empty, ?_⟩
        rw [scan_eq]
        exact ⟨item_eq, taken⟩

/-- The levels before one in the order of the loop are the lower ones. -/
theorem mem_before_of_lt {before after : List (Fin priorities)}
    {priority lower : Fin priorities}
    (split : List.finRange priorities = before ++ priority :: after)
    (below : lower < priority) : lower ∈ before := by
  have member : lower ∈ before ++ priority :: after := by
    rw [← split]
    exact List.mem_finRange lower
  have sorted := List.pairwise_lt_finRange priorities
  rw [split, List.pairwise_append, List.pairwise_cons] at sorted
  rcases List.mem_append.mp member with found | found
  · exact found
  · rcases List.mem_cons.mp found with rfl | later
    · exact absurd below (lt_irrefl _)
    · exact absurd (below.trans (sorted.2.1.1 lower later)) (lt_irrefl _)

/-- `pop()` and `steal()` act on the lowest level that has an item. -/
theorem TakesFrom.scan_finRange
    {take :
      Queue Item priorities → Fin priorities → Queue Item priorities × Option Item}
    {pick : List Item → Option Item} {rest : List Item → List Item}
    (takes : TakesFrom exponent take pick rest)
    (represents : RepresentsAll exponent queue deques) :
    ((∀ priority, deques priority = []) ∧
      (Queue.scan take queue (List.finRange priorities)).2 = none ∧
      RepresentsAll exponent
        (Queue.scan take queue (List.finRange priorities)).1 deques) ∨
    ∃ priority, Deques.IsLowest deques priority ∧
      (Queue.scan take queue (List.finRange priorities)).2 = pick (deques priority) ∧
      RepresentsAll exponent (Queue.scan take queue (List.finRange priorities)).1
        (Function.update deques priority (rest (deques priority))) := by
  rcases takes.scan represents (List.finRange priorities) with
    ⟨allEmpty, result⟩ | ⟨before, priority, after, split, lower, nonempty, result⟩
  · exact .inl ⟨fun priority => allEmpty priority (List.mem_finRange priority), result⟩
  · refine .inr ⟨priority, ⟨nonempty, ?_⟩, result⟩
    intro other below
    exact lower other (mem_before_of_lt split below)

/-- The loops that sum over the levels. -/
theorem foldl_assign_add {Sum : Type} [AddCommMonoid Sum]
    (value : Fin priorities → Sum) :
    (List.finRange priorities).foldl
        (fun sum priority =>
          if priority.val ≠ 0 then value priority + sum else value priority) 0 =
      ∑ priority, value priority := by
  cases priorities with
  | zero => simp
  | succ count =>
      rw [List.finRange_succ, List.foldl_cons, List.foldl_map, Fin.sum_univ_succ]
      simp only [Fin.val_zero, ne_eq, not_true_eq_false, if_false, Fin.val_succ,
        Nat.succ_ne_zero, not_false_eq_true, if_true]
      rw [Fin.sum_univ_def]
      generalize value 0 = first
      induction List.finRange count generalizing first with
      | nil => simp
      | cons priority others inductionHypothesis =>
          rw [List.foldl_cons, inductionHypothesis, List.map_cons, List.sum_cons]
          abel

theorem RepresentsAll.size_eq (represents : RepresentsAll exponent queue deques) :
    queue.size = ∑ priority, (deques priority).length := by
  rw [Queue.size, foldl_assign_add]
  exact Finset.sum_congr rfl fun priority _ => (represents priority).size_eq

theorem RepresentsAll.empty_iff (represents : RepresentsAll exponent queue deques) :
    queue.empty = true ↔ ∀ priority, deques priority = [] := by
  simp only [Queue.empty, List.all_eq_true, List.mem_finRange, true_implies]
  constructor
  · intro empty priority
    have flag := empty priority
    rwa [(represents priority).empty_iff, List.isEmpty_iff] at flag
  · intro empty priority
    rw [(represents priority).empty_iff, empty priority]
    rfl

/-- One call, from the levels to the double-ended queues. -/
theorem RepresentsAll.call (represents : RepresentsAll exponent queue deques)
    (call : Call Item priorities) :
    ∃ after, Deques.Step exponent deques call (queue.call call).2 after ∧
      RepresentsAll exponent (queue.call call).1 after := by
  cases call with
  | push item priority =>
      exact ⟨_, .push item priority, represents.update ((represents priority).push item)⟩
  | popAt priority =>
      obtain ⟨item_eq, taken⟩ := takesFrom_popAt.taken queue deques priority represents
      refine ⟨_, ?_, taken⟩
      simp only [Queue.call, item_eq]
      exact .popAt priority
  | pop =>
      rcases takesFrom_popAt.scan_finRange represents with
        ⟨empty, item_eq, taken⟩ | ⟨priority, lowest, item_eq, taken⟩
      · refine ⟨_, ?_, taken⟩
        simp only [Queue.call, Queue.pop, item_eq]
        exact .popEmpty empty
      · refine ⟨_, ?_, taken⟩
        simp only [Queue.call, Queue.pop, item_eq]
        exact .pop lowest
  | stealAt priority =>
      obtain ⟨item_eq, taken⟩ := takesFrom_stealAt.taken queue deques priority represents
      refine ⟨_, ?_, taken⟩
      simp only [Queue.call, item_eq]
      exact .stealAt priority
  | steal =>
      rcases takesFrom_stealAt.scan_finRange represents with
        ⟨empty, item_eq, taken⟩ | ⟨priority, lowest, item_eq, taken⟩
      · refine ⟨_, ?_, taken⟩
        simp only [Queue.call, Queue.steal, item_eq]
        exact .stealEmpty empty
      · refine ⟨_, ?_, taken⟩
        simp only [Queue.call, Queue.steal, item_eq]
        exact .steal lowest
  | sizeAt priority =>
      refine ⟨deques, ?_, represents⟩
      simp only [Queue.call, (represents priority).size_eq]
      exact .sizeAt priority
  | size =>
      refine ⟨deques, ?_, represents⟩
      simp only [Queue.call, represents.size_eq]
      exact .size
  | emptyAt priority =>
      refine ⟨deques, ?_, represents⟩
      simp only [Queue.call, (represents priority).empty_iff]
      exact .emptyAt priority
  | empty => exact ⟨deques, .empty represents.empty_iff, represents⟩
  | capacityAt priority =>
      refine ⟨deques, ?_, represents⟩
      obtain ⟨doublings, capacity⟩ := (represents priority).doubled
      have fits := (represents priority).fits
      rw [capacity] at fits
      simp only [Queue.call, Level.capacity, capacity]
      exact .capacityAt priority doublings fits
  | capacity =>
      refine ⟨deques, ?_, represents⟩
      choose doublings capacity using fun priority => (represents priority).doubled
      have total :
          queue.capacity = ∑ priority, 2 ^ exponent * 2 ^ doublings priority := by
        rw [Queue.capacity, foldl_assign_add]
        exact Finset.sum_congr rfl fun priority _ => capacity priority
      simp only [Queue.call, total]
      refine .capacity doublings ?_
      intro priority
      rw [← capacity priority]
      exact (represents priority).fits

theorem RepresentsAll.conforms (represents : RepresentsAll exponent queue deques)
    (calls : List (Call Item priorities)) :
    Deques.Conforms exponent deques queue calls := by
  induction calls generalizing queue deques with
  | nil => trivial
  | cons call rest inductionHypothesis =>
      obtain ⟨after, step, represented⟩ := represents.call call
      exact ⟨after, step, inductionHypothesis represented⟩

/--
Any sequence of calls on a queue with a power of two as its initial capacity replies
and acts as an array of double-ended queues does.
-/
theorem sequential_calls_conform (exponent priorities : ℕ)
    (memory : Fin priorities → ℕ → ℤ → Option Item)
    (calls : List (Call Item priorities)) :
    Deques.Conforms exponent (fun _ => []) (Queue.create (2 ^ exponent) memory) calls := by
  have represents :
      RepresentsAll exponent (Queue.create (2 ^ exponent) memory) fun _ => [] := by
    intro priority
    exact represents_create exponent (memory priority)
  exact represents.conforms calls

end Queue

end AsyncRuntime.TaskQueue
