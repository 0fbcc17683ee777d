import AsyncRuntime.WorkStealQueue.AtomicArray

/-!
# The work-stealing queue used by one thread at a time

When no two operations overlap, nobody moves `_top` between the load and the
compare-exchange of `pop` and `steal`, and the operations are functions of the queue.
It holds a list of items: `push` appends one, `pop` takes the last one and `steal`
the first one.
-/

namespace AsyncRuntime.WorkStealQueue

open AsyncRuntime.Foundation

universe u

variable {Item : Type u}

/-- `WorkStealQueue`: `_top`, `_bottom`, `_array` and `_garbage`. -/
structure Queue (Item : Type u) where
  top : ℤ
  bottom : ℤ
  array : AtomicArray Item
  garbage : List (AtomicArray Item)

namespace Queue

/-- The constructor, with what the memory of the array held. -/
def create (capacity : ℤ) (memory : ℤ → Item) : Queue Item :=
  ⟨0, 0, .create capacity memory, []⟩

/-- `push(o)`, with what the memory of the next array held. -/
def push (queue : Queue Item) (memory : ℤ → Item) (item : Item) : Queue Item :=
  let bottom := queue.bottom
  let top := queue.top
  let roomy :=
    -- queue is full
    if queue.array.capacity - 1 < bottom - top then
      { queue with
        array := queue.array.resize memory bottom top
        garbage := queue.garbage ++ [queue.array] }
    else
      queue
  { roomy with
    array := roomy.array.store bottom item
    bottom := bottom + 1 }

/-- `pop()`. -/
def pop (queue : Queue Item) : Queue Item × Option Item :=
  let bottom := queue.bottom - 1
  if queue.top ≤ bottom then
    let item := queue.array.load bottom
    if queue.top = bottom then
      ({ queue with top := queue.top + 1, bottom := bottom + 1 }, some item)
    else
      ({ queue with bottom := bottom }, some item)
  else
    ({ queue with bottom := bottom + 1 }, none)

/-- `steal()`. -/
def steal (queue : Queue Item) : Queue Item × Option Item :=
  if queue.top < queue.bottom then
    ({ queue with top := queue.top + 1 }, some (queue.array.load queue.top))
  else
    (queue, none)

/-- `size()`. -/
def size (queue : Queue Item) : ℕ :=
  if queue.top ≤ queue.bottom then (queue.bottom - queue.top).toNat else 0

end Queue

/-! ## The list that a queue holds -/

/-- The queue holds these items, in the order in which they were pushed. -/
structure Represents (queue : Queue Item) (items : List Item) : Prop where
  top_nonneg : 0 ≤ queue.top
  bottom_eq : queue.bottom = queue.top + items.length
  load_eq :
    ∀ (offset : ℕ) (item : Item), items[offset]? = some item →
      queue.array.load (queue.top + offset) = item
  fits : (items.length : ℤ) ≤ queue.array.capacity
  power : ∃ exponent : ℕ, queue.array.capacity = 2 ^ exponent

variable {queue : Queue Item} {items : List Item}

theorem represents_create (exponent : ℕ) (memory : ℤ → Item) :
    Represents (Queue.create (2 ^ exponent) memory) [] where
  top_nonneg := le_rfl
  bottom_eq := rfl
  load_eq := by simp
  fits := (pow_pos two_pos exponent).le
  power := ⟨exponent, rfl⟩

/-- An array with the values of the old one, at least as large, holds the same items. -/
theorem Represents.setArray (represents : Represents queue items) {array : AtomicArray Item}
    (garbage : List (AtomicArray Item))
    (loaded : ∀ index, queue.top ≤ index → index < queue.bottom →
      array.load index = queue.array.load index)
    (larger : queue.array.capacity ≤ array.capacity)
    (power : ∃ exponent : ℕ, array.capacity = 2 ^ exponent) :
    Represents { queue with array := array, garbage := garbage } items := by
  have bottom_eq := represents.bottom_eq
  refine ⟨represents.top_nonneg, bottom_eq, ?_, represents.fits.trans larger, power⟩
  intro offset item found
  obtain ⟨inside, -⟩ := List.getElem?_eq_some_iff.mp found
  rw [← represents.load_eq offset item found]
  exact loaded _ (by dsimp only; omega) (by dsimp only; omega)

/-- The item is stored behind the others, in a slot that is free. -/
theorem Represents.store (represents : Represents queue items)
    (room : (items.length : ℤ) < queue.array.capacity) (item : Item) :
    Represents
      { queue with
        array := queue.array.store queue.bottom item
        bottom := queue.bottom + 1 }
      (items ++ [item]) := by
  have nonneg := represents.top_nonneg
  have bottom_eq := represents.bottom_eq
  obtain ⟨exponent, capacity_eq⟩ := represents.power
  refine ⟨nonneg, ?_, ?_, ?_, exponent, capacity_eq⟩
  · rw [List.length_append, List.length_singleton]
    push_cast
    omega
  · intro offset stored found
    rcases lt_trichotomy offset items.length with inside | rfl | outside
    · rw [List.getElem?_append_left inside] at found
      rw [← represents.load_eq offset stored found]
      refine AtomicArray.load_store_of_ne ?_
      rw [capacity_eq] at room ⊢
      dsimp only
      exact ringCell_injective_of_lt exponent (by omega) (by omega) (by omega)
    · rw [List.getElem?_concat_length, Option.some.injEq] at found
      subst stored
      refine AtomicArray.load_store_of_eq ?_
      rw [bottom_eq]
    · rw [List.getElem?_eq_none (by rw [List.length_append, List.length_singleton]; omega)]
        at found
      cases found
  · rw [List.length_append, List.length_singleton, AtomicArray.capacity_store]
    push_cast
    omega

/-- `push` appends the item, in a larger array if the queue was full. -/
theorem Represents.push (represents : Represents queue items) (memory : ℤ → Item)
    (item : Item) : Represents (queue.push memory item) (items ++ [item]) := by
  have nonneg := represents.top_nonneg
  have bottom_eq := represents.bottom_eq
  have fits := represents.fits
  obtain ⟨exponent, capacity_eq⟩ := represents.power
  have positive : (0 : ℤ) < 2 ^ exponent := pow_pos two_pos exponent
  rw [Queue.push]
  by_cases full : queue.array.capacity - 1 < queue.bottom - queue.top
  · have capacity_resize : (queue.array.resize memory queue.bottom queue.top).capacity =
        2 ^ (exponent + 1) := by
      rw [AtomicArray.resize_eq_storeAll, AtomicArray.capacity_storeAll, AtomicArray.create,
        capacity_eq, pow_succ']
    have larger : (2 : ℤ) ^ (exponent + 1) = 2 * 2 ^ exponent := pow_succ' 2 exponent
    have loaded : ∀ index, queue.top ≤ index → index < queue.bottom →
        (queue.array.resize memory queue.bottom queue.top).load index =
          queue.array.load index := by
      refine (AtomicArray.load_resize_iff fun index _ _ => rfl).mpr ?_
      rw [capacity_eq, ← pow_succ']
      exact AtomicArray.agrees_two_pow nonneg (by omega)
    have resized := represents.setArray (queue.garbage ++ [queue.array]) loaded (by omega)
      ⟨exponent + 1, capacity_resize⟩
    rw [if_pos full]
    refine resized.store ?_ item
    dsimp only
    omega
  · rw [if_neg full]
    exact represents.store (by omega) item

/-- `steal` takes the first item. -/
theorem Represents.steal {item : Item} (represents : Represents queue (item :: items)) :
    queue.steal.2 = some item ∧ Represents queue.steal.1 items := by
  have nonneg := represents.top_nonneg
  have bottom_eq := represents.bottom_eq
  have fits := represents.fits
  rw [List.length_cons] at bottom_eq fits
  push_cast at bottom_eq fits
  have first := represents.load_eq 0 item rfl
  rw [Nat.cast_zero, add_zero] at first
  rw [Queue.steal, if_pos (by omega), first]
  refine ⟨rfl, by simp only; omega, by simp only; omega, ?_, by simp only; omega,
    represents.power⟩
  intro offset stored found
  have behind := represents.load_eq (offset + 1) stored found
  rwa [Nat.cast_succ, add_comm (offset : ℤ), ← add_assoc] at behind

/-- `pop` takes the last item. -/
theorem Represents.pop {item : Item} (represents : Represents queue (items ++ [item])) :
    queue.pop.2 = some item ∧ Represents queue.pop.1 items := by
  have nonneg := represents.top_nonneg
  have bottom_eq := represents.bottom_eq
  have fits := represents.fits
  rw [List.length_append, List.length_singleton] at bottom_eq fits
  push_cast at bottom_eq fits
  have last := represents.load_eq items.length item List.getElem?_concat_length
  have before : queue.bottom - 1 = queue.top + items.length := by omega
  rw [Queue.pop, before, if_pos (by omega), last]
  by_cases only : queue.top = queue.top + items.length
  · have empty : items = [] := List.length_eq_zero_iff.mp (by omega)
    rw [if_pos only]
    subst empty
    refine ⟨rfl, by simp only; omega, by simp, by simp, by simp only; omega, represents.power⟩
  · rw [if_neg only]
    refine ⟨rfl, nonneg, rfl, ?_, by simp only; omega, represents.power⟩
    intro offset stored found
    obtain ⟨inside, -⟩ := List.getElem?_eq_some_iff.mp found
    exact represents.load_eq offset stored (by rwa [List.getElem?_append_left inside])

theorem Represents.size_eq (represents : Represents queue items) :
    queue.size = items.length := by
  have bottom_eq := represents.bottom_eq
  rw [Queue.size, if_pos (by omega)]
  omega

end AsyncRuntime.WorkStealQueue
