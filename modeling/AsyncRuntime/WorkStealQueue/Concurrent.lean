import AsyncRuntime.TaskQueue.Linearizability
import AsyncRuntime.WorkStealQueue.AtomicArray

/-!
# The work-stealing queue under one owner and any number of thieves

`WorkStealQueue<T>` is the queue from which `TaskQueue<T>` was made: it has one level,
it holds values instead of pointers and returns an `std::optional`, and its array counts
its stores.  Every load, store, `fetch_add` and compare-exchange is one step.

The stores that count change nothing that an operation reads, and without them the
steps are those of the task queue, so the queue is linearizable as that one is.
-/

namespace AsyncRuntime.WorkStealQueue

open AsyncRuntime.Foundation

universe u v

variable {Item : Type u} {Thief : Type v}

namespace AtomicArray

/-- `S[i & M].store(o)`, the first half of `store`. -/
def storeSlot (array : AtomicArray Item) (index : ℤ) (item : Item) : AtomicArray Item :=
  { array with slots := Function.update array.slots (ringCell array.capacity index) item }

/-- `U.fetch_add(1)`, the second half of `store`. -/
def fetchAdd (array : AtomicArray Item) : AtomicArray Item :=
  { array with size := array.size + 1 }

theorem fetchAdd_storeSlot (array : AtomicArray Item) (index : ℤ) (item : Item) :
    (array.storeSlot index item).fetchAdd = array.store index item :=
  rfl

end AtomicArray

/--
The shared words.  An `AtomicArray *` is the number of the array in allocation order;
`allocated` counts the arrays built so far.
-/
structure Words (Item : Type u) where
  top : ℤ
  bottom : ℤ
  array : ℕ
  arrays : ℕ → AtomicArray Item
  allocated : ℕ
  garbage : List ℕ

namespace Words

/-- The constructor, on uninitialised memory. -/
def create (capacity : ℤ) (memory : ℕ → ℤ → Item) : Words Item where
  top := 0
  bottom := 0
  array := 0
  arrays := fun pointer => .create capacity (memory pointer)
  allocated := 1
  garbage := []

/-- `new AtomicArray{c}`: the slots keep what the memory held. -/
def allocate (words : Words Item) (capacity : ℤ) : Words Item :=
  { words with
    arrays := Function.update words.arrays words.allocated
      (.create capacity (words.arrays words.allocated).slots)
    allocated := words.allocated + 1 }

/-- A store into a slot of the array a pointer refers to. -/
def storeSlot (words : Words Item) (pointer : ℕ) (index : ℤ) (item : Item) : Words Item :=
  { words with
    arrays := Function.update words.arrays pointer
      ((words.arrays pointer).storeSlot index item) }

/-- The `fetch_add` on the counter of the array a pointer refers to. -/
def fetchAdd (words : Words Item) (pointer : ℕ) : Words Item :=
  { words with
    arrays := Function.update words.arrays pointer (words.arrays pointer).fetchAdd }

end Words

/-! ## The owner: `push` and `pop` -/

/-- Where the owner is, with what its last operation returned. -/
inductive OwnerPc (Item : Type u) where
  | idle (result : Option Item)
  | pushLoadBottom (item : Item)
  | pushLoadTop (item : Item) (bottom : ℤ)
  | pushLoadArray (item : Item) (bottom top : ℤ)
  | resizeLoad (item : Item) (bottom top : ℤ) (old new : ℕ) (index : ℤ)
  | resizeStore (item : Item) (bottom top : ℤ) (old new : ℕ) (index : ℤ) (copied : Item)
  | resizeCount (item : Item) (bottom top : ℤ) (old new : ℕ) (index : ℤ)
  | resizePublish (item : Item) (bottom : ℤ) (old new : ℕ)
  | pushStoreSlot (item : Item) (bottom : ℤ) (array : ℕ)
  | pushCount (item : Item) (bottom : ℤ) (array : ℕ)
  | pushStoreBottom (item : Item) (bottom : ℤ)
  | popLoadBottom
  | popLoadArray (bottom : ℤ)
  | popStoreBottom (bottom : ℤ) (array : ℕ)
  | popLoadTop (bottom : ℤ) (array : ℕ)
  | popLoadSlot (bottom : ℤ) (array : ℕ) (top : ℤ)
  | popCompareExchange (bottom top : ℤ) (item : Item)
  | popRestoreBottom (bottom : ℤ) (item : Option Item)

/-- The loop head of `resize`: `for (i = t; i != b; ++i)`. -/
def resizeLoop (item : Item) (bottom top : ℤ) (old new : ℕ) (index : ℤ) : OwnerPc Item :=
  if index = bottom then
    .resizePublish item bottom old new
  else
    .resizeLoad item bottom top old new index

/-- One atomic step of the owner. -/
def ownerStep (words : Words Item) : OwnerPc Item → Words Item × OwnerPc Item
  | .idle result => (words, .idle result)
  | .pushLoadBottom item => (words, .pushLoadTop item words.bottom)
  | .pushLoadTop item bottom => (words, .pushLoadArray item bottom words.top)
  | .pushLoadArray item bottom top =>
      let array := words.array
      -- queue is full
      if (words.arrays array).capacity - 1 < bottom - top then
        (words.allocate (2 * (words.arrays array).capacity),
          resizeLoop item bottom top array words.allocated top)
      else
        (words, .pushStoreSlot item bottom array)
  | .resizeLoad item bottom top old new index =>
      (words, .resizeStore item bottom top old new index ((words.arrays old).load index))
  | .resizeStore item bottom top old new index copied =>
      (words.storeSlot new index copied, .resizeCount item bottom top old new index)
  | .resizeCount item bottom top old new index =>
      (words.fetchAdd new, resizeLoop item bottom top old new (index + 1))
  | .resizePublish item bottom old new =>
      ({ words with array := new, garbage := words.garbage ++ [old] },
        .pushStoreSlot item bottom new)
  | .pushStoreSlot item bottom array =>
      (words.storeSlot array bottom item, .pushCount item bottom array)
  | .pushCount item bottom array => (words.fetchAdd array, .pushStoreBottom item bottom)
  | .pushStoreBottom _ bottom => ({ words with bottom := bottom + 1 }, .idle none)
  | .popLoadBottom => (words, .popLoadArray (words.bottom - 1))
  | .popLoadArray bottom => (words, .popStoreBottom bottom words.array)
  | .popStoreBottom bottom array => ({ words with bottom := bottom }, .popLoadTop bottom array)
  | .popLoadTop bottom array =>
      if words.top ≤ bottom then
        (words, .popLoadSlot bottom array words.top)
      else
        (words, .popRestoreBottom bottom none)
  | .popLoadSlot bottom array top =>
      let item := (words.arrays array).load bottom
      if top = bottom then
        (words, .popCompareExchange bottom top item)
      else
        (words, .idle (some item))
  | .popCompareExchange bottom top item =>
      if words.top = top then
        ({ words with top := top + 1 }, .popRestoreBottom bottom (some item))
      else
        -- the last item just got stolen
        (words, .popRestoreBottom bottom none)
  | .popRestoreBottom bottom item => ({ words with bottom := bottom + 1 }, .idle item)

/-! ## A thief: `steal` -/

/-- Where a thief is, with what its last `steal` returned. -/
inductive ThiefPc (Item : Type u) where
  | idle (result : Option Item)
  | loadTop
  | loadBottom (top : ℤ)
  | loadArray (top : ℤ)
  | loadSlot (top : ℤ) (array : ℕ)
  | compareExchange (top : ℤ) (item : Item)

/-- One atomic step of a thief. -/
def thiefStep (words : Words Item) : ThiefPc Item → Words Item × ThiefPc Item
  | .idle result => (words, .idle result)
  | .loadTop => (words, .loadBottom words.top)
  | .loadBottom top => if top < words.bottom then (words, .loadArray top) else (words, .idle none)
  | .loadArray top => (words, .loadSlot top words.array)
  | .loadSlot top array => (words, .compareExchange top ((words.arrays array).load top))
  | .compareExchange top item =>
      if words.top = top then
        ({ words with top := top + 1 }, .idle (some item))
      else
        (words, .idle none)

/-! ## The queue -/

/-- The words and the threads. -/
structure State (Item : Type u) (Thief : Type v) where
  words : Words Item
  owner : OwnerPc Item
  thieves : Thief → ThiefPc Item

/-- All threads are outside the operations. -/
def State.initial (capacity : ℤ) (memory : ℕ → ℤ → Item) : State Item Thief where
  words := .create capacity memory
  owner := .idle none
  thieves := fun _ => .idle none

/-- The calls of the operations and the steps of the threads inside them. -/
def next [DecidableEq Thief] (state : State Item Thief) :
    TaskQueue.Action Item Thief → Option (State Item Thief)
  | .push item =>
      match state.owner with
      | .idle _ => some { state with owner := .pushLoadBottom item }
      | _ => none
  | .pop =>
      match state.owner with
      | .idle _ => some { state with owner := .popLoadBottom }
      | _ => none
  | .owner =>
      match state.owner with
      | .idle _ => none
      | pc =>
          let moved := ownerStep state.words pc
          some { state with words := moved.1, owner := moved.2 }
  | .steal thief =>
      match state.thieves thief with
      | .idle _ => some { state with thieves := Function.update state.thieves thief .loadTop }
      | _ => none
  | .thief thief =>
      match state.thieves thief with
      | .idle _ => none
      | pc =>
          let moved := thiefStep state.words pc
          some
            { state with
              words := moved.1
              thieves := Function.update state.thieves thief moved.2 }

/-- The result, when the operation has returned. -/
def OwnerPc.outcome : OwnerPc Item → Option (Option Item)
  | .idle result => some result
  | _ => none

/-- The result, when the `steal` has returned. -/
def ThiefPc.outcome : ThiefPc Item → Option (Option Item)
  | .idle result => some result
  | _ => none

/-- The queue built with a given capacity, with the calls and the returns as its events. -/
def observed (Item : Type u) (Thief : Type v) [DecidableEq Thief] (capacity : ℤ) :
    ObservedSystem (State Item Thief) (TaskQueue.Action Item Thief)
      (StealingDeque.Event Item Thief) where
  initial := fun state => ∃ memory, state = State.initial capacity memory
  next := next
  shows := fun _ action target =>
    match action with
    | .push item => [.push item]
    | .pop => [.pop]
    | .owner => target.owner.outcome.toList.map .returned
    | .steal thief => [.steal thief]
    | .thief thief => (target.thieves thief).outcome.toList.map (.stole thief)

end AsyncRuntime.WorkStealQueue
