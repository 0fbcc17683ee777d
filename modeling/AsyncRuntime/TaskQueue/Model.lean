import AsyncRuntime.Foundation.RingWindow
import AsyncRuntime.Foundation.TransitionSystem

/-!
# The work-stealing task queue, one priority level

`TaskQueue<T>` keeps for every priority level `p` the words `_top[p]`,
`_bottom[p]` and `_array[p]`; operations at different levels share nothing, so
one level is modelled.  One owner at a time runs `push` and `pop`, any number of
thieves run `steal`.  Every atomic load, store and compare-exchange, on the three
words and on the slots, is one step; local computation is merged into the step
before it.

A pointer `T` is an `Option Item`, with `none` for `nullptr`.  Memory that
`new std::atomic<T>[C]` leaves uninitialised keeps whatever it held, so the
contents of the arrays not yet allocated are arbitrary.
-/

namespace AsyncRuntime.TaskQueue

open AsyncRuntime.Foundation

universe u v

variable {Item : Type u} {Thief : Type v}

/-- `TaskQueue::Array`: the capacity `C` and the slots `S`. -/
structure Array (Item : Type u) where
  capacity : ℤ
  slots : ℤ → Option Item

/-- `S[i & M].load()`, with `M = C - 1`. -/
def Array.pop (array : Array Item) (index : ℤ) : Option Item :=
  array.slots (ringCell array.capacity index)

/-- `S[i & M].store(o)`. -/
def Array.push (array : Array Item) (index : ℤ) (item : Option Item) :
    Array Item :=
  { array with
    slots := Function.update array.slots (ringCell array.capacity index) item }

/--
The shared words of one level.  An `Array *` is the number of the array in
allocation order; `allocated` counts the arrays built so far.
-/
structure Level (Item : Type u) where
  top : ℤ
  bottom : ℤ
  array : ℕ
  arrays : ℕ → Array Item
  allocated : ℕ
  garbage : List ℕ

/-- The array `_array` points to. -/
def Level.current (level : Level Item) : Array Item :=
  level.arrays level.array

/-- `TaskQueue(int64_t c)` on uninitialised memory. -/
def Level.create (capacity : ℤ) (memory : ℕ → ℤ → Option Item) : Level Item where
  top := 0
  bottom := 0
  array := 0
  arrays := fun pointer => { capacity := capacity, slots := memory pointer }
  allocated := 1
  garbage := []

/-- `new Array{c}`: the slots keep what the memory held. -/
def Level.allocate (level : Level Item) (capacity : ℤ) : Level Item :=
  { level with
    arrays := Function.update level.arrays level.allocated
      { level.arrays level.allocated with capacity := capacity }
    allocated := level.allocated + 1 }

/-- Store into a slot of the array a pointer refers to. -/
def Level.storeSlot (level : Level Item) (pointer : ℕ) (index : ℤ)
    (item : Option Item) : Level Item :=
  { level with
    arrays := Function.update level.arrays pointer
      ((level.arrays pointer).push index item) }

/-- `empty(p)` after its two loads. -/
def isEmpty (bottom top : ℤ) : Bool :=
  decide (bottom ≤ top)

/-! ## The owner: `push` and `pop` -/

/--
Where the owner is.  `idle` carries what the last operation returned
(`push` returns nothing, recorded as `none`).
-/
inductive OwnerPc (Item : Type u) where
  | idle (result : Option Item)
  | pushLoadBottom (item : Item)
  | pushLoadTop (item : Item) (bottom : ℤ)
  | pushLoadArray (item : Item) (bottom top : ℤ)
  | resizeLoad (item : Item) (bottom top : ℤ) (old new : ℕ) (index : ℤ)
  | resizeStore (item : Item) (bottom top : ℤ) (old new : ℕ) (index : ℤ)
      (copied : Option Item)
  | resizePublish (item : Item) (bottom : ℤ) (old new : ℕ)
  | pushStoreSlot (item : Item) (bottom : ℤ) (array : ℕ)
  | pushStoreBottom (item : Item) (bottom : ℤ)
  | popLoadBottom
  | popLoadArray (bottom : ℤ)
  | popStoreBottom (bottom : ℤ) (array : ℕ)
  | popLoadTop (bottom : ℤ) (array : ℕ)
  | popLoadSlot (bottom : ℤ) (array : ℕ) (top : ℤ)
  | popCompareExchange (bottom top : ℤ) (item : Option Item)
  | popRestoreBottom (bottom : ℤ) (item : Option Item)
  deriving DecidableEq

/-- The loop head of `Array::resize`: `for (i = t; i != b; ++i)`. -/
def resizeLoop (item : Item) (bottom top : ℤ) (old new : ℕ) (index : ℤ) :
    OwnerPc Item :=
  if index = bottom then
    .resizePublish item bottom old new
  else
    .resizeLoad item bottom top old new index

/-- One atomic step of the owner. -/
def ownerStep (level : Level Item) : OwnerPc Item → Level Item × OwnerPc Item
  | .idle result => (level, .idle result)
  | .pushLoadBottom item => (level, .pushLoadTop item level.bottom)
  | .pushLoadTop item bottom => (level, .pushLoadArray item bottom level.top)
  | .pushLoadArray item bottom top =>
      let array := level.array
      -- queue is full
      if (level.arrays array).capacity - 1 < bottom - top then
        (level.allocate (2 * (level.arrays array).capacity),
          resizeLoop item bottom top array level.allocated top)
      else
        (level, .pushStoreSlot item bottom array)
  | .resizeLoad item bottom top old new index =>
      (level,
        .resizeStore item bottom top old new index
          ((level.arrays old).pop index))
  | .resizeStore item bottom top old new index copied =>
      (level.storeSlot new index copied,
        resizeLoop item bottom top old new (index + 1))
  | .resizePublish item bottom old new =>
      ({ level with array := new, garbage := level.garbage ++ [old] },
        .pushStoreSlot item bottom new)
  | .pushStoreSlot item bottom array =>
      (level.storeSlot array bottom (some item), .pushStoreBottom item bottom)
  | .pushStoreBottom _ bottom =>
      ({ level with bottom := bottom + 1 }, .idle none)
  | .popLoadBottom => (level, .popLoadArray (level.bottom - 1))
  | .popLoadArray bottom => (level, .popStoreBottom bottom level.array)
  | .popStoreBottom bottom array =>
      ({ level with bottom := bottom }, .popLoadTop bottom array)
  | .popLoadTop bottom array =>
      if level.top ≤ bottom then
        (level, .popLoadSlot bottom array level.top)
      else
        (level, .popRestoreBottom bottom none)
  | .popLoadSlot bottom array top =>
      let item := (level.arrays array).pop bottom
      if top = bottom then
        (level, .popCompareExchange bottom top item)
      else
        (level, .idle item)
  | .popCompareExchange bottom top item =>
      if level.top = top then
        ({ level with top := top + 1 }, .popRestoreBottom bottom item)
      else
        -- the last item just got stolen
        (level, .popRestoreBottom bottom none)
  | .popRestoreBottom bottom item =>
      ({ level with bottom := bottom + 1 }, .idle item)

/-! ## A thief: `steal` -/

/-- Where a thief is; `idle` carries what its last `steal` returned. -/
inductive ThiefPc (Item : Type u) where
  | idle (result : Option Item)
  | loadTop
  | loadBottom (top : ℤ)
  | loadArray (top : ℤ)
  | loadSlot (top : ℤ) (array : ℕ)
  | compareExchange (top : ℤ) (item : Option Item)
  deriving DecidableEq

/-- One atomic step of a thief. -/
def thiefStep (level : Level Item) : ThiefPc Item → Level Item × ThiefPc Item
  | .idle result => (level, .idle result)
  | .loadTop => (level, .loadBottom level.top)
  | .loadBottom top =>
      if top < level.bottom then (level, .loadArray top)
      else (level, .idle none)
  | .loadArray top => (level, .loadSlot top level.array)
  | .loadSlot top array =>
      (level, .compareExchange top ((level.arrays array).pop top))
  | .compareExchange top item =>
      if level.top = top then ({ level with top := top + 1 }, .idle item)
      else (level, .idle none)

/-! ## The queue under one owner and any number of thieves -/

/--
A configuration.  `pushed` and `returned` are history: the items whose `push`
has completed and the non-null results handed out by `pop` and `steal`, each in
the order of completion.
-/
structure State (Item : Type u) (Thief : Type v) where
  level : Level Item
  owner : OwnerPc Item
  thieves : Thief → ThiefPc Item
  pushed : List Item
  returned : List Item

/-- Calls of the three operations and the steps of the threads inside them. -/
inductive Action (Item : Type u) (Thief : Type v) where
  | push (item : Item)
  | pop
  | owner
  | steal (thief : Thief)
  | thief (thief : Thief)

/-- The item whose `push` completes with the next step of the owner. -/
def OwnerPc.completes : OwnerPc Item → Option Item
  | .pushStoreBottom item _ => some item
  | _ => none

/-- What the owner hands out when it returns. -/
def OwnerPc.handsOut : OwnerPc Item → Option Item
  | .idle result => result
  | _ => none

/-- What a thief hands out when it returns. -/
def ThiefPc.handsOut : ThiefPc Item → Option Item
  | .idle result => result
  | _ => none

/-- The step function of the whole queue. -/
def next [DecidableEq Thief] (state : State Item Thief) :
    Action Item Thief → Option (State Item Thief)
  | .push item =>
      match state.owner with
      | .idle _ => some { state with owner := .pushLoadBottom item }
      | _ => none
  | .pop =>
      match state.owner with
      | .idle _ => some { state with owner := .popLoadBottom }
      | _ => none
  | .owner =>
      match state.owner with
      | .idle _ => none
      | pc =>
          let moved := ownerStep state.level pc
          some
            { state with
              level := moved.1
              owner := moved.2
              pushed := state.pushed ++ pc.completes.toList
              returned := state.returned ++ moved.2.handsOut.toList }
  | .steal thief =>
      match state.thieves thief with
      | .idle _ =>
          some
            { state with
              thieves := Function.update state.thieves thief .loadTop }
      | _ => none
  | .thief thief =>
      match state.thieves thief with
      | .idle _ => none
      | pc =>
          let moved := thiefStep state.level pc
          some
            { state with
              level := moved.1
              thieves := Function.update state.thieves thief moved.2
              returned := state.returned ++ moved.2.handsOut.toList }

/-- All threads are outside the operations. -/
def State.initial (capacity : ℤ) (memory : ℕ → ℤ → Option Item) :
    State Item Thief where
  level := .create capacity memory
  owner := .idle none
  thieves := fun _ => .idle none
  pushed := []
  returned := []

/-- The queue built with a given capacity, on arbitrary memory. -/
def system (Item : Type u) (Thief : Type v) [DecidableEq Thief] (capacity : ℤ) :
    TransitionSystem (State Item Thief) (Action Item Thief) where
  initial := fun state => ∃ memory, state = State.initial capacity memory
  next := next

/-- The pushed items are pairwise distinct: no item is pushed a second time. -/
def distinctPushes (state : State Item Thief) : Action Item Thief → Prop
  | .push item => item ∉ state.pushed
  | _ => True

instance [DecidableEq Item] (state : State Item Thief)
    (action : Action Item Thief) : Decidable (distinctPushes state action) :=
  match action with
  | .push item => inferInstanceAs (Decidable (item ∉ state.pushed))
  | .pop => .isTrue trivial
  | .owner => .isTrue trivial
  | .steal _ => .isTrue trivial
  | .thief _ => .isTrue trivial

/-- No operation is in progress. -/
def State.quiescent (state : State Item Thief) : Prop :=
  (∃ result, state.owner = .idle result) ∧
    ∀ thief, ∃ result, state.thieves thief = .idle result

end AsyncRuntime.TaskQueue
