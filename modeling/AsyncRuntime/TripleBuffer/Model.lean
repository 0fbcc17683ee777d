import AsyncRuntime.Foundation.TransitionSystem
import Mathlib.Data.Nat.Notation
import Mathlib.Logic.Function.Basic

/-!
# The triple buffer

Three slots and a byte of flags that says which slot the writer fills (dirty),
which one holds the latest complete item (clean), which one the reader uses
(snap), and whether the clean slot is newer than the snap slot.

The class exists twice, as `TripleBuffer` and as `Dataflow::TripleBuffer`.  Both
write out the same operations on the flags; `Read` of the second one wraps its
result.  The model takes what a class writes out as a parameter.

Every load and compare-exchange of the flags and every access to a slot is a
step of its own.  The writes are numbered in the order of their calls, and a slot
remembers the number of its item.
-/

namespace AsyncRuntime.TripleBuffer

open Foundation

universe u v

/-- `std::atomic<uint8_t> flags` -/
abbrev Flags := BitVec 8

/-- The operations that each class writes out for itself. -/
structure Code (Item : Type u) (Result : Type v) where
  isNewWrite : Flags → Bool
  swapSnapWithClean : Flags → Flags
  newWriteSwapCleanWithDirty : Flags → Flags
  result : Item → Result

/-- `flags & 0x40` -/
def isNewWrite (flags : Flags) : Bool :=
  (flags &&& 0x40#8) != 0#8

/-- Swap snap with clean and forget the new write. -/
def swapSnapWithClean (flags : Flags) : Flags :=
  (flags &&& 0x30#8) ||| ((flags &&& 0x3#8) <<< 2) ||| ((flags &&& 0xC#8) >>> 2)

/-- Set the new write and swap clean with dirty. -/
def newWriteSwapCleanWithDirty (flags : Flags) : Flags :=
  0x40#8 ||| ((flags &&& 0xC#8) <<< 2) ||| ((flags &&& 0x30#8) >>> 2) |||
    (flags &&& 0x3#8)

/-- `(flags & 0x30) >> 4` -/
def dirtyIndex (flags : Flags) : ℕ :=
  ((flags &&& 0x30#8) >>> 4).toNat

/-- `(flags & 0xC) >> 2` -/
def cleanIndex (flags : Flags) : ℕ :=
  ((flags &&& 0xC#8) >>> 2).toNat

/-- `flags & 0x3` -/
def snapIndex (flags : Flags) : ℕ :=
  (flags &&& 0x3#8).toNat

/-- `TripleBuffer`, whose `read` returns the item. -/
def code (Item : Type u) : Code Item Item where
  isNewWrite := isNewWrite
  swapSnapWithClean := swapSnapWithClean
  newWriteSwapCleanWithDirty := newWriteSwapCleanWithDirty
  result := id

/-- `Dataflow::TripleBuffer`, whose `Read` returns an `std::optional`. -/
def dataflowCode (Item : Type u) : Code Item (Option Item) where
  isNewWrite := isNewWrite
  swapSnapWithClean := swapSnapWithClean
  newWriteSwapCleanWithDirty := newWriteSwapCleanWithDirty
  result := some

/-- A slot: its item and the number of the write it comes from, 0 at first. -/
structure Slot (Item : Type u) where
  item : Item
  number : ℕ
  deriving DecidableEq

/-- The places of `write`. -/
inductive WriterPc (Item : Type u) where
  | idle
  | indexing (item : Item)
  | storing (item : Item) (index : ℕ)
  | loading (item : Item)
  | swapping (item : Item) (flagsNow : Flags)
  deriving DecidableEq

/--
The places of `read`; `seen` is the number of the write whose compare-exchange
was the last one before the reader's last access to the flags in its loop.
-/
inductive ReaderPc where
  | idle
  | loading
  | looping (flagsNow : Flags) (seen : ℕ)
  | indexing (seen : ℕ)
  | reading (index : ℕ) (seen : ℕ)
  deriving DecidableEq

/-- What a `read` returned, and from which write. -/
structure Returned (Result : Type v) where
  result : Result
  number : ℕ
  seen : ℕ
  deriving DecidableEq

/--
The flags, the slots, the two threads, the items of the writes whose
compare-exchange succeeded and the results of `read`, both in order.
-/
structure State (Item : Type u) (Result : Type v) where
  flags : Flags
  buffer : ℕ → Slot Item
  writer : WriterPc Item
  reader : ReaderPc
  published : List Item
  returned : List (Returned Result)

/--
A call, or a step of one of the threads; a compare-exchange may fail spuriously.
-/
inductive Action (Item : Type u) where
  | write (item : Item)
  | writer (spurious : Bool)
  | read
  | reader (spurious : Bool)
  deriving DecidableEq

namespace State

variable {Item : Type u} {Result : Type v}

/-- The constructor: dirty is 0, clean is 1 and snap is 2. -/
def create (contents : ℕ → Item) : State Item Result where
  flags := 0x6#8
  buffer := fun index => ⟨contents index, 0⟩
  writer := .idle
  reader := .idle
  published := []
  returned := []

/-- A step of `write`. -/
def writerStep (code : Code Item Result) (state : State Item Result)
    (spurious : Bool) : Option (State Item Result) :=
  match state.writer with
  | .idle => none
  | .indexing item =>
      some { state with writer := .storing item (dirtyIndex state.flags) }
  | .storing item index =>
      some
        { state with
          buffer :=
            Function.update state.buffer index
              ⟨item, state.published.length + 1⟩
          writer := .loading item }
  | .loading item => some { state with writer := .swapping item state.flags }
  | .swapping item flagsNow =>
      if spurious || state.flags != flagsNow then
        some { state with writer := .swapping item state.flags }
      else
        some
          { state with
            flags := code.newWriteSwapCleanWithDirty flagsNow
            writer := .idle
            published := state.published ++ [item] }

/-- A step of `read`. -/
def readerStep (code : Code Item Result) (state : State Item Result)
    (spurious : Bool) : Option (State Item Result) :=
  match state.reader with
  | .idle => none
  | .loading =>
      some { state with reader := .looping state.flags state.published.length }
  | .looping flagsNow seen =>
      if !code.isNewWrite flagsNow then
        some { state with reader := .indexing seen }
      else if spurious || state.flags != flagsNow then
        some { state with reader := .looping state.flags state.published.length }
      else
        some
          { state with
            flags := code.swapSnapWithClean flagsNow
            reader := .indexing state.published.length }
  | .indexing seen =>
      some { state with reader := .reading (snapIndex state.flags) seen }
  | .reading index seen =>
      let slot := state.buffer index
      some
        { state with
          reader := .idle
          returned :=
            state.returned ++ [⟨code.result slot.item, slot.number, seen⟩] }

/-- One step. -/
def next (code : Code Item Result) (state : State Item Result) :
    Action Item → Option (State Item Result)
  | .write item =>
      match state.writer with
      | .idle => some { state with writer := .indexing item }
      | _ => none
  | .writer spurious => state.writerStep code spurious
  | .read =>
      match state.reader with
      | .idle => some { state with reader := .loading }
      | _ => none
  | .reader spurious => state.readerStep code spurious

end State

/-- The runs of one writer and one reader of a class. -/
def system {Item : Type u} {Result : Type v} (code : Code Item Result)
    (contents : ℕ → Item) : TransitionSystem (State Item Result) (Action Item) where
  initial := fun state => state = .create contents
  next := State.next code

end AsyncRuntime.TripleBuffer
