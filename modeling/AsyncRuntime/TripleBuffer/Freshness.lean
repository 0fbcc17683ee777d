import AsyncRuntime.TripleBuffer.Model

/-!
# One writer and one reader of a triple buffer

The writer keeps the dirty slot to itself and the reader the snap slot, whatever
the other one does to the flags meanwhile: a compare-exchange swaps the clean
slot with the slot of the thread that performs it.  So the indexes that both
threads loaded stay right, although the byte they loaded may be stale.

The clean slot holds the latest write when the flags announce one; otherwise the
snap slot does.
-/

namespace AsyncRuntime.TripleBuffer

open Foundation

universe u v

/-! ## The flags -/

/-- The three indexes are those of the three slots. -/
structure Permutes (flags : Flags) : Prop where
  dirty_lt : dirtyIndex flags < 3
  clean_lt : cleanIndex flags < 3
  snap_lt : snapIndex flags < 3
  dirty_ne_clean : dirtyIndex flags ≠ cleanIndex flags
  dirty_ne_snap : dirtyIndex flags ≠ snapIndex flags
  clean_ne_snap : cleanIndex flags ≠ snapIndex flags

section Flags

@[simp]
theorem dirtyIndex_swapSnapWithClean :
    ∀ flags, dirtyIndex (swapSnapWithClean flags) = dirtyIndex flags := by
  decide +kernel

@[simp]
theorem cleanIndex_swapSnapWithClean :
    ∀ flags, cleanIndex (swapSnapWithClean flags) = snapIndex flags := by
  decide +kernel

@[simp]
theorem snapIndex_swapSnapWithClean :
    ∀ flags, snapIndex (swapSnapWithClean flags) = cleanIndex flags := by
  decide +kernel

@[simp]
theorem isNewWrite_swapSnapWithClean :
    ∀ flags, isNewWrite (swapSnapWithClean flags) = false := by
  decide +kernel

@[simp]
theorem dirtyIndex_newWriteSwapCleanWithDirty :
    ∀ flags, dirtyIndex (newWriteSwapCleanWithDirty flags) = cleanIndex flags := by
  decide +kernel

@[simp]
theorem cleanIndex_newWriteSwapCleanWithDirty :
    ∀ flags, cleanIndex (newWriteSwapCleanWithDirty flags) = dirtyIndex flags := by
  decide +kernel

@[simp]
theorem snapIndex_newWriteSwapCleanWithDirty :
    ∀ flags, snapIndex (newWriteSwapCleanWithDirty flags) = snapIndex flags := by
  decide +kernel

@[simp]
theorem isNewWrite_newWriteSwapCleanWithDirty :
    ∀ flags, isNewWrite (newWriteSwapCleanWithDirty flags) = true := by
  decide +kernel

/-- Dirty is 0, clean is 1 and snap is 2. -/
theorem permutes_initial : Permutes 0x6#8 := by
  constructor <;> decide

variable {flags : Flags}

theorem Permutes.swapSnapWithClean (permutes : Permutes flags) :
    Permutes (swapSnapWithClean flags) := by
  constructor
  · simpa using permutes.dirty_lt
  · simpa using permutes.snap_lt
  · simpa using permutes.clean_lt
  · simpa using permutes.dirty_ne_snap
  · simpa using permutes.dirty_ne_clean
  · simpa using permutes.clean_ne_snap.symm

/-- The indexes as a permutation of the slots. -/
theorem Permutes.perm (permutes : Permutes flags) :
    [dirtyIndex flags, cleanIndex flags, snapIndex flags].Perm [0, 1, 2] := by
  have slots :
      ∀ dirty clean snap : Fin 3, dirty ≠ clean → dirty ≠ snap → clean ≠ snap →
        [dirty.val, clean.val, snap.val].Perm [0, 1, 2] := by
    decide
  exact
    slots ⟨_, permutes.dirty_lt⟩ ⟨_, permutes.clean_lt⟩ ⟨_, permutes.snap_lt⟩
      (by simpa using permutes.dirty_ne_clean)
      (by simpa using permutes.dirty_ne_snap)
      (by simpa using permutes.clean_ne_snap)

theorem Permutes.newWriteSwapCleanWithDirty (permutes : Permutes flags) :
    Permutes (newWriteSwapCleanWithDirty flags) := by
  constructor
  · simpa using permutes.clean_lt
  · simpa using permutes.dirty_lt
  · simpa using permutes.snap_lt
  · simpa using permutes.dirty_ne_clean.symm
  · simpa using permutes.clean_ne_snap
  · simpa using permutes.dirty_ne_snap

end Flags

/-! ## The invariant -/

/-- A class that writes out the operations on the flags as above. -/
structure Code.Standard {Item : Type u} {Result : Type v}
    (code : Code Item Result) : Prop where
  isNewWrite_eq : code.isNewWrite = TripleBuffer.isNewWrite
  swap_eq : code.swapSnapWithClean = TripleBuffer.swapSnapWithClean
  newWrite_eq :
    code.newWriteSwapCleanWithDirty = TripleBuffer.newWriteSwapCleanWithDirty

theorem standard_code (Item : Type u) : (code Item).Standard :=
  ⟨rfl, rfl, rfl⟩

theorem standard_dataflowCode (Item : Type u) : (dataflowCode Item).Standard :=
  ⟨rfl, rfl, rfl⟩

variable {Item : Type u} {Result : Type v}

/--
The item of the write with a number, counted from 1; number 0 is the initial
content of slot 2.
-/
def itemOf (contents : ℕ → Item) (published : List Item) : ℕ → Item
  | 0 => contents 2
  | number + 1 => published.getD number (contents 2)

theorem itemOf_append (contents : ℕ → Item) (published later : List Item)
    {number : ℕ} (known : number ≤ published.length) :
    itemOf contents (published ++ later) number =
      itemOf contents published number := by
  cases number with
  | zero => rfl
  | succ number => simp [itemOf, List.getD, List.getElem?_append_left known]

theorem itemOf_length (contents : ℕ → Item) (published : List Item) (item : Item) :
    itemOf contents (published ++ [item]) (published.length + 1) = item := by
  simp [itemOf, List.getD]

namespace State

/-- A slot holds the write with a number. -/
def Holds (contents : ℕ → Item) (state : State Item Result) (index number : ℕ) :
    Prop :=
  number ≤ state.published.length ∧
    state.buffer index = ⟨itemOf contents state.published number, number⟩

/-- What the writer has done so far. -/
def WriterSound (state : State Item Result) : Prop :=
  match state.writer with
  | .idle => True
  | .indexing _ => True
  | .storing _ index => index = dirtyIndex state.flags
  | .loading item =>
      state.buffer (dirtyIndex state.flags) = ⟨item, state.published.length + 1⟩
  | .swapping item _ =>
      state.buffer (dirtyIndex state.flags) = ⟨item, state.published.length + 1⟩

/-- What the reader has seen so far. -/
def ReaderSound (contents : ℕ → Item) (state : State Item Result) : Prop :=
  match state.reader with
  | .idle => True
  | .loading => True
  | .looping flagsNow seen =>
      isNewWrite flagsNow = false →
        state.Holds contents (snapIndex state.flags) seen
  | .indexing seen => state.Holds contents (snapIndex state.flags) seen
  | .reading index seen =>
      index = snapIndex state.flags ∧
        state.Holds contents (snapIndex state.flags) seen

/-- The slot whose item is the latest. -/
def latestIndex (flags : Flags) : ℕ :=
  if isNewWrite flags then cleanIndex flags else snapIndex flags

/-- What the reads returned, given the number of the write in the snap slot. -/
structure ReturnsSound (code : Code Item Result) (contents : ℕ → Item)
    (state : State Item Result) : Prop where
  fresh :
    ∀ returned ∈ state.returned,
      returned.number = returned.seen ∧
        returned.result =
          code.result (itemOf contents state.published returned.seen)
  bounded :
    ∀ returned ∈ state.returned,
      returned.number ≤ (state.buffer (snapIndex state.flags)).number
  ordered :
    state.returned.Pairwise fun earlier later => earlier.number ≤ later.number

/-- The invariant of all runs. -/
structure Sound (code : Code Item Result) (contents : ℕ → Item)
    (state : State Item Result) : Prop where
  permutes : Permutes state.flags
  snap : ∃ number, state.Holds contents (snapIndex state.flags) number
  latest :
    state.Holds contents (latestIndex state.flags) state.published.length
  writer : state.WriterSound
  reader : state.ReaderSound contents
  returns : state.ReturnsSound code contents

variable {code : Code Item Result} {contents : ℕ → Item}

theorem snapIndex_initial : snapIndex 0x6#8 = 2 := by
  decide

theorem latestIndex_initial : latestIndex 0x6#8 = 2 := by
  decide

theorem sound_create :
    (create contents : State Item Result).Sound code contents where
  permutes := permutes_initial
  snap := ⟨0, Nat.le_refl _, by simp [create, snapIndex_initial, itemOf]⟩
  latest := ⟨Nat.le_refl _, by simp [create, latestIndex_initial, itemOf]⟩
  writer := trivial
  reader := trivial
  returns :=
    { fresh := by simp [create]
      bounded := by simp [create]
      ordered := by simp [create] }

section Holds

variable {source target : State Item Result} {index number : ℕ}

/-- A slot keeps its write while nobody stores to it. -/
theorem Holds.of_buffer (holds : source.Holds contents index number)
    (published_eq : target.published = source.published)
    (buffer_eq : target.buffer index = source.buffer index) :
    target.Holds contents index number := by
  rw [Holds, published_eq, buffer_eq]
  exact holds

/-- A later write does not change which write a slot holds. -/
theorem Holds.of_published (holds : source.Holds contents index number)
    {later : List Item}
    (published_eq : target.published = source.published ++ later)
    (buffer_eq : target.buffer index = source.buffer index) :
    target.Holds contents index number := by
  obtain ⟨known, slot_eq⟩ := holds
  constructor
  · rw [published_eq, List.length_append]
    exact Nat.le_add_right_of_le known
  · rw [buffer_eq, published_eq, itemOf_append _ _ _ known, slot_eq]

theorem Permutes.dirty_ne_latest {flags : Flags} (permutes : Permutes flags) :
    latestIndex flags ≠ dirtyIndex flags := by
  unfold latestIndex
  split
  · exact permutes.dirty_ne_clean.symm
  · exact permutes.dirty_ne_snap.symm

/-- The writer's knowledge is about the dirty slot only. -/
theorem WriterSound.congr (writer : source.WriterSound)
    (writer_eq : target.writer = source.writer)
    (dirty_eq : dirtyIndex target.flags = dirtyIndex source.flags)
    (buffer_eq : target.buffer = source.buffer)
    (published_eq : target.published = source.published) :
    target.WriterSound := by
  unfold WriterSound at *
  rw [writer_eq, dirty_eq, buffer_eq, published_eq]
  exact writer

/-- The reader's knowledge is about the snap slot only. -/
theorem ReaderSound.congr (reader : source.ReaderSound contents)
    (reader_eq : target.reader = source.reader)
    (snap_eq : snapIndex target.flags = snapIndex source.flags)
    (holds :
      ∀ seen,
        source.Holds contents (snapIndex source.flags) seen →
        target.Holds contents (snapIndex source.flags) seen) :
    target.ReaderSound contents := by
  unfold ReaderSound at *
  rw [reader_eq]
  split at reader
  · trivial
  · trivial
  · rw [snap_eq]
    exact fun stale => holds _ (reader stale)
  · rw [snap_eq]
    exact holds _ reader
  · rw [snap_eq]
    exact ⟨reader.1, holds _ reader.2⟩

/-- The results only depend on the writes, and on the snap slot for the order. -/
theorem ReturnsSound.congr (returns : source.ReturnsSound code contents)
    {later : List Item}
    (returned_eq : target.returned = source.returned)
    (published_eq : target.published = source.published ++ later)
    {known : ℕ} (snap : source.Holds contents (snapIndex source.flags) known)
    (newer :
      (source.buffer (snapIndex source.flags)).number ≤
        (target.buffer (snapIndex target.flags)).number) :
    target.ReturnsSound code contents := by
  refine ⟨?fresh, ?bounded, by rw [returned_eq]; exact returns.ordered⟩
  case fresh =>
    intro returned member
    rw [returned_eq] at member
    obtain ⟨number_eq, result_eq⟩ := returns.fresh returned member
    refine ⟨number_eq, ?_⟩
    have seen_le : returned.seen ≤ source.published.length := by
      calc
        returned.seen = returned.number := number_eq.symm
        _ ≤ (source.buffer (snapIndex source.flags)).number :=
          returns.bounded returned member
        _ = known := by rw [snap.2]
        _ ≤ source.published.length := snap.1
    rw [result_eq, published_eq, itemOf_append _ _ _ seen_le]
  case bounded =>
    intro returned member
    rw [returned_eq] at member
    exact Nat.le_trans (returns.bounded returned member) newer

end Holds

/-! ## The steps -/

section Steps

variable {source target : State Item Result} {spurious : Bool}

/-- Moving the writer without a store or an exchange. -/
theorem Sound.setWriter (sound : source.Sound code contents)
    {writer : WriterPc Item}
    (writerSound : { source with writer := writer }.WriterSound) :
    { source with writer := writer }.Sound code contents :=
  ⟨sound.permutes, sound.snap, sound.latest, writerSound, sound.reader,
    ⟨sound.returns.fresh, sound.returns.bounded, sound.returns.ordered⟩⟩

/-- Moving the reader without an exchange or a result. -/
theorem Sound.setReader (sound : source.Sound code contents) {reader : ReaderPc}
    (readerSound : { source with reader := reader }.ReaderSound contents) :
    { source with reader := reader }.Sound code contents :=
  ⟨sound.permutes, sound.snap, sound.latest, sound.writer, readerSound,
    ⟨sound.returns.fresh, sound.returns.bounded, sound.returns.ordered⟩⟩

/-- The store goes to the dirty slot, which is neither snap nor the latest. -/
theorem Sound.store (sound : source.Sound code contents) (item : Item) :
    { source with
      buffer :=
        Function.update source.buffer (dirtyIndex source.flags)
          ⟨item, source.published.length + 1⟩
      writer := .loading item }.Sound code contents := by
  obtain ⟨number, snap⟩ := sound.snap
  have snap_ne := sound.permutes.dirty_ne_snap.symm
  have latest_ne := Permutes.dirty_ne_latest sound.permutes
  have kept :
      ∀ seen, source.Holds contents (snapIndex source.flags) seen →
        { source with
          buffer :=
            Function.update source.buffer (dirtyIndex source.flags)
              ⟨item, source.published.length + 1⟩
          writer := .loading item }.Holds contents (snapIndex source.flags) seen :=
    fun seen holds => holds.of_buffer rfl (Function.update_of_ne snap_ne _ _)
  refine ⟨sound.permutes, ⟨number, kept number snap⟩, ?_, ?_, ?_, ?_⟩
  · exact sound.latest.of_buffer rfl (Function.update_of_ne latest_ne _ _)
  · exact Function.update_self _ _ _
  · exact sound.reader.congr rfl rfl kept
  · refine
      sound.returns.congr rfl (List.append_nil source.published).symm snap
        (Nat.le_of_eq ?_)
    exact congrArg Slot.number (Function.update_of_ne snap_ne _ _).symm

/-- The writer's exchange makes the dirty slot the clean one. -/
theorem Sound.publish (sound : source.Sound code contents) {item : Item}
    (stored :
      source.buffer (dirtyIndex source.flags) =
        ⟨item, source.published.length + 1⟩) :
    { source with
      flags := newWriteSwapCleanWithDirty source.flags
      writer := .idle
      published := source.published ++ [item] }.Sound code contents := by
  obtain ⟨number, snap⟩ := sound.snap
  have kept :
      ∀ seen, source.Holds contents (snapIndex source.flags) seen →
        { source with
          flags := newWriteSwapCleanWithDirty source.flags
          writer := .idle
          published := source.published ++ [item] }.Holds contents
            (snapIndex source.flags) seen :=
    fun seen holds => holds.of_published rfl rfl
  refine
    ⟨sound.permutes.newWriteSwapCleanWithDirty, ⟨number, ?_⟩, ⟨Nat.le_refl _, ?_⟩,
      trivial, ?_, ?_⟩
  · simpa using kept number snap
  · simp only [latestIndex, isNewWrite_newWriteSwapCleanWithDirty, if_true,
      cleanIndex_newWriteSwapCleanWithDirty, List.length_append, List.length_cons,
      List.length_nil, Nat.zero_add, itemOf_length]
    exact stored
  · exact sound.reader.congr rfl (by simp) kept
  · refine sound.returns.congr rfl rfl snap (Nat.le_of_eq ?_)
    simp

/-- The reader's exchange makes the clean slot the snap one. -/
theorem Sound.take (sound : source.Sound code contents)
    (announced : isNewWrite source.flags = true) :
    { source with
      flags := swapSnapWithClean source.flags
      reader := .indexing source.published.length }.Sound code contents := by
  obtain ⟨number, snap⟩ := sound.snap
  have latest := sound.latest
  rw [latestIndex, if_pos announced] at latest
  have taken :
      { source with
        flags := swapSnapWithClean source.flags
        reader := .indexing source.published.length }.Holds contents
          (snapIndex (swapSnapWithClean source.flags)) source.published.length := by
    rw [snapIndex_swapSnapWithClean]
    exact latest
  refine
    ⟨sound.permutes.swapSnapWithClean, ⟨_, taken⟩, ?_, ?_, taken, ?_⟩
  · have latest_eq :
        latestIndex (swapSnapWithClean source.flags) =
          cleanIndex source.flags := by
      simp [latestIndex]
    rw [latest_eq]
    exact latest
  · exact sound.writer.congr rfl (by simp) rfl rfl
  · refine sound.returns.congr rfl (List.append_nil source.published).symm snap ?_
    have newer : number ≤ source.published.length := snap.1
    simpa [snap.2, latest.2] using newer

/-- The reader copies the snap slot. -/
theorem Sound.return (sound : source.Sound code contents) {seen : ℕ}
    (holds : source.Holds contents (snapIndex source.flags) seen) :
    { source with
      reader := .idle
      returned :=
        source.returned ++
          [Returned.mk
            (code.result (source.buffer (snapIndex source.flags)).item)
            (source.buffer (snapIndex source.flags)).number seen] }.Sound
      code contents := by
  refine
    ⟨sound.permutes, sound.snap, sound.latest, sound.writer, trivial,
      ?fresh, ?bounded, ?ordered⟩
  case fresh =>
    intro returned member
    rcases List.mem_append.mp member with earlier | now
    · exact sound.returns.fresh returned earlier
    · cases List.mem_singleton.mp now
      simp [holds.2]
  case bounded =>
    intro returned member
    rcases List.mem_append.mp member with earlier | now
    · exact sound.returns.bounded returned earlier
    · cases List.mem_singleton.mp now
      exact Nat.le_refl _
  case ordered =>
    refine List.pairwise_append.mpr ⟨sound.returns.ordered, by simp, ?_⟩
    intro earlier member later now
    cases List.mem_singleton.mp now
    exact sound.returns.bounded earlier member

theorem Sound.writerStep (standard : code.Standard)
    (sound : source.Sound code contents)
    (taken : source.writerStep code spurious = some target) :
    target.Sound code contents := by
  have writer := sound.writer
  unfold WriterSound at writer
  unfold State.writerStep at taken
  split at taken
  · cases taken
  · cases taken
    exact sound.setWriter rfl
  · rename_i item index writer_eq
    rw [writer_eq] at writer
    cases taken
    rw [writer]
    exact sound.store item
  · rename_i item writer_eq
    rw [writer_eq] at writer
    cases taken
    exact sound.setWriter writer
  · rename_i item flagsNow writer_eq
    rw [writer_eq] at writer
    split at taken
    · cases taken
      exact sound.setWriter writer
    · rename_i succeeds
      have flags_eq : source.flags = flagsNow := by
        simp only [Bool.or_eq_true, bne_iff_ne, not_or, Decidable.not_not]
          at succeeds
        exact succeeds.2
      cases taken
      rw [standard.newWrite_eq, ← flags_eq]
      exact sound.publish writer

/-- A load that announces no new write finds the latest one in the snap slot. -/
theorem Sound.load (sound : source.Sound code contents) :
    { source with
      reader := .looping source.flags source.published.length }.Sound
      code contents := by
  refine sound.setReader ?_
  intro quiet
  have latest := sound.latest
  rw [latestIndex, quiet] at latest
  exact latest

theorem Sound.readerStep (standard : code.Standard)
    (sound : source.Sound code contents)
    (taken : source.readerStep code spurious = some target) :
    target.Sound code contents := by
  have reader := sound.reader
  unfold ReaderSound at reader
  unfold State.readerStep at taken
  split at taken
  · cases taken
  · cases taken
    exact sound.load
  · rename_i flagsNow seen reader_eq
    rw [reader_eq] at reader
    rw [standard.isNewWrite_eq, standard.swap_eq] at taken
    split at taken
    · rename_i quiet
      cases taken
      exact sound.setReader (reader (by simpa using quiet))
    · rename_i announced
      split at taken
      · cases taken
        exact sound.load
      · rename_i succeeds
        have flags_eq : source.flags = flagsNow := by
          simp only [Bool.or_eq_true, bne_iff_ne, not_or, Decidable.not_not]
            at succeeds
          exact succeeds.2
        cases taken
        rw [← flags_eq] at announced ⊢
        exact sound.take (by simpa using announced)
  · rename_i seen reader_eq
    rw [reader_eq] at reader
    cases taken
    exact sound.setReader ⟨rfl, reader⟩
  · rename_i index seen reader_eq
    rw [reader_eq] at reader
    obtain ⟨rfl, holds⟩ := reader
    cases taken
    exact sound.return holds

theorem Sound.next (standard : code.Standard) (sound : source.Sound code contents)
    {action : Action Item} (taken : source.next code action = some target) :
    target.Sound code contents := by
  cases action with
  | write item =>
      simp only [State.next] at taken
      split at taken
      · cases taken
        exact sound.setWriter trivial
      · cases taken
  | writer spurious => exact sound.writerStep standard taken
  | read =>
      simp only [State.next] at taken
      split at taken
      · cases taken
        exact sound.setReader trivial
      · cases taken
  | reader spurious => exact sound.readerStep standard taken

end Steps

theorem sound_of_reachable (standard : code.Standard) {state : State Item Result}
    (reachable : (system code contents).Reachable state) :
    state.Sound code contents := by
  apply reachable.invariant
  · rintro state rfl
    exact sound_create
  · intro source action target _ _ taken sound
    exact sound.next standard taken

/--
The indexes are a permutation, the slot being written is not the slot being
read, each result is the item of the last write before the reader's last access
to the flags in its loop, and the numbers of the writes that successive reads
returned never decrease.
-/
structure Safe (code : Code Item Result) (contents : ℕ → Item)
    (state : State Item Result) : Prop where
  permutation :
    [dirtyIndex state.flags, cleanIndex state.flags, snapIndex state.flags].Perm
      [0, 1, 2]
  disjoint :
    ∀ item written read seen,
      state.writer = .storing item written →
      state.reader = .reading read seen → written ≠ read
  fresh :
    ∀ returned ∈ state.returned,
      returned.result = code.result (itemOf contents state.published returned.seen)
  stamped : ∀ returned ∈ state.returned, returned.number = returned.seen
  monotone :
    state.returned.Pairwise fun earlier later => earlier.number ≤ later.number

theorem Sound.safe {state : State Item Result}
    (sound : state.Sound code contents) : state.Safe code contents where
  permutation := sound.permutes.perm
  disjoint := by
    intro item written read seen writer_eq reader_eq
    have writer := sound.writer
    have reader := sound.reader
    simp only [WriterSound, writer_eq] at writer
    simp only [ReaderSound, reader_eq] at reader
    rw [writer, reader.1]
    exact sound.permutes.dirty_ne_snap
  fresh := fun returned member => (sound.returns.fresh returned member).2
  stamped := fun returned member => (sound.returns.fresh returned member).1
  monotone := sound.returns.ordered

end State

end AsyncRuntime.TripleBuffer
