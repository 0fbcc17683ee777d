import AsyncRuntime.Foundation.Potential
import AsyncRuntime.TripleBuffer.Freshness

/-!
# The triple buffer is lock-free

A compare-exchange fails only spuriously or because the other thread has changed the
flags.  The reader changes them only to forget a new write, so it can make a write fail
once and not again before the write is done: apart from spurious failures a write takes
at most five steps.  A read fails once more for every write that succeeds meanwhile.
-/

namespace AsyncRuntime.TripleBuffer

open Foundation

universe u v

variable {Item : Type u} {Result : Type v}

/-! ## What a step does to the flags -/

/-- The steps of a write: the flags and the place before and after. -/
inductive WriterMove (code : Code Item Result) (flags : Flags) :
    Bool → WriterPc Item → Flags → WriterPc Item → Prop where
  | indexes (item : Item) (spurious : Bool) :
      WriterMove code flags spurious (.indexing item) flags (.storing item (dirtyIndex flags))
  | stores (item : Item) (index : ℕ) (spurious : Bool) :
      WriterMove code flags spurious (.storing item index) flags (.loading item)
  | loads (item : Item) (spurious : Bool) :
      WriterMove code flags spurious (.loading item) flags (.swapping item flags)
  | fails (item : Item) {spurious : Bool} {flagsNow : Flags}
      (failed : spurious = true ∨ flags ≠ flagsNow) :
      WriterMove code flags spurious (.swapping item flagsNow) flags (.swapping item flags)
  | swaps (item : Item) :
      WriterMove code flags false (.swapping item flags)
        (code.newWriteSwapCleanWithDirty flags) .idle

/-- The steps of a read: the flags and the place before and after. -/
inductive ReaderMove (code : Code Item Result) (flags : Flags) :
    Bool → ReaderPc → Flags → ReaderPc → Prop where
  | loads (seen : ℕ) (spurious : Bool) :
      ReaderMove code flags spurious .loading flags (.looping flags seen)
  | skips {flagsNow : Flags} (seen : ℕ) (spurious : Bool) :
      ReaderMove code flags spurious (.looping flagsNow seen) flags (.indexing seen)
  | fails (seen later : ℕ) {spurious : Bool} {flagsNow : Flags}
      (failed : spurious = true ∨ flags ≠ flagsNow) :
      ReaderMove code flags spurious (.looping flagsNow seen) flags (.looping flags later)
  | swaps (seen later : ℕ) (announced : code.isNewWrite flags = true) :
      ReaderMove code flags false (.looping flags seen) (code.swapSnapWithClean flags)
        (.indexing later)
  | indexes (seen index : ℕ) (spurious : Bool) :
      ReaderMove code flags spurious (.indexing seen) flags (.reading index seen)
  | reads (index seen : ℕ) (spurious : Bool) :
      ReaderMove code flags spurious (.reading index seen) flags .idle

namespace State

section Moves

variable {code : Code Item Result} {source target : State Item Result} {spurious : Bool}

theorem writerMove_of_step (taken : source.writerStep code spurious = some target) :
    target.reader = source.reader ∧
      WriterMove code source.flags spurious source.writer target.flags target.writer := by
  unfold writerStep at taken
  split at taken
  · cases taken
  · rename_i item place
    cases taken
    rw [place]
    exact ⟨rfl, .indexes item spurious⟩
  · rename_i item index place
    cases taken
    rw [place]
    exact ⟨rfl, .stores item index spurious⟩
  · rename_i item place
    cases taken
    rw [place]
    exact ⟨rfl, .loads item spurious⟩
  · rename_i item flagsNow place
    rw [place]
    split at taken
    · rename_i failed
      cases taken
      exact ⟨rfl, .fails item (by simpa using failed)⟩
    · rename_i succeeds
      simp only [Bool.or_eq_true, bne_iff_ne, not_or, Decidable.not_not, Bool.not_eq_true]
        at succeeds
      obtain ⟨rfl, rfl⟩ := succeeds
      cases taken
      exact ⟨rfl, .swaps item⟩

theorem readerMove_of_step (taken : source.readerStep code spurious = some target) :
    target.writer = source.writer ∧
      ReaderMove code source.flags spurious source.reader target.flags target.reader := by
  unfold readerStep at taken
  split at taken
  · cases taken
  · rename_i place
    cases taken
    rw [place]
    exact ⟨rfl, .loads _ spurious⟩
  · rename_i flagsNow seen place
    rw [place]
    split at taken
    · cases taken
      exact ⟨rfl, .skips seen spurious⟩
    · rename_i announced
      split at taken
      · rename_i failed
        cases taken
        exact ⟨rfl, .fails seen _ (by simpa using failed)⟩
      · rename_i succeeds
        simp only [Bool.or_eq_true, bne_iff_ne, not_or, Decidable.not_not, Bool.not_eq_true]
          at succeeds
        obtain ⟨rfl, rfl⟩ := succeeds
        cases taken
        exact ⟨rfl, .swaps seen _ (by simpa using announced)⟩
  · rename_i seen place
    cases taken
    rw [place]
    exact ⟨rfl, .indexes seen _ spurious⟩
  · rename_i index seen place
    cases taken
    rw [place]
    exact ⟨rfl, .reads index seen spurious⟩

end Moves

end State

/-! ## The steps that are counted -/

namespace Action

def isWrite : Action Item → Bool
  | .write _ => true
  | _ => false

def isRead : Action Item → Bool
  | .read => true
  | _ => false

def movesWriter : Action Item → Bool
  | .writer _ => true
  | _ => false

def movesReader : Action Item → Bool
  | .reader _ => true
  | _ => false

/-- A step of the writer that fails spuriously if it is a compare-exchange. -/
def failsWriter : Action Item → Bool
  | .writer spurious => spurious
  | _ => false

/-- A step of the reader that fails spuriously if it is a compare-exchange. -/
def failsReader : Action Item → Bool
  | .reader spurious => spurious
  | _ => false

end Action

/-! ## What is still to be done -/

/-- The steps that a write has still to take; a new write can be forgotten once. -/
def WriterPc.work (flags : Flags) : WriterPc Item → ℕ
  | .idle => 0
  | .indexing _ => 5
  | .storing _ _ => 4
  | .loading _ => 3
  | .swapping _ flagsNow => if flags = flagsNow ∧ isNewWrite flags = false then 1 else 2

/-- A write that has begun will change the flags once. -/
def WriterPc.pending : WriterPc Item → ℕ
  | .idle => 0
  | _ => 1

/-- The steps that a read has still to take if no write succeeds meanwhile. -/
def ReaderPc.work (flags : Flags) : ReaderPc → ℕ
  | .idle => 0
  | .loading => 4
  | .looping flagsNow _ => if flags = flagsNow then 3 else 4
  | .indexing _ => 2
  | .reading _ _ => 1

/-- Only a new write that was forgotten makes the flags of the writer outdated. -/
def WriterPc.Current (flags : Flags) : WriterPc Item → Prop
  | .swapping _ flagsNow => flags = flagsNow ∨ isNewWrite flags = false
  | _ => True

section Moves

variable {code : Code Item Result} {flags flagsAfter : Flags} {spurious : Bool}
variable {writer writerAfter : WriterPc Item} {reader readerAfter : ReaderPc}

theorem WriterMove.current
    (move : WriterMove code flags spurious writer flagsAfter writerAfter) :
    writerAfter.Current flagsAfter := by
  cases move with
  | loads item => exact .inl rfl
  | fails item failed => exact .inl rfl
  | _ => trivial

theorem ReaderMove.current (standard : code.Standard)
    (move : ReaderMove code flags spurious reader flagsAfter readerAfter)
    (current : writer.Current flags) : writer.Current flagsAfter := by
  cases move with
  | swaps seen later announced =>
      rw [standard.swap_eq]
      cases writer with
      | swapping item flagsNow => exact .inr (isNewWrite_swapSnapWithClean flags)
      | _ => trivial
  | _ => exact current

theorem WriterPc.work_swapping_le (item : Item) (flagsNow : Flags) :
    (WriterPc.swapping item flagsNow).work flags ≤ 2 := by
  simp only [WriterPc.work]
  split
  · exact Nat.le_succ 1
  · exact le_refl 2

/-- A step of a write does some of its work, unless it fails spuriously. -/
theorem WriterMove.work (move : WriterMove code flags spurious writer flagsAfter writerAfter)
    (current : writer.Current flags) :
    1 + writerAfter.work flagsAfter ≤ writer.work flags + if spurious then 1 else 0 := by
  cases move with
  | indexes item => exact Nat.le_add_right _ _
  | stores item index => exact Nat.le_add_right _ _
  | loads item =>
      have few := @WriterPc.work_swapping_le Item flags item flags
      simp only [WriterPc.work] at few ⊢
      omega
  | @fails item _ flagsNow failed =>
      rcases failed with rfl | outdated
      · -- the flags are loaded again, and they are no newer than before
        cases announced : isNewWrite flags with
        | true => simp [WriterPc.work, announced]
        | false =>
            simp only [WriterPc.work, announced, and_self, if_true]
            split <;> omega
      · have forgotten := current.resolve_left outdated
        simp [WriterPc.work, forgotten, outdated]
  | swaps item =>
      simp only [WriterPc.work]
      split <;> omega

/-- A step of a read makes no work for the writer. -/
theorem ReaderMove.writer_work (standard : code.Standard)
    (move : ReaderMove code flags spurious reader flagsAfter readerAfter) :
    writer.work flagsAfter ≤ writer.work flags := by
  cases move with
  | swaps seen later announced =>
      rw [standard.isNewWrite_eq] at announced
      cases writer with
      | swapping item flagsNow =>
          have few :=
            @WriterPc.work_swapping_le Item (code.swapSnapWithClean flags) item flagsNow
          simpa [WriterPc.work, announced] using few
      | _ => exact le_rfl
  | _ => exact le_rfl

/-- A step of a read does some of its work, unless it fails spuriously. -/
theorem ReaderMove.work (move : ReaderMove code flags spurious reader flagsAfter readerAfter) :
    1 + readerAfter.work flagsAfter ≤ reader.work flags + if spurious then 1 else 0 := by
  cases move with
  | loads seen => simp [ReaderPc.work]
  | skips seen =>
      simp only [ReaderPc.work]
      split <;> omega
  | @fails seen later _ flagsNow failed =>
      rcases failed with rfl | outdated
      · simp only [ReaderPc.work, if_true]
        split <;> omega
      · simp [ReaderPc.work, outdated]
  | swaps seen later announced => simp [ReaderPc.work]
  | indexes seen index => exact Nat.le_add_right _ _
  | reads index seen => exact Nat.le_add_right _ _

/-- A write that succeeds makes one more step of work for the reader. -/
theorem WriterMove.reader_work
    (move : WriterMove code flags spurious writer flagsAfter writerAfter) :
    reader.work flagsAfter + writerAfter.pending ≤ reader.work flags + writer.pending := by
  cases move with
  | swaps item =>
      cases reader with
      | looping flagsNow seen =>
          simp only [ReaderPc.work, WriterPc.pending]
          split <;> split <;> omega
      | _ => exact Nat.le_succ _
  | _ => exact le_rfl

end Moves

section Runs

variable {code : Code Item Result} {contents : ℕ → Item}
variable {state source target : State Item Result}

/-- A call of `write` only begins it. -/
theorem write_of_next {item : Item}
    (taken : (system code contents).next source (.write item) = some target) :
    target = { source with writer := .indexing item } := by
  simp only [system, State.next] at taken
  split at taken <;> cases taken
  rfl

/-- A call of `read` only begins it. -/
theorem read_of_next (taken : (system code contents).next source .read = some target) :
    target = { source with reader := .loading } := by
  simp only [system, State.next] at taken
  split at taken <;> cases taken
  rfl

/-- The writer of every reachable state is current. -/
theorem current_of_reachable (standard : code.Standard)
    (reachable : (system code contents).Reachable state) :
    state.writer.Current state.flags := by
  induction reachable with
  | start isInitial =>
      cases isInitial
      trivial
  | @step source target action _ _ taken current =>
      cases action with
      | write item =>
          cases write_of_next taken
          trivial
      | writer spurious => exact (State.writerMove_of_step taken).2.current
      | read =>
          cases read_of_next taken
          exact current
      | reader spurious =>
          obtain ⟨writer_eq, move⟩ := State.readerMove_of_step taken
          rw [writer_eq]
          exact move.current standard current

/-- A write brings five steps, and each spurious failure one more. -/
def writerGrant (action : Action Item) : ℕ :=
  TransitionSystem.each Action.isWrite 5 action +
    TransitionSystem.each Action.failsWriter 1 action

/-- A read brings four steps, and each spurious failure and each write one more. -/
def readerGrant (action : Action Item) : ℕ :=
  TransitionSystem.each Action.isRead 4 action +
    TransitionSystem.each Action.isWrite 1 action +
      TransitionSystem.each Action.failsReader 1 action

/-- The steps of the writer are paid out of its work. -/
def writerAccount (standard : code.Standard) (contents : ℕ → Item) :
    TransitionSystem.Potential (system code contents) (fun _ _ => True)
      (TransitionSystem.each Action.movesWriter 1) writerGrant where
  potential := fun state => state.writer.work state.flags
  pays := by
    intro source action target reachable _ taken
    cases action with
    | write item =>
        cases write_of_next taken
        show 0 + 5 ≤ _ + (5 + 0)
        omega
    | writer spurious =>
        have lower :=
          (State.writerMove_of_step taken).2.work (current_of_reachable standard reachable)
        show 1 + _ ≤ _ + (0 + if spurious then 1 else 0)
        omega
    | read =>
        cases read_of_next taken
        show 0 + source.writer.work source.flags ≤ _ + (0 + 0)
        omega
    | reader spurious =>
        obtain ⟨writer_eq, move⟩ := State.readerMove_of_step taken
        have kept : source.writer.work target.flags ≤ source.writer.work source.flags :=
          move.writer_work standard
        rw [writer_eq]
        show 0 + _ ≤ _ + (0 + 0)
        omega

/-- The steps of the reader are paid out of its work and of the write that is going on. -/
def readerAccount (code : Code Item Result) (contents : ℕ → Item) :
    TransitionSystem.Potential (system code contents) (fun _ _ => True)
      (TransitionSystem.each Action.movesReader 1) readerGrant where
  potential := fun state => state.reader.work state.flags + state.writer.pending
  pays := by
    intro source action target _ _ taken
    cases action with
    | write item =>
        cases write_of_next taken
        show 0 + (source.reader.work source.flags + 1) ≤ _ + _ + (0 + 1 + 0)
        omega
    | writer spurious =>
        obtain ⟨reader_eq, move⟩ := State.writerMove_of_step taken
        have kept :
            source.reader.work target.flags + target.writer.pending ≤
              source.reader.work source.flags + source.writer.pending :=
          move.reader_work
        rw [reader_eq]
        show 0 + _ ≤ _ + (0 + 0 + 0)
        omega
    | read =>
        cases read_of_next taken
        show 0 + (4 + source.writer.pending) ≤ _ + _ + (4 + 0 + 0)
        omega
    | reader spurious =>
        obtain ⟨writer_eq, move⟩ := State.readerMove_of_step taken
        have lower := move.work
        rw [writer_eq]
        show 1 + (_ + _) ≤ _ + _ + (0 + 0 + if spurious then 1 else 0)
        omega

theorem sum_writerGrant (actions : List (Action Item)) :
    (actions.map writerGrant).sum =
      5 * actions.countP Action.isWrite + actions.countP Action.failsWriter := by
  unfold writerGrant
  rw [List.sum_map_add, TransitionSystem.sum_each, TransitionSystem.sum_each, Nat.one_mul]

theorem sum_readerGrant (actions : List (Action Item)) :
    (actions.map readerGrant).sum =
      4 * actions.countP Action.isRead + actions.countP Action.isWrite +
        actions.countP Action.failsReader := by
  unfold readerGrant
  rw [List.sum_map_add, List.sum_map_add, TransitionSystem.sum_each, TransitionSystem.sum_each,
    TransitionSystem.sum_each, Nat.one_mul, Nat.one_mul]

/-- A write that has begun can take its next step, whatever the reader does. -/
theorem writerStep_isSome (spurious : Bool) (begun : state.writer ≠ .idle) :
    (state.writerStep code spurious).isSome := by
  unfold State.writerStep
  split
  · rename_i idle
    exact absurd idle begun
  · rfl
  · rfl
  · rfl
  · split <;> rfl

/-- A read that has begun can take its next step, whatever the writer does. -/
theorem readerStep_isSome (spurious : Bool) (begun : state.reader ≠ .idle) :
    (state.readerStep code spurious).isSome := by
  unfold State.readerStep
  split
  · rename_i idle
    exact absurd idle begun
  · rfl
  · split
    · rfl
    · split <;> rfl
  · rfl
  · rfl

end Runs

/-- What makes a class lock-free: how many steps the operations of a run take. -/
structure LockFree (code : Code Item Result) (contents : ℕ → Item) : Prop where
  writes :
    ∀ (source target : State Item Result) (actions : List (Action Item)),
      (system code contents).Reachable source → source.writer = .idle →
      (system code contents).run (fun _ _ => True) source actions = some target →
      actions.countP Action.movesWriter ≤
        5 * actions.countP Action.isWrite + actions.countP Action.failsWriter
  /-- A write that is going on at the beginning can still change the flags. -/
  reads :
    ∀ (source target : State Item Result) (actions : List (Action Item)),
      (system code contents).Reachable source → source.reader = .idle →
      (system code contents).run (fun _ _ => True) source actions = some target →
      actions.countP Action.movesReader ≤
        4 * actions.countP Action.isRead +
          (actions.countP Action.isWrite + source.writer.pending) +
          actions.countP Action.failsReader
  goes_on :
    ∀ (state : State Item Result) (spurious : Bool),
      (state.writer ≠ .idle → (state.writerStep code spurious).isSome) ∧
        (state.reader ≠ .idle → (state.readerStep code spurious).isSome)

theorem Code.Standard.lockFree {code : Code Item Result} (standard : code.Standard)
    (contents : ℕ → Item) : LockFree code contents where
  writes := by
    intro source target actions reachable idle replayed
    have bounded := (writerAccount standard contents).run reachable actions replayed
    have initially : (writerAccount standard contents).potential source = 0 := by
      simp only [writerAccount, idle, WriterPc.work]
    rw [TransitionSystem.sum_each, sum_writerGrant] at bounded
    omega
  reads := by
    intro source target actions reachable idle replayed
    have bounded := (readerAccount code contents).run reachable actions replayed
    have initially : (readerAccount code contents).potential source = source.writer.pending := by
      simp only [readerAccount, idle, ReaderPc.work, Nat.zero_add]
    rw [TransitionSystem.sum_each, sum_readerGrant] at bounded
    omega
  goes_on := fun _ spurious => ⟨writerStep_isSome spurious, readerStep_isSome spurious⟩

/--
Both classes are lock-free.  Apart from spurious failures a write takes at most five
steps, and a read four and one more for each write that meanwhile gets done.
-/
theorem lock_free (contents : ℕ → Item) :
    LockFree (code Item) contents ∧ LockFree (dataflowCode Item) contents :=
  ⟨(standard_code Item).lockFree contents, (standard_dataflowCode Item).lockFree contents⟩

end AsyncRuntime.TripleBuffer
