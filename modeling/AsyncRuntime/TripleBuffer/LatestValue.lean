import AsyncRuntime.Foundation.Mailbox
import AsyncRuntime.TripleBuffer.Freshness

/-!
# The triple buffer keeps the latest value

Besides the writer and the reader any number of threads may call `isUpdate`, which
loads the flags once.  What the calls return can be explained by operations that take
effect one at a time.  A write takes effect with its compare-exchange.  A read takes
effect with its own, or with the load that announces no new write; the slot that it
copies later is still the one that it has found then.
-/

namespace AsyncRuntime.TripleBuffer

open Foundation
open Foundation.Mailbox (AskerPhase)

universe u v w

variable {Item : Type u} {Result : Type v} {Asker : Type w}

/-- The buffer and the threads inside `isUpdate`. -/
structure Shared (Item : Type u) (Result : Type v) (Asker : Type w) where
  buffer : State Item Result
  asking : Asker → Bool

/-- A call or a step of the writer or the reader, the call of `isUpdate`, or its load. -/
inductive SharedAction (Item : Type u) (Asker : Type w) where
  | buffer (action : Action Item)
  | isUpdate (asker : Asker)
  | load (asker : Asker)

namespace Shared

/-- One step. -/
def next [DecidableEq Asker] (code : Code Item Result) (state : Shared Item Result Asker) :
    SharedAction Item Asker → Option (Shared Item Result Asker)
  | .buffer action =>
      (state.buffer.next code action).map fun buffer => { state with buffer := buffer }
  | .isUpdate asker =>
      if state.asking asker then
        none
      else
        some { state with asking := Function.update state.asking asker true }
  | .load asker =>
      if state.asking asker then
        some { state with asking := Function.update state.asking asker false }
      else
        none

/-- What a step of a call of `read` shows: its result, when it returns. -/
def gives (state : State Item Result) : List Result :=
  match state.reader with
  | .idle => (state.returned.getLast?.map fun returned => returned.result).toList
  | _ => []

/-- What a step shows. -/
def shows (code : Code Item Result) (source : Shared Item Result Asker)
    (action : SharedAction Item Asker) (target : Shared Item Result Asker) :
    List (Mailbox.Event Item Result Asker) :=
  match action with
  | .buffer (.write item) => [.write item]
  | .buffer (.writer _) =>
      match target.buffer.writer with
      | .idle => [.written]
      | _ => []
  | .buffer .read => [.read]
  | .buffer (.reader _) => (gives target.buffer).map .got
  | .isUpdate asker => [.ask asker]
  | .load asker => [.told asker (code.isNewWrite source.buffer.flags)]

end Shared

/-- The triple buffer, with the calls and the returns as its events. -/
def observed (Asker : Type w) [DecidableEq Asker] (code : Code Item Result)
    (contents : ℕ → Item) :
    ObservedSystem (Shared Item Result Asker) (SharedAction Item Asker)
      (Mailbox.Event Item Result Asker) where
  initial := fun state => state = ⟨.create contents, fun _ => false⟩
  next := Shared.next code
  shows := Shared.shows code

/-! ## The mailbox behind the slots -/

/-- A write has not taken effect before it returns. -/
def WriterPc.phase : WriterPc Item → Mailbox.WriterPhase Item
  | .idle => .idle
  | .indexing item => .writing item
  | .storing item _ => .writing item
  | .loading item => .writing item
  | .swapping item _ => .writing item

/-- A read has taken the value that it will return. -/
def readerPhase (contents : ℕ → Item) (published : List Item) :
    ReaderPc → Mailbox.ReaderPhase Item
  | .idle => .idle
  | .loading => .reading
  | .looping flagsNow seen =>
      if isNewWrite flagsNow then .reading else .done (itemOf contents published seen)
  | .indexing seen => .done (itemOf contents published seen)
  | .reading _ seen => .done (itemOf contents published seen)

/-- The mailbox agrees with the flags, the writes and the threads. -/
structure Matches (contents : ℕ → Item) (state : Shared Item Result Asker)
    (mailbox : Mailbox.State Item Asker) : Prop where
  value :
    mailbox.value = itemOf contents state.buffer.published state.buffer.published.length
  fresh : mailbox.fresh = isNewWrite state.buffer.flags
  writer : mailbox.writer = state.buffer.writer.phase
  reader : mailbox.reader = readerPhase contents state.buffer.published state.buffer.reader
  askers :
    mailbox.askers = fun asker => if state.asking asker then .asking else .idle

/-- Later writes do not change what a read has taken. -/
theorem readerPhase_append {code : Code Item Result} {contents : ℕ → Item}
    {state : State Item Result} (sound : state.Sound code contents) (later : List Item) :
    readerPhase contents (state.published ++ later) state.reader =
      readerPhase contents state.published state.reader := by
  have reader := sound.reader
  unfold State.ReaderSound at reader
  cases place : state.reader with
  | idle => rfl
  | loading => rfl
  | looping flagsNow seen =>
      rw [place] at reader
      cases announced : isNewWrite flagsNow with
      | true => simp only [readerPhase, announced, if_true]
      | false =>
          simp only [readerPhase, announced, itemOf_append _ _ _ (reader announced).1]
  | indexing seen =>
      rw [place] at reader
      simp only [readerPhase, itemOf_append _ _ _ reader.1]
  | reading index seen =>
      rw [place] at reader
      simp only [readerPhase, itemOf_append _ _ _ reader.2.1]

section Simulation

variable [DecidableEq Asker] {code : Code Item Result} {contents : ℕ → Item}
  {state : Shared Item Result Asker} {mailbox : Mailbox.State Item Asker}

omit [DecidableEq Asker] in
/-- The writer's places before its compare-exchange. -/
theorem Matches.setWriter (matched : Matches contents state mailbox) {writer : WriterPc Item}
    {buffer : ℕ → Slot Item} (phase_eq : writer.phase = state.buffer.writer.phase) :
    Matches contents
      { state with buffer := { state.buffer with buffer := buffer, writer := writer } }
      mailbox where
  value := matched.value
  fresh := matched.fresh
  writer := matched.writer.trans phase_eq.symm
  reader := matched.reader
  askers := matched.askers

theorem Matches.writer_step (standard : code.Standard)
    (sound : state.buffer.Sound code contents) (matched : Matches contents state mailbox)
    {spurious : Bool} {buffer : State Item Result}
    (taken : state.buffer.writerStep code spurious = some buffer) :
    ∃ next, (Mailbox.system Asker code.result (contents 2)).Steps mailbox
        (Shared.shows code state (.buffer (.writer spurious)) { state with buffer := buffer })
        next ∧
      Matches contents { state with buffer := buffer } next := by
  cases place : state.buffer.writer with
  | idle => simp only [State.writerStep, place, reduceCtorEq] at taken
  | indexing item =>
      simp only [State.writerStep, place, Option.some.injEq] at taken
      subst taken
      exact ⟨mailbox, .done, matched.setWriter (by rw [place]; rfl)⟩
  | storing item index =>
      simp only [State.writerStep, place, Option.some.injEq] at taken
      subst taken
      exact ⟨mailbox, .done, matched.setWriter (by rw [place]; rfl)⟩
  | loading item =>
      simp only [State.writerStep, place, Option.some.injEq] at taken
      subst taken
      exact ⟨mailbox, .done, matched.setWriter (by rw [place]; rfl)⟩
  | swapping item flagsNow =>
      simp only [State.writerStep, place] at taken
      split at taken
      · cases taken
        exact ⟨mailbox, .done, matched.setWriter (by rw [place]; rfl)⟩
      · cases taken
        have writing : mailbox.writer = .writing item := by
          rw [matched.writer, place]
          rfl
        refine ⟨_, Mailbox.steps_store writing, ?_, ?_, rfl, ?_, matched.askers⟩
        · dsimp only
          rw [List.length_append, List.length_singleton, itemOf_length]
        · dsimp only
          rw [standard.newWrite_eq, isNewWrite_newWriteSwapCleanWithDirty]
        · exact matched.reader.trans (readerPhase_append sound [item]).symm

/-- The reader loads the flags: without a new write it has the latest value. -/
theorem Matches.load (matched : Matches contents state mailbox)
    (reading : mailbox.reader = .reading) :
    ∃ next, (Mailbox.system Asker code.result (contents 2)).Steps mailbox [] next ∧
      Matches contents
        { state with
          buffer :=
            { state.buffer with
              reader := .looping state.buffer.flags state.buffer.published.length } } next := by
  cases announced : isNewWrite state.buffer.flags with
  | true =>
      refine ⟨mailbox, .done, matched.value, matched.fresh, matched.writer, ?_, matched.askers⟩
      simp only [reading, readerPhase, announced, if_true]
  | false =>
      refine ⟨_, Mailbox.steps_take reading, matched.value, announced.symm, matched.writer, ?_,
        matched.askers⟩
      simp only [matched.value, readerPhase, announced, Bool.false_eq_true, if_false]

theorem Matches.reader_step (standard : code.Standard)
    (sound : state.buffer.Sound code contents) (matched : Matches contents state mailbox)
    {spurious : Bool} {buffer : State Item Result}
    (taken : state.buffer.readerStep code spurious = some buffer) :
    ∃ next, (Mailbox.system Asker code.result (contents 2)).Steps mailbox
        (Shared.shows code state (.buffer (.reader spurious)) { state with buffer := buffer })
        next ∧
      Matches contents { state with buffer := buffer } next := by
  have phase := matched.reader
  have reader := sound.reader
  unfold State.ReaderSound at reader
  cases place : state.buffer.reader with
  | idle => simp only [State.readerStep, place, reduceCtorEq] at taken
  | loading =>
      simp only [State.readerStep, place, Option.some.injEq] at taken
      subst taken
      rw [place] at phase
      exact matched.load phase
  | looping flagsNow seen =>
      rw [place] at phase
      simp only [State.readerStep, place, standard.isNewWrite_eq] at taken
      cases announced : isNewWrite flagsNow with
      | false =>
          simp only [announced, Bool.not_false, if_true, Option.some.injEq] at taken
          subst taken
          simp only [readerPhase, announced, Bool.false_eq_true, if_false] at phase
          exact ⟨mailbox, .done, matched.value, matched.fresh, matched.writer, phase,
            matched.askers⟩
      | true =>
          simp only [announced, Bool.not_true, Bool.false_eq_true, if_false] at taken
          simp only [readerPhase, announced, if_true] at phase
          split at taken
          · cases taken
            exact matched.load phase
          · rename_i succeeds
            cases taken
            refine ⟨_, Mailbox.steps_take phase, matched.value, ?_, matched.writer, ?_,
              matched.askers⟩
            · dsimp only
              rw [standard.swap_eq, isNewWrite_swapSnapWithClean]
            · dsimp only
              rw [matched.value]
              rfl
  | indexing seen =>
      rw [place] at phase
      simp only [State.readerStep, place, Option.some.injEq] at taken
      subst taken
      exact ⟨mailbox, .done, matched.value, matched.fresh, matched.writer, phase,
        matched.askers⟩
  | reading index seen =>
      rw [place] at phase reader
      simp only [State.readerStep, place, Option.some.injEq] at taken
      obtain ⟨index_eq, holds⟩ := reader
      have copied : (state.buffer.buffer index).item =
          itemOf contents state.buffer.published seen := by
        rw [index_eq, holds.2]
      subst taken
      refine ⟨{ mailbox with reader := .idle }, ?_, matched.value, matched.fresh, matched.writer,
        rfl, matched.askers⟩
      have returned := @Mailbox.steps_got _ _ _ _ code.result (contents 2) _ _ phase
      simpa only [Shared.shows, Shared.gives, List.getLast?_concat, Option.map_some,
        Option.toList_some, List.map_cons, List.map_nil, copied] using returned

/-- A call of `write` or `read` is a call of the mailbox. -/
theorem Matches.called (matched : Matches contents state mailbox) {action : Action Item}
    (calls : action = .read ∨ ∃ item, action = .write item) {buffer : State Item Result}
    (taken : state.buffer.next code action = some buffer) :
    ∃ next, (Mailbox.system Asker code.result (contents 2)).Steps mailbox
        (Shared.shows code state (.buffer action) { state with buffer := buffer }) next ∧
      Matches contents { state with buffer := buffer } next := by
  rcases calls with rfl | ⟨item, rfl⟩
  · cases place : state.buffer.reader with
    | idle =>
        simp only [State.next, place, Option.some.injEq] at taken
        subst taken
        have outside : mailbox.reader = .idle := by
          rw [matched.reader, place]
          rfl
        have called : (Mailbox.system Asker code.result (contents 2)).next mailbox .read =
            some { mailbox with reader := .reading } := by
          simp only [Mailbox.system, Mailbox.State.next, outside]
        exact ⟨_, .one called, matched.value, matched.fresh, matched.writer, rfl,
          matched.askers⟩
    | _ => simp only [State.next, place, reduceCtorEq] at taken
  · cases place : state.buffer.writer with
    | idle =>
        simp only [State.next, place, Option.some.injEq] at taken
        subst taken
        have outside : mailbox.writer = .idle := by
          rw [matched.writer, place]
          rfl
        have called : (Mailbox.system Asker code.result (contents 2)).next mailbox (.write item) =
            some { mailbox with writer := .writing item } := by
          simp only [Mailbox.system, Mailbox.State.next, outside]
        exact ⟨_, .one called, matched.value, matched.fresh, rfl, matched.reader,
          matched.askers⟩
    | _ => simp only [State.next, place, reduceCtorEq] at taken

/-- What a thread inside or outside `isUpdate` is in the mailbox. -/
theorem askers_update (asking : Asker → Bool) (asker : Asker) (inside : Bool) :
    Function.update (fun other => if asking other then AskerPhase.asking else .idle) asker
        (if inside then .asking else .idle) =
      fun other => if Function.update asking asker inside other then .asking else .idle := by
  funext other
  exact (Function.apply_update (fun _ inside => if inside then AskerPhase.asking else .idle)
    asking asker inside other).symm

theorem Matches.isUpdate (matched : Matches contents state mailbox) {asker : Asker}
    (outside : state.asking asker = false) :
    ∃ next, (Mailbox.system Asker code.result (contents 2)).Steps mailbox [.ask asker] next ∧
      Matches contents
        { state with asking := Function.update state.asking asker true } next := by
  have idle : mailbox.askers asker = .idle := by
    simp only [matched.askers, outside, Bool.false_eq_true, if_false]
  have called : (Mailbox.system Asker code.result (contents 2)).next mailbox (.ask asker) =
      some (mailbox.setAsker asker .asking) := by
    simp only [Mailbox.system, Mailbox.State.next, idle]
  refine ⟨_, .one called, matched.value, matched.fresh, matched.writer, matched.reader, ?_⟩
  rw [Mailbox.State.setAsker, matched.askers]
  exact askers_update state.asking asker true

theorem Matches.told (standard : code.Standard) (matched : Matches contents state mailbox)
    {asker : Asker} (inside : state.asking asker = true) :
    ∃ next, (Mailbox.system Asker code.result (contents 2)).Steps mailbox
        [.told asker (code.isNewWrite state.buffer.flags)] next ∧
      Matches contents
        { state with asking := Function.update state.asking asker false } next := by
  have asking : mailbox.askers asker = .asking := by
    simp only [matched.askers, inside, if_true]
  rw [standard.isNewWrite_eq, ← matched.fresh]
  refine ⟨_, Mailbox.steps_told asking, matched.value, matched.fresh, matched.writer,
    matched.reader, ?_⟩
  rw [Mailbox.State.setAsker, matched.askers]
  exact askers_update state.asking asker false

/-- The threads inside `isUpdate` do not touch the buffer. -/
theorem sound_of_shared (standard : code.Standard)
    (reachable : (observed Asker code contents).Reachable state) :
    state.buffer.Sound code contents := by
  have projected : (system code contents).Reachable state.buffer := by
    refine reachable.project (fun state => state.buffer) ?_ ?_
    · rintro _ rfl
      rfl
    · intro source action target _ taken
      have stepped : source.next code action = some target := taken
      cases action with
      | buffer action =>
          obtain ⟨buffer, moved, rfl⟩ := Option.map_eq_some_iff.mp stepped
          exact .inr ⟨action, trivial, moved⟩
      | isUpdate asker =>
          rw [Shared.next] at stepped
          split at stepped
          · cases stepped
          · cases stepped
            exact .inl rfl
      | load asker =>
          rw [Shared.next] at stepped
          split at stepped
          · cases stepped
            exact .inl rfl
          · cases stepped
  exact State.sound_of_reachable standard projected

end Simulation

/-- The mailbox follows the triple buffer step by step. -/
def simulation (Asker : Type w) [DecidableEq Asker] {code : Code Item Result}
    (standard : code.Standard) (contents : ℕ → Item) :
    ObservedSystem.Simulation (observed Asker code contents) (fun _ _ => True)
      (Mailbox.system Asker code.result (contents 2)) where
  relation := Matches contents
  start := by
    have quiet : isNewWrite 0x6#8 = false := by decide
    rintro _ rfl
    exact ⟨_, rfl, rfl, quiet.symm, rfl, rfl, rfl⟩
  step := by
    intro source action target mailbox reachable _ taken matched
    have sound := sound_of_shared standard reachable
    have stepped : source.next code action = some target := taken
    cases action with
    | buffer action =>
        obtain ⟨buffer, moved, rfl⟩ := Option.map_eq_some_iff.mp stepped
        cases action with
        | write item => exact matched.called (.inr ⟨item, rfl⟩) moved
        | writer spurious => exact matched.writer_step standard sound moved
        | read => exact matched.called (.inl rfl) moved
        | reader spurious => exact matched.reader_step standard sound moved
    | isUpdate asker =>
        rw [Shared.next] at stepped
        split at stepped
        · cases stepped
        · rename_i outside
          cases stepped
          exact matched.isUpdate (Bool.eq_false_iff.mpr outside)
    | load asker =>
        rw [Shared.next] at stepped
        split at stepped
        · rename_i inside
          cases stepped
          exact matched.told standard inside
        · cases stepped

/--
Whatever the threads do in any order of their atomic steps, the calls and their results
are a history of the mailbox, for `TripleBuffer` with any number of threads that call
`isUpdate`, and for `Dataflow::TripleBuffer`, which has no such function.
-/
theorem refines_mailbox (Asker : Type w) [DecidableEq Asker] (contents : ℕ → Item) :
    (observed Asker (code Item) contents).Refines (fun _ _ => True)
        (Mailbox.system Asker id (contents 2)) ∧
      (observed Empty (dataflowCode Item) contents).Refines (fun _ _ => True)
        (Mailbox.system Empty some (contents 2)) :=
  ⟨(simulation Asker (standard_code Item) contents).refines,
    (simulation Empty (standard_dataflowCode Item) contents).refines⟩

end AsyncRuntime.TripleBuffer
