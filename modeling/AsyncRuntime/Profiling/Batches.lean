import AsyncRuntime.Foundation.StepConditions
import AsyncRuntime.Profiling.Model
import Mathlib.Tactic.Ring

/-!
# Coroutines and threads

`Update` applies a batch of events in the reverse of the order in which they were
added.  A deletion that follows its creation in one batch comes first then: a counter
at zero stays there, and a list of threads has nothing to remove.

The entries themselves have balances.  The counter ends with the balance of all entries
exactly if no beginning of a batch has a larger one than all entries up to the end of
that batch, and a thread is listed as often as it should be exactly if the last batch
that deletes it changes its balance.
-/

namespace AsyncRuntime.Profiling

open AsyncRuntime.Foundation
open AsyncRuntime.WorkStealQueue

/-! ## What the entries say -/

/-- The coroutines that are created less those that are deleted. -/
def coroutineBalance (entries : List Entry) : ℤ :=
  (entries.countP (·.type = .newCoroutine) : ℤ) - entries.countP (·.type = .deleteCoroutine)

/-- The entry creates the thread. -/
def Entry.creates (thread : ℕ) (entry : Entry) : Bool :=
  entry.type = .newThread ∧ entry.thread = thread

/-- The entry deletes the thread. -/
def Entry.deletes (thread : ℕ) (entry : Entry) : Bool :=
  entry.type = .deleteThread ∧ entry.thread = thread

/-- How often the thread is created less how often it is deleted. -/
def threadBalance (thread : ℕ) (entries : List Entry) : ℤ :=
  (entries.countP (·.creates thread) : ℤ) - entries.countP (·.deletes thread)

/--
At no time have more coroutines been deleted than created, and a thread is created and
deleted in turns.
-/
def WellFormed (entries : List Entry) : Prop :=
  ∀ start, start <+: entries →
    0 ≤ coroutineBalance start ∧
      ∀ thread, 0 ≤ threadBalance thread start ∧ threadBalance thread start ≤ 1

/-- The state has the balances of the entries. -/
structure Balanced (entries : List Entry) (state : State) : Prop where
  coroutines : state.coroutinesCount = coroutineBalance entries
  threads : ∀ thread, (state.threads.count thread : ℤ) = threadBalance thread entries

namespace Profiler

section Run

variable (clock : ℕ → ℤ) (memory : ℕ → ℤ → Event)

/-- The calls of `AddEvent` between two of `Update`. -/
def addEvents (profiler : Profiler) (batch : List Entry) : Profiler :=
  batch.foldl (addEvent clock memory) profiler

/-- A new profiler that is updated behind each of the batches. -/
def observe (batches : List (List Entry)) : Profiler :=
  batches.foldl (fun profiler batch => (profiler.addEvents clock memory batch).update clock)
    (create memory)

end Run

end Profiler

/-! ## What a batch does -/

/-- What an event of this type does with `coroutines_count`. -/
def coroutineStep (type : EventType) (count : ℤ) : ℤ :=
  match type with
  | .newCoroutine => count + 1
  | .deleteCoroutine => if count - 1 < 0 then 0 else count - 1
  | _ => count

/-- What an event of this type from this thread does with `threads`. -/
def threadStep (key : EventType × ℕ) (threads : List ℕ) : List ℕ :=
  match key.1 with
  | .newThread => threads ++ [key.2]
  | .deleteThread => threads.filter (· ≠ key.2)
  | _ => threads

def Event.key (event : Event) : EventType × ℕ :=
  (event.type, event.thread)

def Entry.key (entry : Entry) : EventType × ℕ :=
  (entry.type, entry.thread)

namespace Profiler

variable {clock : ℕ → ℤ} {memory : ℕ → ℤ → Event} {profiler : Profiler}

theorem coroutinesCount_applyEvent (profiler : Profiler) (event : Event) :
    (profiler.applyEvent clock event).state.coroutinesCount =
      coroutineStep event.type profiler.state.coroutinesCount := by
  rw [applyEvent]
  cases type : event.type with
  | workTimeStep =>
      dsimp only
      split <;> rfl
  | _ => rfl

theorem threads_applyEvent (profiler : Profiler) (event : Event) :
    (profiler.applyEvent clock event).state.threads =
      threadStep event.key profiler.state.threads := by
  rw [applyEvent, Event.key]
  cases type : event.type with
  | workTimeStep =>
      dsimp only
      split <;> rfl
  | _ => rfl

theorem coroutinesCount_foldl (profiler : Profiler) (events : List Event) :
    (events.foldl (applyEvent clock) profiler).state.coroutinesCount =
      events.foldl (fun count event => coroutineStep event.type count)
        profiler.state.coroutinesCount :=
  (List.foldl_hom (·.state.coroutinesCount) fun profiler event =>
    (coroutinesCount_applyEvent profiler event).symm).symm

theorem threads_foldl (profiler : Profiler) (events : List Event) :
    (events.foldl (applyEvent clock) profiler).state.threads =
      events.foldl (fun threads event => threadStep event.key threads)
        profiler.state.threads :=
  (List.foldl_hom (·.state.threads) fun profiler event =>
    (threads_applyEvent profiler event).symm).symm

theorem key_newEvent (profiler : Profiler) (entry : Entry) :
    (profiler.newEvent clock entry).key = entry.key := by
  rw [newEvent]
  split <;> rfl

/-- The entries are added as events, and the state stays as it is. -/
theorem represents_addEvents {pending : List Event}
    (represents : Represents profiler.events pending) (batch : List Entry) :
    ∃ events, Represents (profiler.addEvents clock memory batch).events (pending ++ events) ∧
      events.map Event.key = batch.map Entry.key ∧
      (profiler.addEvents clock memory batch).state = profiler.state := by
  induction batch generalizing profiler pending with
  | nil => exact ⟨[], by rwa [List.append_nil], rfl, rfl⟩
  | cons entry batch inductionHypothesis =>
      obtain ⟨events, added, keys, same⟩ :=
        inductionHypothesis (represents_addEvent represents entry)
      refine ⟨profiler.newEvent clock entry :: events, ?_, ?_, same⟩
      · rwa [List.append_assoc] at added
      · rw [List.map_cons, List.map_cons, keys, key_newEvent]

/-- A batch is applied from its end. -/
theorem update_addEvents (represents : Represents profiler.events []) (batch : List Entry) :
    let updated := (profiler.addEvents clock memory batch).update clock
    Represents updated.events [] ∧
      updated.state.coroutinesCount =
        batch.foldr (fun entry => coroutineStep entry.type) profiler.state.coroutinesCount ∧
      updated.state.threads =
        batch.foldr (fun entry => threadStep entry.key) profiler.state.threads := by
  obtain ⟨events, added, keys, same⟩ := represents_addEvents represents batch
  rw [List.nil_append] at added
  refine ⟨represents_update added, ?_, ?_⟩
  · have types : events.map Event.type = batch.map Entry.type := by
      have firsts := congrArg (List.map Prod.fst) keys
      rwa [List.map_map, List.map_map] at firsts
    rw [update, newEvents_eq added, coroutinesCount_foldl, List.foldl_reverse, same]
    calc
      events.foldr (fun event => coroutineStep event.type) profiler.state.coroutinesCount =
          (events.map Event.type).foldr coroutineStep profiler.state.coroutinesCount :=
        List.foldr_map.symm
      _ = batch.foldr (fun entry => coroutineStep entry.type) profiler.state.coroutinesCount := by
        rw [types, List.foldr_map]
  · rw [update, newEvents_eq added, threads_foldl, List.foldl_reverse, same]
    calc
      events.foldr (fun event => threadStep event.key) profiler.state.threads =
          (events.map Event.key).foldr threadStep profiler.state.threads :=
        List.foldr_map.symm
      _ = batch.foldr (fun entry => threadStep entry.key) profiler.state.threads := by
        rw [keys, List.foldr_map]

theorem observe_concat (clock : ℕ → ℤ) (memory : ℕ → ℤ → Event) (batches : List (List Entry))
    (batch : List Entry) :
    observe clock memory (batches ++ [batch]) =
      ((observe clock memory batches).addEvents clock memory batch).update clock := by
  rw [observe, List.foldl_concat]
  rfl

/-- Nothing is left in the queue behind a batch. -/
theorem represents_observe (clock : ℕ → ℤ) (memory : ℕ → ℤ → Event)
    (batches : List (List Entry)) : Represents (observe clock memory batches).events [] := by
  induction batches using List.reverseRecOn with
  | nil => exact represents_create 11 _
  | append_singleton batches batch inductionHypothesis =>
      rw [observe_concat]
      exact (update_addEvents inductionHypothesis batch).1

theorem coroutinesCount_observe (clock : ℕ → ℤ) (memory : ℕ → ℤ → Event)
    (batches : List (List Entry)) (batch : List Entry) :
    (observe clock memory (batches ++ [batch])).state.coroutinesCount =
      batch.foldr (fun entry => coroutineStep entry.type)
        (observe clock memory batches).state.coroutinesCount := by
  rw [observe_concat]
  exact (update_addEvents (represents_observe clock memory batches) batch).2.1

theorem threads_observe (clock : ℕ → ℤ) (memory : ℕ → ℤ → Event)
    (batches : List (List Entry)) (batch : List Entry) :
    (observe clock memory (batches ++ [batch])).state.threads =
      batch.foldr (fun entry => threadStep entry.key)
        (observe clock memory batches).state.threads := by
  rw [observe_concat]
  exact (update_addEvents (represents_observe clock memory batches) batch).2.2

end Profiler

/-! ## The counter -/

theorem coroutineBalance_append (before behind : List Entry) :
    coroutineBalance (before ++ behind) = coroutineBalance before + coroutineBalance behind := by
  simp only [coroutineBalance, List.countP_append, Nat.cast_add]
  ring

theorem coroutineBalance_nil : coroutineBalance [] = 0 :=
  rfl

theorem coroutineBalance_cons (entry : Entry) (entries : List Entry) :
    coroutineBalance (entry :: entries) = coroutineBalance [entry] + coroutineBalance entries :=
  coroutineBalance_append [entry] entries

theorem coroutineStep_eq {count : ℤ} (nonneg : 0 ≤ count) (entry : Entry) :
    coroutineStep entry.type count = max 0 (count + coroutineBalance [entry]) := by
  rw [coroutineBalance, List.countP_singleton, List.countP_singleton]
  cases entry.type with
  | newCoroutine =>
      simp only [coroutineStep, decide_true, if_true, reduceCtorEq, decide_false,
        Bool.false_eq_true, if_false]
      omega
  | deleteCoroutine =>
      simp only [coroutineStep, decide_true, if_true, reduceCtorEq, decide_false,
        Bool.false_eq_true, if_false]
      omega
  | _ =>
      simp only [coroutineStep, reduceCtorEq, decide_false, Bool.false_eq_true, if_false]
      omega

/--
Applied from its end, a batch brings the counter to the largest of its balance on top of
the count and the balances of its beginnings.
-/
theorem foldr_coroutineStep (batch : List Entry) {count : ℤ} (nonneg : 0 ≤ count) :
    0 ≤ batch.foldr (fun entry => coroutineStep entry.type) count ∧
      ∀ limit, batch.foldr (fun entry => coroutineStep entry.type) count ≤ limit ↔
        count + coroutineBalance batch ≤ limit ∧
          ∀ start, start <+: batch → coroutineBalance start ≤ limit := by
  induction batch with
  | nil =>
      refine ⟨nonneg, fun limit => ?_⟩
      simp only [List.foldr_nil, List.prefix_nil, forall_eq, coroutineBalance_nil]
      omega
  | cons entry batch inductionHypothesis =>
      obtain ⟨later, least⟩ := inductionHypothesis
      rw [List.foldr_cons, coroutineStep_eq later]
      refine ⟨le_max_left _ _, fun limit => ?_⟩
      rw [max_le_iff, ← le_sub_iff_add_le, least, coroutineBalance_cons entry batch]
      constructor
      · rintro ⟨zero, whole, starts⟩
        refine ⟨by omega, fun start started => ?_⟩
        rcases List.prefix_cons_iff.mp started with rfl | ⟨rest, rfl, before⟩
        · exact zero
        · have bound := starts rest before
          rw [coroutineBalance_cons entry rest]
          omega
      · rintro ⟨whole, starts⟩
        refine ⟨starts [] List.nil_prefix, by omega, fun start started => ?_⟩
        have bound := starts (entry :: start) (List.cons_prefix_cons.mpr ⟨rfl, started⟩)
        rw [coroutineBalance_cons entry start] at bound
        omega

namespace Profiler

/-- The counter is never below the balance of the entries. -/
theorem balance_le_observe (clock : ℕ → ℤ) (memory : ℕ → ℤ → Event)
    (batches : List (List Entry)) :
    0 ≤ (observe clock memory batches).state.coroutinesCount ∧
      coroutineBalance batches.flatten ≤
        (observe clock memory batches).state.coroutinesCount := by
  induction batches using List.reverseRecOn with
  | nil => exact ⟨le_refl 0, le_refl 0⟩
  | append_singleton batches batch inductionHypothesis =>
      obtain ⟨nonneg, below⟩ := inductionHypothesis
      obtain ⟨later, least⟩ := foldr_coroutineStep batch nonneg
      rw [coroutinesCount_observe, List.flatten_concat, coroutineBalance_append]
      refine ⟨later, ?_⟩
      have whole := ((least _).mp le_rfl).1
      omega

/-- No beginning of a batch has a larger balance than the entries up to its end. -/
def NoPeak (earlier : List (List Entry)) (batch : List Entry) : Prop :=
  ∀ start, start <+: batch →
    coroutineBalance start ≤ coroutineBalance (earlier ++ [batch]).flatten

theorem coroutinesCount_observe_iff (clock : ℕ → ℤ) (memory : ℕ → ℤ → Event)
    (batches : List (List Entry)) :
    (observe clock memory batches).state.coroutinesCount = coroutineBalance batches.flatten ↔
      EachStep NoPeak batches := by
  refine @iff_eachStep _ _ (fun batches =>
    (observe clock memory batches).state.coroutinesCount = coroutineBalance batches.flatten)
    rfl (fun batches batch => ?_) batches
  obtain ⟨nonneg, below⟩ := balance_le_observe clock memory batches
  obtain ⟨-, above⟩ := balance_le_observe clock memory (batches ++ [batch])
  rw [← above.ge_iff_eq', coroutinesCount_observe, (foldr_coroutineStep batch nonneg).2,
    NoPeak, List.flatten_concat, coroutineBalance_append, add_le_add_iff_right,
    below.ge_iff_eq']

end Profiler

/-! ## The threads -/

theorem threadBalance_append (thread : ℕ) (before behind : List Entry) :
    threadBalance thread (before ++ behind) =
      threadBalance thread before + threadBalance thread behind := by
  simp only [threadBalance, List.countP_append, Nat.cast_add]
  ring

theorem threadBalance_nil (thread : ℕ) : threadBalance thread [] = 0 :=
  rfl

theorem threadBalance_cons (thread : ℕ) (entry : Entry) (entries : List Entry) :
    threadBalance thread (entry :: entries) =
      threadBalance thread [entry] + threadBalance thread entries :=
  threadBalance_append thread [entry] entries

theorem threadBalance_singleton (thread : ℕ) (entry : Entry) :
    threadBalance thread [entry] =
      (if entry.creates thread then 1 else 0) - if entry.deletes thread then 1 else 0 := by
  rw [threadBalance, List.countP_singleton, List.countP_singleton, Nat.cast_ite, Nat.cast_ite]
  rfl

theorem not_creates_of_deletes {thread : ℕ} {entry : Entry} (deletes : entry.deletes thread) :
    ¬ entry.creates thread := by
  rw [Entry.deletes, decide_eq_true_eq] at deletes
  rw [Entry.creates, decide_eq_true_eq, deletes.1]
  simp

theorem count_threadStep (thread : ℕ) (entry : Entry) (threads : List ℕ) :
    (threadStep entry.key threads).count thread =
      if entry.deletes thread then 0
      else threads.count thread + if entry.creates thread then 1 else 0 := by
  rw [threadStep, Entry.key, Entry.deletes, Entry.creates]
  cases entry.type with
  | newThread =>
      simp only [reduceCtorEq, false_and, decide_false, Bool.false_eq_true, if_false, true_and,
        decide_eq_true_eq, List.count_append, List.count_singleton, beq_iff_eq]
  | deleteThread =>
      simp only [reduceCtorEq, false_and, decide_false, Bool.false_eq_true, if_false, true_and,
        decide_eq_true_eq, add_zero]
      by_cases same : entry.thread = thread
      · rw [if_pos same, List.count_eq_zero]
        simp [same]
      · rw [if_neg same, List.count_filter]
        simpa using Ne.symm same
  | _ => simp

/--
In a batch that alternates, a deletion leaves the thread listed exactly if it was not
alive before.
-/
theorem count_foldr_threadStep (thread : ℕ) (batch : List Entry) (threads : List ℕ) {alive : ℤ}
    (alternates : ∀ start, start <+: batch →
      0 ≤ alive + threadBalance thread start ∧ alive + threadBalance thread start ≤ 1) :
    ((batch.foldr (fun entry => threadStep entry.key) threads).count thread : ℤ) =
      if batch.any (·.deletes thread) then 1 - alive
      else threads.count thread + threadBalance thread batch := by
  induction batch generalizing alive with
  | nil => simp [threadBalance_nil]
  | cons entry batch inductionHypothesis =>
      have first := threadBalance_singleton thread entry
      have before := alternates [] List.nil_prefix
      rw [threadBalance_nil] at before
      have behind := alternates [entry] (List.cons_prefix_cons.mpr ⟨rfl, List.nil_prefix⟩)
      have later := @inductionHypothesis (alive + threadBalance thread [entry]) (by
        intro start started
        have bound := alternates (entry :: start) (List.cons_prefix_cons.mpr ⟨rfl, started⟩)
        rw [threadBalance_cons thread entry start] at bound
        omega)
      rw [List.foldr_cons, count_threadStep, List.any_cons, threadBalance_cons thread entry batch]
      by_cases deletes : entry.deletes thread
      · rw [if_neg (not_creates_of_deletes deletes), if_pos deletes] at first
        rw [if_pos deletes, if_pos (by rw [deletes, Bool.true_or])]
        omega
      · rw [if_neg deletes] at first
        rw [if_neg deletes, Bool.eq_false_of_not_eq_true deletes, Bool.false_or, Nat.cast_add,
          later]
        by_cases creates : entry.creates thread
        · rw [if_pos creates] at first ⊢
          split <;> omega
        · rw [if_neg creates] at first ⊢
          split <;> omega

namespace Profiler

/-- The last batch that deletes the thread changes its balance. -/
def LastDeletionChanges (batches : List (List Entry)) (thread : ℕ) : Prop :=
  ∀ batch, batches.reverse.find? (·.any (·.deletes thread)) = some batch →
    threadBalance thread batch ≠ 0

theorem threads_observe_iff (clock : ℕ → ℤ) (memory : ℕ → ℤ → Event)
    {batches : List (List Entry)} (wellFormed : WellFormed batches.flatten) (thread : ℕ) :
    ((observe clock memory batches).state.threads.count thread : ℤ) =
        threadBalance thread batches.flatten ↔
      LastDeletionChanges batches thread := by
  induction batches using List.reverseRecOn with
  | nil => exact iff_of_true rfl fun batch found => by simp at found
  | append_singleton batches batch inductionHypothesis =>
      rw [List.flatten_concat] at wellFormed
      have earlier : WellFormed batches.flatten := fun start started =>
        wellFormed start (started.trans (List.prefix_append _ _))
      have alternates : ∀ start, start <+: batch →
          0 ≤ threadBalance thread batches.flatten + threadBalance thread start ∧
            threadBalance thread batches.flatten + threadBalance thread start ≤ 1 := by
        intro start started
        rw [← threadBalance_append]
        exact (wellFormed _ ((List.prefix_append_right_inj _).mpr started)).2 thread
      have before := alternates [] List.nil_prefix
      rw [threadBalance_nil] at before
      have behind := alternates batch (List.prefix_refl batch)
      rw [threads_observe, count_foldr_threadStep thread batch _ alternates, List.flatten_concat,
        threadBalance_append, LastDeletionChanges, List.reverse_concat, List.find?_cons]
      cases deletes : batch.any (·.deletes thread) with
      | true =>
          simp only [if_true, Option.some.injEq, forall_eq']
          omega
      | false =>
          simp only [Bool.false_eq_true, if_false, add_left_inj]
          exact inductionHypothesis earlier

/--
The state has the balances of well-formed entries exactly if no beginning of a batch has
a larger balance of coroutines than the entries up to the end of that batch, and for
each thread the last batch that deletes it changes its balance.
-/
theorem balanced_observe_iff (clock : ℕ → ℤ) (memory : ℕ → ℤ → Event)
    (batches : List (List Entry)) (wellFormed : WellFormed batches.flatten) :
    Balanced batches.flatten (observe clock memory batches).state ↔
      EachStep NoPeak batches ∧ ∀ thread, LastDeletionChanges batches thread := by
  rw [← coroutinesCount_observe_iff clock memory]
  constructor
  · rintro ⟨coroutines, threads⟩
    exact ⟨coroutines, fun thread =>
      (threads_observe_iff clock memory wellFormed thread).mp (threads thread)⟩
  · rintro ⟨coroutines, changes⟩
    exact ⟨coroutines, fun thread =>
      (threads_observe_iff clock memory wellFormed thread).mpr (changes thread)⟩

/-- A coroutine is created and deleted. -/
theorem wellFormed_pair :
    WellFormed [⟨1, .newCoroutine, 7, none⟩, ⟨1, .deleteCoroutine, 7, none⟩] := by
  intro start started
  rw [← List.mem_inits] at started
  simp only [List.inits, List.map_cons, List.map_nil, List.mem_cons, List.not_mem_nil, or_false]
    at started
  rcases started with rfl | rfl | rfl
  · exact ⟨by decide, fun thread => ⟨le_refl 0, zero_le_one⟩⟩
  · exact ⟨by decide, fun thread => ⟨le_refl 0, zero_le_one⟩⟩
  · exact ⟨by decide, fun thread => ⟨le_refl 0, zero_le_one⟩⟩

/-- With an update in between the coroutine is counted and forgotten. -/
theorem balanced_observe_iff_pair :
    Balanced [⟨1, .newCoroutine, 7, none⟩, ⟨1, .deleteCoroutine, 7, none⟩]
      (observe (fun readings => readings) (fun _ _ => ⟨0, .regAsyncFunction, 0, 0, 0⟩)
        [[⟨1, .newCoroutine, 7, none⟩], [⟨1, .deleteCoroutine, 7, none⟩]]).state := by
  refine (balanced_observe_iff _ _
    [[⟨1, .newCoroutine, 7, none⟩], [⟨1, .deleteCoroutine, 7, none⟩]] wellFormed_pair).mpr
    ⟨?_, fun thread batch found => ?_⟩
  · rw [← coroutinesCount_observe_iff (fun readings => readings)
      (fun _ _ => ⟨0, .regAsyncFunction, 0, 0, 0⟩)]
    rfl
  · exact absurd found (by simp [Entry.deletes])

/-- Without an update in between the same coroutine is counted for ever. -/
theorem observe_depends_on_batches :
    WellFormed [⟨1, .newCoroutine, 7, none⟩, ⟨1, .deleteCoroutine, 7, none⟩] ∧
      (observe (fun readings => readings) (fun _ _ => ⟨0, .regAsyncFunction, 0, 0, 0⟩)
        [[⟨1, .newCoroutine, 7, none⟩, ⟨1, .deleteCoroutine, 7, none⟩]]).state.coroutinesCount =
          1 ∧
      (observe (fun readings => readings) (fun _ _ => ⟨0, .regAsyncFunction, 0, 0, 0⟩)
        [[⟨1, .newCoroutine, 7, none⟩], [⟨1, .deleteCoroutine, 7, none⟩]]).state.coroutinesCount =
          0 :=
  ⟨wellFormed_pair, rfl, rfl⟩

end Profiler

end AsyncRuntime.Profiling
