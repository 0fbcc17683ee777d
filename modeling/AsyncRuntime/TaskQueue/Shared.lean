import AsyncRuntime.Foundation.Holdings
import AsyncRuntime.TaskQueue.Linearizability

/-!
# Queues that threads share under locks

Every queue has a lock.  A thread calls `push` or `pop` with the lock held and
`steal` without it, so that a queue has one owner at a time, although not always
the same.  Then nothing is lost: the items of all queues and those in the hands of
all threads change only by what comes in and what goes out.
-/

namespace AsyncRuntime.TaskQueue

open AsyncRuntime.Foundation
open AsyncRuntime.Foundation.StealingDeque (OwnerPhase ThiefPhase OwnerMove ThiefMove goods)

universe u v w

variable {Queue : Type u} {Thread : Type v} {Item : Type w}

/-- What a thread has to do with the queues. -/
inductive Handling (Queue : Type u) (Item : Type w) where
  | free (hand : Option Item)
  | owns (queue : Queue) (pc : OwnerPc Item)
  | holds (queue : Queue)
  | steals (queue : Queue) (pc : ThiefPc Item)

/-- The queue whose lock the thread has. -/
def Handling.locked : Handling Queue Item → Option Queue
  | .owns queue _ => some queue
  | .holds queue => some queue
  | _ => none

/-- The queue that the thread uses. -/
def Handling.queue : Handling Queue Item → Option Queue
  | .free _ => none
  | .owns queue _ => some queue
  | .holds queue => some queue
  | .steals queue _ => some queue

/-- The item in the hands of the thread. -/
def Handling.hand (levels : Queue → Level Item) : Handling Queue Item → Option Item
  | .free hand => hand
  | .owns queue pc => (ownerPhase (levels queue) pc).held
  | .holds _ => none
  | .steals _ pc => pc.phase.held

/-- The queues, their locks and the threads. -/
structure Shared (Queue : Type u) (Thread : Type v) (Item : Type w) where
  levels : Queue → Level Item
  locked : Queue → Bool
  threads : Thread → Handling Queue Item

namespace Shared

/-- One thread is somewhere else. -/
def place [DecidableEq Thread] (state : Shared Queue Thread Item) (thread : Thread)
    (handling : Handling Queue Item) : Shared Queue Thread Item :=
  { state with threads := Function.update state.threads thread handling }

/-- One queue has been changed. -/
def change [DecidableEq Queue] (state : Shared Queue Thread Item) (queue : Queue)
    (level : Level Item) : Shared Queue Thread Item :=
  { state with levels := Function.update state.levels queue level }

/-- One lock has been taken or given back. -/
def setLock [DecidableEq Queue] (state : Shared Queue Thread Item) (queue : Queue)
    (value : Bool) : Shared Queue Thread Item :=
  { state with locked := Function.update state.locked queue value }

end Shared

/--
What a thread does with the queues in use, with what it gets from somewhere else and
gives away.
-/
inductive SharedStep [DecidableEq Queue] [DecidableEq Thread] (used : Queue → Prop)
    (state : Shared Queue Thread Item) :
    Multiset Item → Multiset Item → Shared Queue Thread Item → Prop where
  | stays : SharedStep used state 0 0 state
  | gets {thread : Thread} {item : Item} (empty : state.threads thread = .free none) :
      SharedStep used state {item} 0 (state.place thread (.free (some item)))
  | gives {thread : Thread} {item : Item} (full : state.threads thread = .free (some item)) :
      SharedStep used state 0 {item} (state.place thread (.free none))
  | pushes {thread : Thread} {queue : Queue} {item : Item}
      (known : used queue) (unlocked : state.locked queue = false)
      (full : state.threads thread = .free (some item)) :
      SharedStep used state 0 0
        ((state.setLock queue true).place thread (.owns queue (.pushLoadBottom item)))
  | pops {thread : Thread} {queue : Queue} (known : used queue)
      (unlocked : state.locked queue = false) (empty : state.threads thread = .free none) :
      SharedStep used state 0 0
        ((state.setLock queue true).place thread (.owns queue .popLoadBottom))
  | owner {thread : Thread} {queue : Queue} {pc : OwnerPc Item}
      (inside : state.threads thread = .owns queue pc) (busy : ∀ result, pc ≠ .idle result) :
      SharedStep used state 0 0
        ((state.change queue (ownerStep (state.levels queue) pc).1).place thread
          (.owns queue (ownerStep (state.levels queue) pc).2))
  | settles {thread : Thread} {queue : Queue}
      (pushed : state.threads thread = .owns queue (.idle none)) :
      SharedStep used state 0 0 (state.place thread (.holds queue))
  | returns {thread : Thread} {queue : Queue} {result : Option Item}
      (popped : state.threads thread = .owns queue (.idle result)) :
      SharedStep used state 0 0 ((state.setLock queue false).place thread (.free result))
  | movesOn {thread : Thread} {queue other : Queue} (known : used other)
      (popped : state.threads thread = .owns queue (.idle none)) :
      SharedStep used state 0 0
        ((state.setLock queue false).place thread (.steals other .loadTop))
  | unlocks {thread : Thread} {queue : Queue} (holding : state.threads thread = .holds queue) :
      SharedStep used state 0 0 ((state.setLock queue false).place thread (.free none))
  | steals {thread : Thread} {queue : Queue} (known : used queue)
      (empty : state.threads thread = .free none) :
      SharedStep used state 0 0 (state.place thread (.steals queue .loadTop))
  | thief {thread : Thread} {queue : Queue} {pc : ThiefPc Item}
      (stealing : state.threads thread = .steals queue pc)
      (busy : ∀ result, pc ≠ .idle result) :
      SharedStep used state 0 0
        ((state.change queue (thiefStep (state.levels queue) pc).1).place thread
          (.steals queue (thiefStep (state.levels queue) pc).2))
  | stole {thread : Thread} {queue : Queue} {result : Option Item}
      (stolen : state.threads thread = .steals queue (.idle result)) :
      SharedStep used state 0 0 (state.place thread (.free result))

/-! ## Mutual exclusion -/

/-- A lock is taken exactly when some thread has it, and then only one has. -/
structure Exclusive (state : Shared Queue Thread Item) : Prop where
  unique :
    ∀ queue first second, (state.threads first).locked = some queue →
      (state.threads second).locked = some queue → first = second
  locked_iff :
    ∀ queue, state.locked queue = true ↔
      ∃ thread, (state.threads thread).locked = some queue

section Exclusion

variable [DecidableEq Queue] [DecidableEq Thread] {used : Queue → Prop}
  {state target : Shared Queue Thread Item}

omit [DecidableEq Queue] in
/-- A thread moves and keeps its lock. -/
theorem Exclusive.keep (exclusive : Exclusive state) {thread : Thread}
    {handling : Handling Queue Item} (levels : Queue → Level Item)
    (same : handling.locked = (state.threads thread).locked) :
    Exclusive { state.place thread handling with levels := levels } := by
  have locked_eq : ∀ other,
      (Function.update state.threads thread handling other).locked =
        (state.threads other).locked := by
    intro other
    rcases eq_or_ne other thread with rfl | elsewhere
    · rw [Function.update_self, same]
    · rw [Function.update_of_ne elsewhere]
  refine ⟨?_, ?_⟩
  · intro queue first second
    simp only [Shared.place, locked_eq]
    exact exclusive.unique queue first second
  · intro queue
    simp only [Shared.place, locked_eq]
    exact exclusive.locked_iff queue

/-- A thread takes a lock that is free. -/
theorem Exclusive.lock (exclusive : Exclusive state) {thread : Thread} {queue : Queue}
    {handling : Handling Queue Item} (unlocked : state.locked queue = false)
    (without : (state.threads thread).locked = none) (takes : handling.locked = some queue) :
    Exclusive ((state.setLock queue true).place thread handling) := by
  have nobody : ∀ other, (state.threads other).locked ≠ some queue := by
    intro other has
    have locked := (exclusive.locked_iff queue).mpr ⟨other, has⟩
    rw [unlocked] at locked
    cases locked
  refine ⟨?_, ?_⟩
  · intro other first second
    simp only [Shared.place, Shared.setLock]
    rcases eq_or_ne first thread with rfl | firstElsewhere
    · rcases eq_or_ne second first with rfl | secondElsewhere
      · exact fun _ _ => rfl
      · rw [Function.update_self, takes, Function.update_of_ne secondElsewhere]
        rintro ⟨⟩ has
        exact absurd has (nobody second)
    · rw [Function.update_of_ne firstElsewhere]
      rcases eq_or_ne second thread with rfl | secondElsewhere
      · rw [Function.update_self, takes]
        rintro has ⟨⟩
        exact absurd has (nobody first)
      · rw [Function.update_of_ne secondElsewhere]
        exact exclusive.unique other first second
  · intro other
    simp only [Shared.place, Shared.setLock]
    rcases eq_or_ne other queue with rfl | elsewhere
    · rw [Function.update_self]
      exact ⟨fun _ => ⟨thread, by rw [Function.update_self, takes]⟩, fun _ => rfl⟩
    · rw [Function.update_of_ne elsewhere, exclusive.locked_iff other]
      refine exists_congr fun holder => ?_
      rcases eq_or_ne holder thread with rfl | apart
      · rw [Function.update_self, takes, without]
        exact iff_of_false nofun fun same => elsewhere (Option.some.inj same).symm
      · rw [Function.update_of_ne apart]

/-- A thread gives its lock back. -/
theorem Exclusive.unlock (exclusive : Exclusive state) {thread : Thread} {queue : Queue}
    {handling : Handling Queue Item} (has : (state.threads thread).locked = some queue)
    (without : handling.locked = none) :
    Exclusive ((state.setLock queue false).place thread handling) := by
  refine ⟨?_, ?_⟩
  · intro other first second
    simp only [Shared.place, Shared.setLock]
    rcases eq_or_ne first thread with rfl | firstElsewhere
    · rw [Function.update_self, without]
      exact nofun
    · rcases eq_or_ne second thread with rfl | secondElsewhere
      · rw [Function.update_self, without]
        exact fun _ => nofun
      · rw [Function.update_of_ne firstElsewhere, Function.update_of_ne secondElsewhere]
        exact exclusive.unique other first second
  · intro other
    simp only [Shared.place, Shared.setLock]
    rcases eq_or_ne other queue with rfl | elsewhere
    · rw [Function.update_self]
      refine ⟨nofun, ?_⟩
      rintro ⟨holder, holds⟩
      rcases eq_or_ne holder thread with rfl | apart
      · rw [Function.update_self, without] at holds
        cases holds
      · rw [Function.update_of_ne apart] at holds
        exact absurd (exclusive.unique other _ _ holds has) apart
    · rw [Function.update_of_ne elsewhere, exclusive.locked_iff other]
      refine exists_congr fun holder => ?_
      rcases eq_or_ne holder thread with rfl | apart
      · rw [Function.update_self, without, has]
        exact iff_of_false (fun same => elsewhere (Option.some.inj same).symm) nofun
      · rw [Function.update_of_ne apart]

theorem SharedStep.exclusive {arrives leaves : Multiset Item}
    (step : SharedStep used state arrives leaves target) (exclusive : Exclusive state) :
    Exclusive target := by
  cases step with
  | stays => exact exclusive
  | gets empty => exact exclusive.keep state.levels (by rw [empty]; rfl)
  | gives full => exact exclusive.keep state.levels (by rw [full]; rfl)
  | pushes known unlocked full => exact exclusive.lock unlocked (by rw [full]; rfl) rfl
  | pops known unlocked empty => exact exclusive.lock unlocked (by rw [empty]; rfl) rfl
  | owner inside busy => exact exclusive.keep _ (by rw [inside]; rfl)
  | settles pushed => exact exclusive.keep state.levels (by rw [pushed]; rfl)
  | returns popped => exact exclusive.unlock (by rw [popped]; rfl) rfl
  | movesOn known popped => exact exclusive.unlock (by rw [popped]; rfl) rfl
  | unlocks holding => exact exclusive.unlock (by rw [holding]; rfl) rfl
  | steals known empty => exact exclusive.keep state.levels (by rw [empty]; rfl)
  | thief stealing busy => exact exclusive.keep _ (by rw [stealing]; rfl)
  | stole stolen => exact exclusive.keep state.levels (by rw [stolen]; rfl)

end Exclusion

/-! ## The contents of the queues -/

/-- The owner is outside, or has only been called. -/
def OwnerPc.resting : OwnerPc Item → Bool
  | .idle _ => true
  | .pushLoadBottom _ => true
  | .popLoadBottom => true
  | _ => false

section Resting

variable {level : Level Item} {pc after : OwnerPc Item}

theorem stealBound_of_resting (resting : pc.resting = true) :
    stealBound level pc = level.bottom := by
  cases pc <;> first | rfl | cases resting

theorem unpublished_of_resting (resting : pc.resting = true) : pc.unpublished = none := by
  cases pc <;> first | rfl | cases resting

theorem logicalBottom_of_resting (resting : pc.resting = true) :
    logicalBottom level pc = level.bottom := by
  cases pc <;> first | rfl | cases resting

theorem ownerInv_of_resting (resting : pc.resting = true) : OwnerInv level pc := by
  cases pc <;> trivial

/-- A call changes nothing yet. -/
theorem LevelInv.of_resting (invariant : LevelInv level pc) (before : pc.resting = true)
    (resting : after.resting = true) : LevelInv level after := by
  obtain ⟨top_nonneg, top_le, fits, array_lt, power, -⟩ := invariant
  rw [logicalBottom_of_resting before] at top_le fits
  refine ⟨top_nonneg, ?_, ?_, array_lt, power, ownerInv_of_resting resting⟩
  · rwa [logicalBottom_of_resting resting]
  · rwa [logicalBottom_of_resting resting]

theorem ThiefInv.of_resting {thief : ThiefPc Item} (invariant : ThiefInv level pc thief)
    (before : pc.resting = true) (resting : after.resting = true) :
    ThiefInv level after thief := by
  refine invariant.frame (.of_bound rfl rfl rfl rfl ?_ ?_)
  · rw [unpublished_of_resting before, unpublished_of_resting resting]
  · rw [stealBound_of_resting before, stealBound_of_resting resting]
    exact id

theorem stored_of_resting (before : pc.resting = true) (resting : after.resting = true) :
    stored level after = stored level pc := by
  rw [stored, stored, stealBound_of_resting before, stealBound_of_resting resting]

end Resting

/-- Every queue holds its items, with an owner that is inside or that has left. -/
structure Kept (levels : Queue → Level Item) (threads : Thread → Handling Queue Item)
    (owners : Queue → OwnerPc Item) (items : Queue → List Item) : Prop where
  owner : ∀ thread queue pc, threads thread = .owns queue pc → owners queue = pc
  outside :
    ∀ queue, (∀ thread pc, threads thread ≠ .owns queue pc) →
      ∃ result, owners queue = .idle result
  level : ∀ queue, LevelInv (levels queue) (owners queue)
  thief :
    ∀ thread queue pc, threads thread = .steals queue pc →
      ThiefInv (levels queue) (owners queue) pc
  held : ∀ queue, (items queue).map some = stored (levels queue) (owners queue)

section Keeping

variable [DecidableEq Queue] [DecidableEq Thread] {levels : Queue → Level Item}
  {threads : Thread → Handling Queue Item} {owners : Queue → OwnerPc Item}
  {items : Queue → List Item}

omit [DecidableEq Queue] in
/-- A thread goes on without a step of a queue. -/
theorem Kept.place (kept : Kept levels threads owners items) {thread : Thread}
    {handling : Handling Queue Item}
    (owner : ∀ queue pc, handling = .owns queue pc → owners queue = pc)
    (leaves : ∀ queue pc, threads thread = .owns queue pc →
      ∃ result, owners queue = .idle result)
    (thief : ∀ queue pc, handling = .steals queue pc →
      ThiefInv (levels queue) (owners queue) pc) :
    Kept levels (Function.update threads thread handling) owners items := by
  refine ⟨?_, ?_, kept.level, ?_, kept.held⟩
  · intro other queue pc
    rcases eq_or_ne other thread with rfl | elsewhere
    · rw [Function.update_self]
      exact owner queue pc
    · rw [Function.update_of_ne elsewhere]
      exact kept.owner other queue pc
  · intro queue nobody
    by_cases inside : ∃ pc, threads thread = .owns queue pc
    · obtain ⟨pc, inside⟩ := inside
      exact leaves queue pc inside
    · refine kept.outside queue fun other pc owns => ?_
      rcases eq_or_ne other thread with rfl | elsewhere
      · exact inside ⟨pc, owns⟩
      · have still := nobody other pc
        rw [Function.update_of_ne elsewhere] at still
        exact still owns
  · intro other queue pc
    rcases eq_or_ne other thread with rfl | elsewhere
    · rw [Function.update_self]
      exact thief queue pc
    · rw [Function.update_of_ne elsewhere]
      exact kept.thief other queue pc

/-- A thread with the lock calls an operation of the owner. -/
theorem Kept.call (kept : Kept levels threads owners items) {thread : Thread} {queue : Queue}
    {pc : OwnerPc Item} (nobody : ∀ thread pc, threads thread ≠ .owns queue pc)
    (without : ∀ queue pc, threads thread ≠ .owns queue pc) (resting : pc.resting = true) :
    Kept levels (Function.update threads thread (.owns queue pc))
      (Function.update owners queue pc) items := by
  obtain ⟨result, idle⟩ := kept.outside queue nobody
  have before : (owners queue).resting = true := by rw [idle]; rfl
  refine ⟨?_, ?_, ?_, ?_, ?_⟩
  · intro other elsewhere inside owns
    rcases eq_or_ne other thread with rfl | apart
    · rw [Function.update_self] at owns
      cases owns
      exact Function.update_self _ _ _
    · rw [Function.update_of_ne apart] at owns
      have different : elsewhere ≠ queue := by
        rintro rfl
        exact nobody _ _ owns
      rw [Function.update_of_ne different]
      exact kept.owner other elsewhere inside owns
  · intro other left
    have different : other ≠ queue := by
      rintro rfl
      exact left thread pc (Function.update_self _ _ _)
    rw [Function.update_of_ne different]
    refine kept.outside other fun holder inside owns => ?_
    rcases eq_or_ne holder thread with rfl | apart
    · exact without other inside owns
    · have still := left holder inside
      rw [Function.update_of_ne apart] at still
      exact still owns
  · intro other
    rcases eq_or_ne other queue with rfl | elsewhere
    · rw [Function.update_self]
      exact (kept.level other).of_resting before resting
    · rw [Function.update_of_ne elsewhere]
      exact kept.level other
  · intro other stealing inside steals
    rcases eq_or_ne other thread with rfl | apart
    · rw [Function.update_self] at steals
      cases steals
    · rw [Function.update_of_ne apart] at steals
      have stale := kept.thief other stealing inside steals
      rcases eq_or_ne stealing queue with rfl | elsewhere
      · rw [Function.update_self]
        exact stale.of_resting before resting
      · rw [Function.update_of_ne elsewhere]
        exact stale
  · intro other
    rcases eq_or_ne other queue with rfl | elsewhere
    · rw [Function.update_self, stored_of_resting before resting]
      exact kept.held other
    · rw [Function.update_of_ne elsewhere]
      exact kept.held other

/-- The owner of a queue takes a step. -/
theorem Kept.owner_step (kept : Kept levels threads owners items) {thread : Thread}
    {queue : Queue} {pc : OwnerPc Item} (inside : threads thread = .owns queue pc)
    (unique : ∀ other pc, threads other = .owns queue pc → other = thread)
    {after : List Item}
    (held : after.map some =
      stored (ownerStep (levels queue) pc).1 (ownerStep (levels queue) pc).2) :
    Kept (Function.update levels queue (ownerStep (levels queue) pc).1)
      (Function.update threads thread (.owns queue (ownerStep (levels queue) pc).2))
      (Function.update owners queue (ownerStep (levels queue) pc).2)
      (Function.update items queue after) := by
  have owner_eq : owners queue = pc := kept.owner thread queue pc inside
  have invariant := kept.level queue
  rw [owner_eq] at invariant
  refine ⟨?_, ?_, ?_, ?_, ?_⟩
  · intro other elsewhere inner owns
    rcases eq_or_ne other thread with rfl | apart
    · rw [Function.update_self] at owns
      cases owns
      exact Function.update_self _ _ _
    · rw [Function.update_of_ne apart] at owns
      have different : elsewhere ≠ queue := by
        rintro rfl
        exact apart (unique other inner owns)
      rw [Function.update_of_ne different]
      exact kept.owner other elsewhere inner owns
  · intro other left
    have different : other ≠ queue := by
      rintro rfl
      exact left thread _ (Function.update_self _ _ _)
    rw [Function.update_of_ne different]
    refine kept.outside other fun holder inner owns => ?_
    rcases eq_or_ne holder thread with rfl | apart
    · rw [inside] at owns
      cases owns
      exact different rfl
    · have still := left holder inner
      rw [Function.update_of_ne apart] at still
      exact still owns
  · intro other
    rcases eq_or_ne other queue with rfl | elsewhere
    · rw [Function.update_self, Function.update_self]
      exact invariant.ownerStep
    · rw [Function.update_of_ne elsewhere, Function.update_of_ne elsewhere]
      exact kept.level other
  · intro other stealing inner steals
    rcases eq_or_ne other thread with rfl | apart
    · rw [Function.update_self] at steals
      cases steals
    · rw [Function.update_of_ne apart] at steals
      have stale := kept.thief other stealing inner steals
      rcases eq_or_ne stealing queue with rfl | elsewhere
      · rw [Function.update_self, Function.update_self]
        rw [owner_eq] at stale
        exact stale.frame invariant.ownerStep_frame
      · rw [Function.update_of_ne elsewhere, Function.update_of_ne elsewhere]
        exact stale
  · intro other
    rcases eq_or_ne other queue with rfl | elsewhere
    · rw [Function.update_self, Function.update_self, Function.update_self, held]
    · rw [Function.update_of_ne elsewhere, Function.update_of_ne elsewhere,
        Function.update_of_ne elsewhere]
      exact kept.held other

/-- A thief takes a step. -/
theorem Kept.thief_step (kept : Kept levels threads owners items) {thread : Thread}
    {queue : Queue} {pc : ThiefPc Item} (stealing : threads thread = .steals queue pc)
    {after : List Item}
    (held : after.map some = stored (thiefStep (levels queue) pc).1 (owners queue)) :
    Kept (Function.update levels queue (thiefStep (levels queue) pc).1)
      (Function.update threads thread (.steals queue (thiefStep (levels queue) pc).2))
      owners (Function.update items queue after) := by
  have invariant := kept.level queue
  have thief := kept.thief thread queue pc stealing
  refine ⟨?_, ?_, ?_, ?_, ?_⟩
  · intro other elsewhere inner owns
    rcases eq_or_ne other thread with rfl | apart
    · rw [Function.update_self] at owns
      cases owns
    · rw [Function.update_of_ne apart] at owns
      exact kept.owner other elsewhere inner owns
  · intro other left
    refine kept.outside other fun holder inner owns => ?_
    rcases eq_or_ne holder thread with rfl | apart
    · rw [stealing] at owns
      cases owns
    · have still := left holder inner
      rw [Function.update_of_ne apart] at still
      exact still owns
  · intro other
    rcases eq_or_ne other queue with rfl | elsewhere
    · rw [Function.update_self]
      exact invariant.thiefStep thief
    · rw [Function.update_of_ne elsewhere]
      exact kept.level other
  · intro other place inner steals
    rcases eq_or_ne other thread with rfl | apart
    · rw [Function.update_self] at steals
      cases steals
      rw [Function.update_self]
      exact thief.thiefStep invariant invariant.published
    · rw [Function.update_of_ne apart] at steals
      have stale := kept.thief other place inner steals
      rcases eq_or_ne place queue with rfl | elsewhere
      · rw [Function.update_self]
        exact stale.frame (LevelInv.thiefStep_frame pc)
      · rw [Function.update_of_ne elsewhere]
        exact stale
  · intro other
    rcases eq_or_ne other queue with rfl | elsewhere
    · rw [Function.update_self, Function.update_self, held]
    · rw [Function.update_of_ne elsewhere, Function.update_of_ne elsewhere]
      exact kept.held other

end Keeping

/-! ## The balance -/

/-- What every queue and every thread has. -/
def shares (levels : Queue → Level Item) (threads : Thread → Handling Queue Item)
    (items : Queue → List Item) : Queue ⊕ Thread → Multiset Item :=
  Sum.elim (fun queue => (items queue : Multiset Item))
    fun thread => goods ((threads thread).hand levels)

/-- The locks, the queues and what all of them and all threads have together. -/
def Settled (state : Shared Queue Thread Item) (total : Multiset Item) : Prop :=
  Exclusive state ∧
    ∃ owners items, Kept state.levels state.threads owners items ∧
      Holdings (shares state.levels state.threads items) total

section Balance

variable [DecidableEq Queue] [DecidableEq Thread]

omit [DecidableEq Queue] [DecidableEq Thread] in
/-- Only what a thread that is inside a queue reads there counts. -/
theorem hand_congr {levels after : Queue → Level Item} {handling : Handling Queue Item}
    (same : ∀ queue pc, handling = .owns queue pc →
      ownerPhase (after queue) pc = ownerPhase (levels queue) pc) :
    handling.hand after = handling.hand levels := by
  cases handling with
  | owns queue pc => exact congrArg OwnerPhase.held (same queue pc rfl)
  | free hand => rfl
  | holds queue => rfl
  | steals queue pc => rfl

variable {levels : Queue → Level Item} {threads : Thread → Handling Queue Item}
  {items : Queue → List Item} {thread : Thread} {handling : Handling Queue Item}

theorem shares_place :
    shares levels (Function.update threads thread handling) items =
      Function.update (shares levels threads items) (.inr thread)
        (goods (handling.hand levels)) := by
  funext place
  cases place with
  | inl queue => rfl
  | inr other =>
      rcases eq_or_ne other thread with rfl | apart
      · rw [Function.update_self, shares, Sum.elim_inr, Function.update_self]
      · rw [Function.update_of_ne (Sum.inr_injective.ne apart), shares, Sum.elim_inr,
          Function.update_of_ne apart]
        rfl

theorem shares_change {queue : Queue} {level : Level Item} {after : List Item}
    (others : ∀ other, other ≠ thread →
      (threads other).hand (Function.update levels queue level) = (threads other).hand levels) :
    shares (Function.update levels queue level) (Function.update threads thread handling)
        (Function.update items queue after) =
      Function.update
        (Function.update (shares levels threads items) (.inl queue) (after : Multiset Item))
        (.inr thread) (goods (handling.hand (Function.update levels queue level))) := by
  funext place
  cases place with
  | inl other =>
      rw [Function.update_of_ne Sum.inl_ne_inr, shares, Sum.elim_inl]
      rcases eq_or_ne other queue with rfl | elsewhere
      · rw [Function.update_self, Function.update_self]
      · rw [Function.update_of_ne elsewhere,
          Function.update_of_ne (Sum.inl_injective.ne elsewhere)]
        rfl
  | inr other =>
      rw [shares, Sum.elim_inr]
      rcases eq_or_ne other thread with rfl | apart
      · rw [Function.update_self, Function.update_self]
      · rw [Function.update_of_ne apart, Function.update_of_ne (Sum.inr_injective.ne apart),
          Function.update_of_ne Sum.inr_ne_inl, others other apart]
        rfl

variable {used : Queue → Prop} {state target : Shared Queue Thread Item}
  {total arrives leaves : Multiset Item}

/-- A thread goes on without a step of a queue. -/
theorem Settled.place (settled : Settled state total) {locked : Queue → Bool}
    (exclusive : Exclusive { state.place thread handling with locked := locked })
    (owner : ∀ queue pc, handling ≠ .owns queue pc)
    (returned : ∀ queue pc, state.threads thread = .owns queue pc → ∃ result, pc = .idle result)
    (thief : ∀ queue pc, handling = .steals queue pc → pc = .loadTop)
    (balance : goods (handling.hand state.levels) + leaves =
      goods ((state.threads thread).hand state.levels) + arrives) :
    ∃ next, Settled { state.place thread handling with locked := locked } next ∧
      next + leaves = total + arrives := by
  obtain ⟨-, owners, items, kept, holdings⟩ := settled
  obtain ⟨next, changed, next_eq⟩ :=
    @Holdings.change _ _ _ _ _ _ holdings (.inr thread) _ arrives leaves balance
  refine ⟨next, ⟨exclusive, owners, items, ?_, ?_⟩, next_eq⟩
  · refine kept.place (fun queue pc owns => absurd owns (owner queue pc)) ?_ ?_
    · intro queue pc inside
      rw [kept.owner thread queue pc inside]
      exact returned queue pc inside
    · rintro queue pc steals
      rw [thief queue pc steals]
      trivial
  · rw [Shared.place, shares_place]
    exact changed

/-- A thread takes a lock for an operation of the owner. -/
theorem Settled.call (settled : Settled state total) {queue : Queue} {pc : OwnerPc Item}
    (unlocked : state.locked queue = false) (without : (state.threads thread).locked = none)
    (resting : pc.resting = true)
    (same : (ownerPhase (state.levels queue) pc).held =
      (state.threads thread).hand state.levels) :
    Settled ((state.setLock queue true).place thread (.owns queue pc)) total := by
  obtain ⟨exclusive, owners, items, kept, holdings⟩ := settled
  have nobody : ∀ other pc, state.threads other ≠ .owns queue pc := by
    intro other inside owns
    have locked := (exclusive.locked_iff queue).mpr ⟨other, by rw [owns]; rfl⟩
    rw [unlocked] at locked
    cases locked
  have free : ∀ queue pc, state.threads thread ≠ .owns queue pc := by
    intro queue pc owns
    rw [owns] at without
    cases without
  refine ⟨exclusive.lock unlocked without rfl, _, items, kept.call nobody free resting, ?_⟩
  rw [Shared.place, Shared.setLock, shares_place]
  exact holdings.keep (congrArg goods same)

theorem Settled.owner_step (settled : Settled state total) {queue : Queue}
    {pc : OwnerPc Item} (inside : state.threads thread = .owns queue pc)
    (busy : ∀ result, pc ≠ .idle result) :
    Settled
      ((state.change queue (ownerStep (state.levels queue) pc).1).place thread
        (.owns queue (ownerStep (state.levels queue) pc).2)) total := by
  obtain ⟨exclusive, owners, items, kept, holdings⟩ := settled
  have unique : ∀ other pc, state.threads other = .owns queue pc → other = thread := by
    intro other inner owns
    exact exclusive.unique queue other thread (by rw [owns]; rfl) (by rw [inside]; rfl)
  have invariant := kept.level queue
  have held := kept.held queue
  rw [kept.owner thread queue pc inside] at invariant held
  obtain ⟨after, after_held, move⟩ := ownerSimulated invariant busy held
  refine ⟨exclusive.keep _ (by rw [inside]; rfl), _, _,
    kept.owner_step inside unique after_held, ?_⟩
  have others : ∀ other, other ≠ thread →
      (state.threads other).hand
          (Function.update state.levels queue (ownerStep (state.levels queue) pc).1) =
        (state.threads other).hand state.levels := by
    intro other apart
    refine hand_congr fun elsewhere inner owns => ?_
    have different : elsewhere ≠ queue := by
      rintro rfl
      exact apart (unique other inner owns)
    rw [Function.update_of_ne different]
  rw [Shared.place, Shared.change, shares_change others]
  refine holdings.exchange Sum.inl_ne_inr ?_
  rw [shares, Sum.elim_inl, Sum.elim_inr, inside, Handling.hand, Handling.hand,
    Function.update_self]
  exact move.balance

theorem Settled.thief_step (settled : Settled state total) {queue : Queue}
    {pc : ThiefPc Item} (stealing : state.threads thread = .steals queue pc)
    (busy : ∀ result, pc ≠ .idle result) :
    Settled
      ((state.change queue (thiefStep (state.levels queue) pc).1).place thread
        (.steals queue (thiefStep (state.levels queue) pc).2)) total := by
  obtain ⟨exclusive, owners, items, kept, holdings⟩ := settled
  obtain ⟨after, after_held, move⟩ :=
    thiefSimulated (kept.thief thread queue pc stealing) busy (kept.held queue)
  refine ⟨exclusive.keep _ (by rw [stealing]; rfl), _, _,
    kept.thief_step stealing after_held, ?_⟩
  have others : ∀ other, other ≠ thread →
      (state.threads other).hand
          (Function.update state.levels queue (thiefStep (state.levels queue) pc).1) =
        (state.threads other).hand state.levels := by
    intro other apart
    refine hand_congr fun elsewhere inner owns => ?_
    rcases eq_or_ne elsewhere queue with rfl | different
    · rw [Function.update_self, ownerPhase_thiefStep]
    · rw [Function.update_of_ne different]
  rw [Shared.place, Shared.change, shares_change others]
  refine holdings.exchange Sum.inl_ne_inr ?_
  rw [shares, Sum.elim_inl, Sum.elim_inr, stealing]
  exact move.balance

/-- A step keeps the balance. -/
theorem SharedStep.settled (step : SharedStep used state arrives leaves target)
    (settled : Settled state total) :
    ∃ next, Settled target next ∧ next + leaves = total + arrives := by
  have exclusive := step.exclusive settled.1
  cases step with
  | stays => exact ⟨total, settled, rfl⟩
  | gets empty =>
      refine settled.place exclusive nofun ?_ nofun ?_
      · rw [empty]
        exact nofun
      · rw [empty]
        rfl
  | gives full =>
      refine settled.place exclusive nofun ?_ nofun ?_
      · rw [full]
        exact nofun
      · rw [full]
        rfl
  | pushes known unlocked full =>
      refine ⟨total, settled.call unlocked (by rw [full]; rfl) rfl ?_, rfl⟩
      rw [full]
      rfl
  | pops known unlocked empty =>
      refine ⟨total, settled.call unlocked (by rw [empty]; rfl) rfl ?_, rfl⟩
      rw [empty]
      rfl
  | owner inside busy => exact ⟨total, settled.owner_step inside busy, rfl⟩
  | settles pushed =>
      refine settled.place exclusive nofun ?_ nofun ?_
      · rw [pushed]
        rintro queue pc ⟨⟩
        exact ⟨_, rfl⟩
      · rw [pushed]
        rfl
  | returns popped =>
      refine settled.place exclusive nofun ?_ nofun ?_
      · rw [popped]
        rintro queue pc ⟨⟩
        exact ⟨_, rfl⟩
      · rw [popped]
        rfl
  | movesOn known popped =>
      refine settled.place exclusive nofun ?_ ?_ ?_
      · rw [popped]
        rintro queue pc ⟨⟩
        exact ⟨_, rfl⟩
      · rintro queue pc ⟨⟩
        rfl
      · rw [popped]
        rfl
  | unlocks holding =>
      refine settled.place exclusive nofun ?_ nofun ?_
      · rw [holding]
        exact nofun
      · rw [holding]
        rfl
  | steals known empty =>
      refine settled.place exclusive nofun ?_ ?_ ?_
      · rw [empty]
        exact nofun
      · rintro queue pc ⟨⟩
        rfl
      · rw [empty]
        rfl
  | thief stealing busy => exact ⟨total, settled.thief_step stealing busy, rfl⟩
  | stole stolen =>
      refine settled.place exclusive nofun ?_ nofun ?_
      · rw [stolen]
        exact nofun
      · rw [stolen]
        rfl

end Balance

/-! ## Queues that nobody uses -/

/-- The threads keep to the queues in use, and the others are empty. -/
structure Confined (used : Queue → Prop) (state : Shared Queue Thread Item) : Prop where
  inside : ∀ thread queue, (state.threads thread).queue = some queue → used queue
  unused :
    ∀ queue, ¬ used queue → (state.levels queue).top = (state.levels queue).bottom

section Confinement

variable [DecidableEq Queue] [DecidableEq Thread] {used : Queue → Prop}
  {state target : Shared Queue Thread Item} {thread : Thread} {handling : Handling Queue Item}

omit [DecidableEq Queue] in
theorem Confined.place (confined : Confined used state) (locked : Queue → Bool)
    (known : ∀ queue, handling.queue = some queue → used queue) :
    Confined used { state.place thread handling with locked := locked } := by
  refine ⟨?_, confined.unused⟩
  intro other queue
  simp only [Shared.place]
  rcases eq_or_ne other thread with rfl | apart
  · rw [Function.update_self]
    exact known queue
  · rw [Function.update_of_ne apart]
    exact confined.inside other queue

theorem Confined.change (confined : Confined used state) {queue : Queue} {level : Level Item}
    (here : (state.threads thread).queue = some queue) (same : handling.queue = some queue) :
    Confined used ((state.change queue level).place thread handling) := by
  have known : used queue := confined.inside thread queue here
  refine ⟨?_, ?_⟩
  · intro other elsewhere
    simp only [Shared.place, Shared.change]
    rcases eq_or_ne other thread with rfl | apart
    · rw [Function.update_self, same]
      rintro ⟨⟩
      exact known
    · rw [Function.update_of_ne apart]
      exact confined.inside other elsewhere
  · intro other unknown
    have different : other ≠ queue := by
      rintro rfl
      exact unknown known
    simp only [Shared.place, Shared.change]
    rw [Function.update_of_ne different]
    exact confined.unused other unknown

theorem SharedStep.confined {arrives leaves : Multiset Item}
    (step : SharedStep used state arrives leaves target) (confined : Confined used state) :
    Confined used target := by
  cases step with
  | stays => exact confined
  | gets empty => exact confined.place state.locked nofun
  | gives full => exact confined.place state.locked nofun
  | pushes known unlocked full =>
      refine confined.place _ ?_
      rintro queue ⟨⟩
      exact known
  | pops known unlocked empty =>
      refine confined.place _ ?_
      rintro queue ⟨⟩
      exact known
  | owner inside busy => exact confined.change (by rw [inside]; rfl) rfl
  | @settles thread queue pushed =>
      have known := confined.inside thread queue (by rw [pushed]; rfl)
      refine confined.place state.locked ?_
      rintro queue ⟨⟩
      exact known
  | returns popped => exact confined.place _ nofun
  | movesOn known popped =>
      refine confined.place _ ?_
      rintro queue ⟨⟩
      exact known
  | unlocks holding => exact confined.place _ nofun
  | steals known empty =>
      refine confined.place state.locked ?_
      rintro queue ⟨⟩
      exact known
  | thief stealing busy => exact confined.change (by rw [stealing]; rfl) rfl
  | stole stolen => exact confined.place state.locked nofun

end Confinement

/-! ## At rest -/

/-- The queue holds these items from `_top` on, and no others. -/
def Level.Holds (level : Level Item) (items : List Item) : Prop :=
  items.map some = span level.current.pop level.top level.bottom

theorem Level.Holds.eq_nil {level : Level Item} {items : List Item} (holds : level.Holds items)
    (empty : level.bottom ≤ level.top) : items = [] :=
  eq_nil_of_span empty holds

/-- When no thread has an item, all of them are in the queues. -/
theorem Settled.at_rest {state : Shared Queue Thread Item} {total : Multiset Item}
    (settled : Settled state total)
    (outside : ∀ thread queue pc, state.threads thread ≠ .owns queue pc)
    (empty : ∀ thread, (state.threads thread).hand state.levels = none) :
    ∃ items : Queue → List Item, (∀ queue, (state.levels queue).Holds (items queue)) ∧
      Holdings (fun queue => (items queue : Multiset Item)) total := by
  obtain ⟨-, owners, items, kept, holdings⟩ := settled
  refine ⟨items, ?_, ?_⟩
  · intro queue
    obtain ⟨result, idle⟩ := kept.outside queue fun thread => outside thread queue
    have held := kept.held queue
    rw [idle] at held
    exact held
  · refine holdings.left fun thread => ?_
    rw [shares, Sum.elim_inr, empty thread]
    rfl

/-- All queues are empty and all threads outside. -/
theorem Settled.initial {levels : Queue → Level Item} {locked : Queue → Bool}
    (unlocked : ∀ queue, locked queue = false)
    (empty : ∀ queue, LevelInv (levels queue) (.idle none) ∧
      (levels queue).top = (levels queue).bottom) :
    Settled (⟨levels, locked, fun _ => .free none⟩ : Shared Queue Thread Item) 0 := by
  refine ⟨⟨fun queue first second => nofun, ?_⟩, fun _ => .idle none, fun _ => [], ?_, ?_⟩
  · intro queue
    dsimp only
    rw [unlocked queue]
    refine ⟨nofun, ?_⟩
    rintro ⟨thread, has⟩
    cases has
  · refine ⟨nofun, fun _ _ => ⟨none, rfl⟩, fun queue => (empty queue).1, nofun, ?_⟩
    intro queue
    exact (span_of_le (empty queue).2.ge).symm
  · have nothing : shares levels (fun _ : Thread => .free none) (fun _ : Queue => []) =
        fun _ => 0 := by
      funext place
      cases place <;> rfl
    rw [nothing]
    exact holdings_zero

end AsyncRuntime.TaskQueue
