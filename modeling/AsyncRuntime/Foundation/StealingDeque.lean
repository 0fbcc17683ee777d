import AsyncRuntime.Foundation.Refinement
import Mathlib.Algebra.Order.Group.Multiset
import Mathlib.Data.List.Basic
import Mathlib.Logic.Function.Basic

/-!
# The atomic double-ended queue of one owner and many thieves

Every operation takes effect in one step somewhere between its call and its
return: `push` appends an item, `pop` takes the last item or reports that there
is none, and `steal` takes the first item or gives up, which it may do at any
time.  An observer sees the calls and what they return.
-/

namespace AsyncRuntime.Foundation.StealingDeque

universe u v

variable {Item : Type u} {Thief : Type v}

/-- Where the owner is: outside, before the effect of its operation, or after it. -/
inductive OwnerPhase (Item : Type u) where
  | idle (result : Option Item)
  | pushing (item : Item)
  | popping
  | done (result : Option Item)

/-- Where a thief is: outside, before the effect of its operation, or after it. -/
inductive ThiefPhase (Item : Type u) where
  | idle (result : Option Item)
  | stealing
  | done (result : Option Item)

/-- The items, oldest first, and the threads. -/
structure State (Item : Type u) (Thief : Type v) where
  items : List Item
  owner : OwnerPhase Item
  thieves : Thief → ThiefPhase Item

/-- The calls, the effects and the returns of the operations. -/
inductive Action (Item : Type u) (Thief : Type v) where
  | push (item : Item)
  | pop
  | effect
  | finish
  | steal (thief : Thief)
  | take (thief : Thief)
  | giveUp (thief : Thief)
  | leave (thief : Thief)

/-- What an observer sees. -/
inductive Event (Item : Type u) (Thief : Type v) where
  | push (item : Item)
  | pop
  | returned (result : Option Item)
  | steal (thief : Thief)
  | stole (thief : Thief) (result : Option Item)

namespace State

variable [DecidableEq Thief] (state : State Item Thief)

def setThief (thief : Thief) (phase : ThiefPhase Item) : State Item Thief :=
  { state with thieves := Function.update state.thieves thief phase }

/-- The effect of the owner's operation. -/
def effect : Option (State Item Thief) :=
  match state.owner with
  | .pushing item =>
      some { state with items := state.items ++ [item], owner := .done none }
  | .popping =>
      some
        { state with
          items := state.items.dropLast
          owner := .done state.items.getLast? }
  | _ => none

/-- The effect of a `steal` that takes the first item. -/
def take (thief : Thief) : Option (State Item Thief) :=
  match state.thieves thief, state.items with
  | .stealing, first :: rest =>
      some { state.setThief thief (.done (some first)) with items := rest }
  | _, _ => none

/-- One step. -/
def next : Action Item Thief → Option (State Item Thief)
  | .push item =>
      match state.owner with
      | .idle _ => some { state with owner := .pushing item }
      | _ => none
  | .pop =>
      match state.owner with
      | .idle _ => some { state with owner := .popping }
      | _ => none
  | .effect => state.effect
  | .finish =>
      match state.owner with
      | .done result => some { state with owner := .idle result }
      | _ => none
  | .steal thief =>
      match state.thieves thief with
      | .idle _ => some (state.setThief thief .stealing)
      | _ => none
  | .take thief => state.take thief
  | .giveUp thief =>
      match state.thieves thief with
      | .stealing => some (state.setThief thief (.done none))
      | _ => none
  | .leave thief =>
      match state.thieves thief with
      | .done result => some (state.setThief thief (.idle result))
      | _ => none

/-- What a step shows. -/
def shows : Action Item Thief → List (Event Item Thief)
  | .push item => [.push item]
  | .pop => [.pop]
  | .finish =>
      match state.owner with
      | .done result => [.returned result]
      | _ => []
  | .steal thief => [.steal thief]
  | .leave thief =>
      match state.thieves thief with
      | .done result => [.stole thief result]
      | _ => []
  | _ => []

end State

/-- The deque is empty and nobody uses it. -/
def State.initial : State Item Thief where
  items := []
  owner := .idle none
  thieves := fun _ => .idle none

/-- The deque as an observed system. -/
def system (Item : Type u) (Thief : Type v) [DecidableEq Thief] :
    ObservedSystem (State Item Thief) (Action Item Thief) (Event Item Thief) where
  initial := fun state => state = State.initial
  next := State.next
  shows := fun source action _ => source.shows action

/-! ## Moves of one thread -/

/-- What the owner can do on the way to its next event, with what it returns. -/
inductive OwnerMove : List Item → OwnerPhase Item → Option (Option Item) →
    List Item → OwnerPhase Item → Prop where
  | stays {items : List Item} {phase : OwnerPhase Item} :
      OwnerMove items phase none items phase
  | pushes {items : List Item} {item : Item} :
      OwnerMove items (.pushing item) (some none) (items ++ [item]) (.idle none)
  | pops {items : List Item} :
      OwnerMove items .popping none items.dropLast (.done items.getLast?)
  | finishes {items : List Item} {result : Option Item} :
      OwnerMove items (.done result) (some result) items (.idle result)

/-- The same for a thief, whose operation takes effect as it returns. -/
inductive ThiefMove : List Item → ThiefPhase Item → Option (Option Item) →
    List Item → ThiefPhase Item → Prop where
  | stays {items : List Item} {phase : ThiefPhase Item} :
      ThiefMove items phase none items phase
  | takes {item : Item} {items : List Item} :
      ThiefMove (item :: items) .stealing (some (some item)) items (.idle (some item))
  | givesUp {items : List Item} :
      ThiefMove items .stealing (some none) items (.idle none)

/-- The item that the owner has in its hands. -/
def OwnerPhase.held : OwnerPhase Item → Option Item
  | .idle result => result
  | .pushing item => some item
  | .popping => none
  | .done result => result

/-- The item that a thief has in its hands. -/
def ThiefPhase.held : ThiefPhase Item → Option Item
  | .idle result => result
  | .stealing => none
  | .done result => result

/-- At most one item. -/
def goods (hand : Option Item) : Multiset Item :=
  Multiset.ofList hand.toList

section Balance

variable {items after : List Item} {result : Option (Option Item)}

/-- The owner moves items between the deque and its hands. -/
theorem OwnerMove.balance {phase last : OwnerPhase Item}
    (move : OwnerMove items phase result after last) :
    (after : Multiset Item) + goods last.held = items + goods phase.held := by
  cases move with
  | stays => rfl
  | @pushes item => exact Multiset.add_zero _
  | pops =>
      rcases List.eq_nil_or_concat items with rfl | ⟨before, item, rfl⟩
      · rfl
      · rw [List.concat_eq_append, List.dropLast_concat, OwnerPhase.held,
          List.getLast?_concat]
        exact (Multiset.add_zero _).symm
  | finishes => rfl

/-- A thief moves items from the deque to its hands. -/
theorem ThiefMove.balance {phase last : ThiefPhase Item}
    (move : ThiefMove items phase result after last) :
    (after : Multiset Item) + goods last.held = items + goods phase.held := by
  cases move with
  | stays => rfl
  | @takes item =>
      rw [add_comm]
      exact (Multiset.add_zero _).symm
  | givesUp => rfl

end Balance

variable [DecidableEq Thief] {items after : List Item} {result : Option (Option Item)}

/-- A move of the owner as steps of the deque. -/
theorem OwnerMove.steps {phase last : OwnerPhase Item}
    (move : OwnerMove items phase result after last) (thieves : Thief → ThiefPhase Item) :
    (system Item Thief).Steps ⟨items, phase, thieves⟩ (result.toList.map .returned)
      ⟨after, last, thieves⟩ := by
  cases move with
  | stays => exact .done
  | @pushes item =>
      have effect : (system Item Thief).next ⟨items, .pushing item, thieves⟩ .effect =
        some ⟨items ++ [item], .done none, thieves⟩ := rfl
      have finish : (system Item Thief).next ⟨items ++ [item], .done none, thieves⟩ .finish =
        some ⟨items ++ [item], .idle none, thieves⟩ := rfl
      exact .step effect (.one finish)
  | pops =>
      have effect : (system Item Thief).next ⟨items, .popping, thieves⟩ .effect =
        some ⟨items.dropLast, .done items.getLast?, thieves⟩ := rfl
      exact .one effect
  | @finishes returned =>
      have finish : (system Item Thief).next ⟨items, .done returned, thieves⟩ .finish =
        some ⟨items, .idle returned, thieves⟩ := rfl
      exact .one finish

/-- A thief that has left. -/
theorem steps_leave {state : State Item Thief} {thief : Thief} {returned : Option Item}
    (done : state.thieves thief = .done returned) :
    (system Item Thief).Steps state [.stole thief returned]
      (state.setThief thief (.idle returned)) := by
  have leave : (system Item Thief).next state (.leave thief) =
      some (state.setThief thief (.idle returned)) := by
    simp only [system, State.next, done]
  have left := ObservedSystem.Steps.one leave
  simpa only [system, State.shows, done] using left

/-- A move of a thief as steps of the deque. -/
theorem ThiefMove.steps {owner : OwnerPhase Item} {thieves : Thief → ThiefPhase Item}
    {thief : Thief} {last : ThiefPhase Item}
    (move : ThiefMove items (thieves thief) result after last) :
    (system Item Thief).Steps ⟨items, owner, thieves⟩ (result.toList.map (.stole thief))
      ⟨after, owner, Function.update thieves thief last⟩ := by
  generalize phase_eq : thieves thief = phase at move
  cases move with
  | stays =>
      rw [← phase_eq, Function.update_eq_self]
      exact .done
  | @takes item =>
      have take : (system Item Thief).next ⟨item :: after, owner, thieves⟩ (.take thief) =
          some ⟨after, owner, Function.update thieves thief (.done (some item))⟩ := by
        simp only [system, State.next, State.take, phase_eq, State.setThief]
      refine .step take ?_
      have left := @steps_leave _ _ _
        ⟨after, owner, Function.update thieves thief (.done (some item))⟩ thief (some item)
        (Function.update_self _ _ _)
      rwa [State.setThief, Function.update_idem] at left
  | givesUp =>
      have giveUp : (system Item Thief).next ⟨items, owner, thieves⟩ (.giveUp thief) =
          some ⟨items, owner, Function.update thieves thief (.done none)⟩ := by
        simp only [system, State.next, phase_eq, State.setThief]
      refine .step giveUp ?_
      have left := @steps_leave _ _ _
        ⟨items, owner, Function.update thieves thief (.done none)⟩ thief none
        (Function.update_self _ _ _)
      rwa [State.setThief, Function.update_idem] at left

end AsyncRuntime.Foundation.StealingDeque
