import Mathlib.Order.Lattice
import Mathlib.Data.List.Basic

/-!
# Binary heaps whose comparator changes with time

A heap is kept in a list: the entry at `index` lies below the one at
`(index - 1) / 2`.  A hole is lifted towards the root until the value fits, and
before that, when the root is removed, it sinks along the smaller children to a
leaf.

The answer of the comparator depends on the moment at which it is asked, and
asking takes time.  The operations list the comparisons that they make, so that
a caller can say what is known about their answers: if none of them contradicts
the keys, the heap stays ordered by its keys.
-/

namespace AsyncRuntime.Foundation

universe u v w

/-- `after` tells at a moment whether the first item belongs below the second. -/
structure MovingComparator (Moment : Type u) (Item : Type v) where
  after : Moment → Item → Item → Bool
  tick : Moment → Moment

/-- A comparison that has been made. -/
structure Comparison (Moment : Type u) (Item : Type v) where
  moment : Moment
  first : Item
  second : Item

/-- A heap after an operation. -/
structure Sifted (Moment : Type u) (Item : Type v) where
  items : List Item
  moment : Moment
  made : List (Comparison Moment Item)

/-- A heap in which the hole has sunk. -/
structure Sunk (Moment : Type u) (Item : Type v) extends Sifted Moment Item where
  hole : ℕ

variable {Moment : Type u} {Item : Type v}

/-- One comparison more has been made before. -/
def Sifted.note (sifted : Sifted Moment Item) (comparison : Comparison Moment Item) :
    Sifted Moment Item :=
  { sifted with made := comparison :: sifted.made }

/-- One comparison more has been made before. -/
def Sunk.note (sunk : Sunk Moment Item) (comparison : Comparison Moment Item) :
    Sunk Moment Item :=
  { sunk with made := comparison :: sunk.made }

namespace MovingComparator

variable (comparator : MovingComparator Moment Item)

/-- Lift the hole until the value fits, and fill it. -/
def lift : ℕ → List Item → ℕ → Item → Moment → Sifted Moment Item
  | 0, items, hole, value, moment => ⟨items.set hole value, moment, []⟩
  | rounds + 1, items, hole, value, moment =>
      if hole = 0 then ⟨items.set hole value, moment, []⟩
      else
        match items[(hole - 1) / 2]? with
        | none => ⟨items.set hole value, moment, []⟩
        | some parent =>
            if comparator.after moment parent value then
              (lift rounds (items.set hole parent) ((hole - 1) / 2) value
                (comparator.tick moment)).note ⟨moment, parent, value⟩
            else
              ⟨items.set hole value, comparator.tick moment, [⟨moment, parent, value⟩]⟩

/-- Let the hole sink to a leaf, along the smaller children. -/
def sink (length : ℕ) : ℕ → List Item → ℕ → Moment → Sunk Moment Item
  | 0, items, hole, moment => ⟨⟨items, moment, []⟩, hole⟩
  | rounds + 1, items, hole, moment =>
      if hole < (length - 1) / 2 then
        match items[2 * hole + 2]?, items[2 * hole + 1]? with
        | some right, some left =>
            if comparator.after moment right left then
              (sink length rounds (items.set hole left) (2 * hole + 1)
                (comparator.tick moment)).note ⟨moment, right, left⟩
            else
              (sink length rounds (items.set hole right) (2 * hole + 2)
                (comparator.tick moment)).note ⟨moment, right, left⟩
        | _, _ => ⟨⟨items, moment, []⟩, hole⟩
      else if length % 2 = 0 ∧ hole = (length - 2) / 2 then
        -- The last parent has one child only.
        match items[2 * hole + 1]? with
        | none => ⟨⟨items, moment, []⟩, hole⟩
        | some left => ⟨⟨items.set hole left, moment, []⟩, 2 * hole + 1⟩
      else ⟨⟨items, moment, []⟩, hole⟩

/-- Add an item. -/
def push (items : List Item) (value : Item) (moment : Moment) : Sifted Moment Item :=
  comparator.lift items.length (items ++ [value]) items.length value moment

/-- Remove the root. -/
def pop (items : List Item) (moment : Moment) : Sifted Moment Item :=
  match items.getLast? with
  | none => ⟨[], moment, []⟩
  | some value =>
      let body := items.dropLast
      if body.length = 0 then ⟨[], moment, []⟩
      else
        let sunk := comparator.sink body.length body.length body 0 moment
        let lifted := comparator.lift sunk.hole sunk.items sunk.hole value sunk.moment
        { lifted with made := sunk.made ++ lifted.made }

end MovingComparator

/-! ## Order -/

section

variable {Key : Type w} [LinearOrder Key] (key : Item → Key)

/-- The entry at one place is not greater than the one at the other. -/
def InOrder (items : List Item) (upper lower : ℕ) : Prop :=
  ∀ first ∈ items[upper]?, ∀ second ∈ items[lower]?, key first ≤ key second

/-- Every entry is in order with the one above it. -/
def HeapOrder (items : List Item) : Prop :=
  ∀ index, 0 < index → InOrder key items ((index - 1) / 2) index

/-- The root is a smallest item. -/
theorem HeapOrder.root_least {items : List Item} (ordered : HeapOrder key items)
    {root : Item} (top : items[0]? = some root) {item : Item} (member : item ∈ items) :
    key root ≤ key item := by
  obtain ⟨index, found⟩ := List.getElem?_of_mem member
  clear member
  induction index using Nat.strongRecOn generalizing item with
  | ind index inductionHypothesis =>
      by_cases zero : index = 0
      · subst zero
        rw [top, Option.some.injEq] at found
        rw [found]
      · obtain ⟨bound, -⟩ := List.getElem?_eq_some_iff.mp found
        obtain ⟨parent, above⟩ : ∃ parent, items[(index - 1) / 2]? = some parent :=
          ⟨_, List.getElem?_eq_getElem (by omega)⟩
        have step := ordered index (by omega) parent above item found
        exact le_trans (inductionHypothesis ((index - 1) / 2) (by omega) above) step

/-- The order of a heap with a hole, whatever the hole contains. -/
structure OrderedAround (items : List Item) (hole : ℕ) : Prop where
  away : ∀ index, 0 < index → index ≠ hole → (index - 1) / 2 ≠ hole →
    InOrder key items ((index - 1) / 2) index
  across : ∀ index, 0 < hole → 0 < index → (index - 1) / 2 = hole →
    InOrder key items ((hole - 1) / 2) index

/-- A value is not greater than the entries below the hole. -/
def BelowHole (items : List Item) (hole : ℕ) (value : Item) : Prop :=
  ∀ index, 0 < index → (index - 1) / 2 = hole →
    ∀ item ∈ items[index]?, key value ≤ key item

/-- The answer of a comparison does not contradict the keys. -/
def Comparison.Faithful (comparator : MovingComparator Moment Item)
    (comparison : Comparison Moment Item) : Prop :=
  if comparator.after comparison.moment comparison.first comparison.second then
    key comparison.second ≤ key comparison.first
  else key comparison.first ≤ key comparison.second

variable {key} {items : List Item} {hole : ℕ} {value : Item}

theorem inOrder_set_away {upper lower : ℕ} (upper_ne : upper ≠ hole)
    (lower_ne : lower ≠ hole) (inOrder : InOrder key items upper lower) :
    InOrder key (items.set hole value) upper lower := by
  intro first above second below
  rw [List.getElem?_set_ne (Ne.symm upper_ne)] at above
  rw [List.getElem?_set_ne (Ne.symm lower_ne)] at below
  exact inOrder first above second below

theorem mem_set_self {item : Item} (found : item ∈ (items.set hole value)[hole]?) :
    item = value := by
  rw [Option.mem_def, List.getElem?_set, if_pos rfl] at found
  split at found
  · exact (Option.some.inj found).symm
  · cases found

theorem inOrder_set_upper {lower : ℕ} (lower_ne : lower ≠ hole)
    (least : ∀ item ∈ items[lower]?, key value ≤ key item) :
    InOrder key (items.set hole value) hole lower := by
  intro first above second below
  rw [List.getElem?_set_ne (Ne.symm lower_ne)] at below
  rw [mem_set_self above]
  exact least second below

theorem inOrder_set_lower {upper : ℕ} (upper_ne : upper ≠ hole)
    (greatest : ∀ item ∈ items[upper]?, key item ≤ key value) :
    InOrder key (items.set hole value) upper hole := by
  intro first above second below
  rw [List.getElem?_set_ne (Ne.symm upper_ne)] at above
  rw [mem_set_self below]
  exact greatest first above

/-! ## Moving the hole -/

theorem OrderedAround.lift {parent : Item} (around : OrderedAround key items hole)
    (inside : 0 < hole) (above : items[(hole - 1) / 2]? = some parent) :
    OrderedAround key (items.set hole parent) ((hole - 1) / 2) where
  away := by
    intro index positive index_ne parent_ne
    have index_ne_hole : index ≠ hole := by
      rintro rfl
      exact parent_ne rfl
    by_cases child : (index - 1) / 2 = hole
    · rw [child]
      refine inOrder_set_upper index_ne_hole ?_
      exact around.across index inside positive child parent above
    · exact inOrder_set_away child index_ne_hole
        (around.away index positive index_ne_hole child)
  across := by
    intro index parent_inside positive child
    have grandparent := around.away ((hole - 1) / 2) parent_inside (by omega) (by omega)
    by_cases same : index = hole
    · subst same
      refine inOrder_set_lower (by omega) ?_
      exact fun item found => grandparent item found parent above
    · refine inOrder_set_away (by omega) same ?_
      intro first found second below
      have sibling := around.away index positive same (by omega)
      rw [child] at sibling
      exact le_trans (grandparent first found parent above)
        (sibling parent above second below)

theorem BelowHole.lift {parent : Item} (around : OrderedAround key items hole)
    (inside : 0 < hole) (above : items[(hole - 1) / 2]? = some parent)
    (smaller : key value ≤ key parent) :
    BelowHole key (items.set hole parent) ((hole - 1) / 2) value := by
  intro index positive child item found
  by_cases same : index = hole
  · subst same
    rw [mem_set_self found]
    exact smaller
  · rw [List.getElem?_set_ne (Ne.symm same)] at found
    have sibling := around.away index positive same (by omega)
    rw [child] at sibling
    exact le_trans smaller (sibling parent above item found)

theorem OrderedAround.fill (around : OrderedAround key items hole)
    (below : BelowHole key items hole value)
    (fits : 0 < hole → ∀ item ∈ items[(hole - 1) / 2]?, key item ≤ key value) :
    HeapOrder key (items.set hole value) := by
  intro index positive
  by_cases same : index = hole
  · subst same
    exact inOrder_set_lower (by omega) (fits positive)
  · by_cases child : (index - 1) / 2 = hole
    · rw [child]
      exact inOrder_set_upper same (below index positive child)
    · exact inOrder_set_away child same (around.away index positive same child)

theorem OrderedAround.sink {chosen : Item} {child : ℕ}
    (around : OrderedAround key items hole) (positive : 0 < child)
    (parent : (child - 1) / 2 = hole) (found : items[child]? = some chosen)
    (least : BelowHole key items hole chosen) :
    OrderedAround key (items.set hole chosen) child where
  away := by
    intro index index_positive index_ne parent_ne
    by_cases same : index = hole
    · subst same
      refine inOrder_set_lower (by omega) ?_
      intro item above
      exact around.across child index_positive positive parent item above chosen found
    · by_cases sibling : (index - 1) / 2 = hole
      · rw [sibling]
        exact inOrder_set_upper same (least index index_positive sibling)
      · exact inOrder_set_away sibling same
          (around.away index index_positive same sibling)
  across := by
    intro index _ index_positive grandchild
    rw [parent]
    refine inOrder_set_upper (by omega) ?_
    have inOrder := around.away index index_positive (by omega) (by omega)
    rw [grandchild] at inOrder
    exact inOrder chosen found

/-! ## The operations keep the order -/

variable {comparator : MovingComparator Moment Item}

theorem lift_heapOrder {rounds : ℕ} (enough : hole ≤ rounds) {moment : Moment}
    (inside : hole < items.length) (around : OrderedAround key items hole)
    (below : BelowHole key items hole value)
    (faithful : ∀ comparison ∈ (comparator.lift rounds items hole value moment).made,
      comparison.Faithful key comparator) :
    HeapOrder key (comparator.lift rounds items hole value moment).items := by
  induction rounds generalizing items hole moment with
  | zero =>
      refine around.fill below ?_
      intro positive
      omega
  | succ rounds inductionHypothesis =>
      rw [MovingComparator.lift] at faithful ⊢
      split at faithful
      · rename_i root
        rw [if_pos root]
        refine around.fill below ?_
        intro positive
        omega
      · rename_i notRoot
        rw [if_neg notRoot]
        obtain ⟨parent, above⟩ : ∃ parent, items[(hole - 1) / 2]? = some parent :=
          ⟨_, List.getElem?_eq_getElem (by omega)⟩
        simp only [above] at faithful ⊢
        split at faithful
        · rename_i later
          rw [if_pos later]
          have answer := faithful ⟨moment, parent, value⟩ List.mem_cons_self
          rw [Comparison.Faithful, if_pos later] at answer
          refine inductionHypothesis (by omega) ?_ (around.lift (by omega) above)
            (BelowHole.lift around (by omega) above answer) ?_
          · rw [List.length_set]
            omega
          · exact fun comparison member =>
              faithful comparison (List.mem_cons_of_mem _ member)
        · rename_i fits
          rw [if_neg fits]
          have answer := faithful ⟨moment, parent, value⟩ List.mem_cons_self
          rw [Comparison.Faithful, if_neg fits] at answer
          refine around.fill below ?_
          intro _ item found
          rw [Option.mem_def, above, Option.some.injEq] at found
          rw [← found]
          exact answer

/-- The smaller of two children is not greater than any child. -/
theorem belowHole_of_children {left right chosen : Item}
    (first : items[2 * hole + 1]? = some left) (second : items[2 * hole + 2]? = some right)
    (left_least : key chosen ≤ key left) (right_least : key chosen ≤ key right) :
    BelowHole key items hole chosen := by
  intro index positive child item found
  have which : index = 2 * hole + 1 ∨ index = 2 * hole + 2 := by omega
  rcases which with rfl | rfl
  · rw [Option.mem_def, first, Option.some.injEq] at found
    rw [← found]
    exact left_least
  · rw [Option.mem_def, second, Option.some.injEq] at found
    rw [← found]
    exact right_least

/-- An only child is not greater than any child. -/
theorem belowHole_of_only_child {left : Item} (first : items[2 * hole + 1]? = some left)
    (short : items.length ≤ 2 * hole + 2) : BelowHole key items hole left := by
  intro index positive child item found
  obtain ⟨bound, -⟩ := List.getElem?_eq_some_iff.mp found
  have only : index = 2 * hole + 1 := by omega
  rw [Option.mem_def, only, first, Option.some.injEq] at found
  rw [found]

/-- The hole is at a leaf of an ordered heap. -/
structure AtLeaf (key : Item → Key) (length : ℕ) (sunk : Sunk Moment Item) : Prop where
  length_eq : sunk.items.length = length
  inside : sunk.hole < length
  leaf : length ≤ 2 * sunk.hole + 1
  around : OrderedAround key sunk.items sunk.hole

theorem sink_atLeaf {length rounds : ℕ} {moment : Moment}
    (enough : length ≤ hole + rounds) (length_eq : items.length = length)
    (inside : hole < length) (around : OrderedAround key items hole)
    (faithful : ∀ comparison ∈ (comparator.sink length rounds items hole moment).made,
      comparison.Faithful key comparator) :
    AtLeaf key length (comparator.sink length rounds items hole moment) := by
  induction rounds generalizing items hole moment with
  | zero => omega
  | succ rounds inductionHypothesis =>
      rw [MovingComparator.sink] at faithful ⊢
      split at faithful
      · rename_i parent
        rw [if_pos parent]
        obtain ⟨left, first⟩ : ∃ left, items[2 * hole + 1]? = some left :=
          ⟨_, List.getElem?_eq_getElem (by omega)⟩
        obtain ⟨right, second⟩ : ∃ right, items[2 * hole + 2]? = some right :=
          ⟨_, List.getElem?_eq_getElem (by omega)⟩
        simp only [first, second] at faithful ⊢
        split at faithful
        · rename_i later
          rw [if_pos later]
          have answer := faithful ⟨moment, right, left⟩ List.mem_cons_self
          rw [Comparison.Faithful, if_pos later] at answer
          have least := belowHole_of_children first second le_rfl answer
          have sunk := inductionHypothesis (by omega) (by rw [List.length_set, length_eq])
            (by omega) (around.sink (by omega) (by omega) first least)
            fun comparison member => faithful comparison (List.mem_cons_of_mem _ member)
          exact ⟨sunk.length_eq, sunk.inside, sunk.leaf, sunk.around⟩
        · rename_i earlier
          rw [if_neg earlier]
          have answer := faithful ⟨moment, right, left⟩ List.mem_cons_self
          rw [Comparison.Faithful, if_neg earlier] at answer
          have least := belowHole_of_children first second answer le_rfl
          have sunk := inductionHypothesis (by omega) (by rw [List.length_set, length_eq])
            (by omega) (around.sink (by omega) (by omega) second least)
            fun comparison member => faithful comparison (List.mem_cons_of_mem _ member)
          exact ⟨sunk.length_eq, sunk.inside, sunk.leaf, sunk.around⟩
      · rename_i notParent
        rw [if_neg notParent]
        by_cases last : length % 2 = 0 ∧ hole = (length - 2) / 2
        · rw [if_pos last]
          obtain ⟨left, first⟩ : ∃ left, items[2 * hole + 1]? = some left :=
            ⟨_, List.getElem?_eq_getElem (by omega)⟩
          simp only [first]
          have moved : OrderedAround key (items.set hole left) (2 * hole + 1) :=
            around.sink (by omega) (by omega) first
              (belowHole_of_only_child first (by omega))
          refine ⟨?_, ?_, ?_, moved⟩
          · rw [List.length_set, length_eq]
          · change 2 * hole + 1 < length
            omega
          · change length ≤ 2 * (2 * hole + 1) + 1
            omega
        · rw [if_neg last]
          refine ⟨length_eq, inside, ?_, around⟩
          change length ≤ 2 * hole + 1
          omega

theorem push_heapOrder {moment : Moment} (ordered : HeapOrder key items)
    (faithful : ∀ comparison ∈ (comparator.push items value moment).made,
      comparison.Faithful key comparator) :
    HeapOrder key (comparator.push items value moment).items := by
  have beyond : ∀ index, 0 < index → (index - 1) / 2 = items.length →
      (items ++ [value])[index]? = none := by
    intro index positive child
    refine List.getElem?_eq_none ?_
    rw [List.length_append, List.length_singleton]
    omega
  refine lift_heapOrder (Nat.le_refl _) ?_ ⟨?_, ?_⟩ ?_ faithful
  · simp
  · intro index positive index_ne parent_ne first above second below
    obtain ⟨bound, -⟩ := List.getElem?_eq_some_iff.mp below
    rw [List.length_append, List.length_singleton] at bound
    rw [List.getElem?_append_left (by omega)] at above below
    exact ordered index positive first above second below
  · intro index _ positive child first _ second below
    rw [beyond index positive child] at below
    cases below
  · intro index positive child item found
    rw [beyond index positive child] at found
    cases found

theorem HeapOrder.dropLast (ordered : HeapOrder key items) :
    HeapOrder key items.dropLast := by
  intro index positive first above second below
  rw [List.getElem?_dropLast] at above below
  split at above
  · split at below
    · exact ordered index positive first above second below
    · cases below
  · cases above

theorem pop_heapOrder {moment : Moment} (ordered : HeapOrder key items)
    (faithful : ∀ comparison ∈ (comparator.pop items moment).made,
      comparison.Faithful key comparator) :
    HeapOrder key (comparator.pop items moment).items := by
  have empty : HeapOrder key ([] : List Item) := by
    intro index _ first above
    cases above
  unfold MovingComparator.pop at faithful ⊢
  split at faithful
  · exact empty
  · rename_i value last
    simp only at faithful ⊢
    split at faithful
    · rename_i single
      rw [if_pos single]
      exact empty
    · rename_i several
      rw [if_neg several]
      have around : OrderedAround key items.dropLast 0 :=
        ⟨fun index positive _ _ => ordered.dropLast index positive,
          fun _ impossible => absurd impossible (Nat.lt_irrefl 0)⟩
      have sunk :
          AtLeaf key items.dropLast.length
            (comparator.sink items.dropLast.length items.dropLast.length
              items.dropLast 0 moment) :=
        sink_atLeaf (Nat.le_add_left _ 0) rfl (Nat.pos_of_ne_zero several) around
          fun comparison member => faithful comparison (List.mem_append_left _ member)
      refine lift_heapOrder (Nat.le_refl _) ?_ sunk.around ?_
        fun comparison member => faithful comparison (List.mem_append_right _ member)
      · rw [sunk.length_eq]
        exact sunk.inside
      · intro index positive child item found
        obtain ⟨bound, -⟩ := List.getElem?_eq_some_iff.mp found
        have leaf := sunk.leaf
        rw [sunk.length_eq] at bound
        omega

end

/-! ## The operations keep the items -/

section

variable {comparator : MovingComparator Moment Item}
variable {items : List Item} {hole : ℕ} {value : Item}

/-- Moving an entry into the hole moves the hole to its place. -/
theorem move_perm {place : ℕ} {moved : Item} (inside : hole < items.length)
    (found : items[place]? = some moved) (different : place ≠ hole) :
    ((items.set hole moved).set place value).Perm (items.set hole value) := by
  obtain ⟨bound, entry⟩ := List.getElem?_eq_some_iff.mp found
  have swap := @List.set_set_perm Item (items.set hole value) hole place
    (by rwa [List.length_set]) (by rwa [List.length_set])
  rw [List.getElem_set_self, List.getElem_set_ne (Ne.symm different), List.set_set,
    entry] at swap
  exact swap

theorem lift_perm {rounds : ℕ} {moment : Moment} (inside : hole < items.length) :
    (comparator.lift rounds items hole value moment).items.Perm (items.set hole value) := by
  induction rounds generalizing items hole moment with
  | zero => exact .refl _
  | succ rounds inductionHypothesis =>
      rw [MovingComparator.lift]
      split
      · exact .refl _
      · rename_i notRoot
        split
        · exact .refl _
        · rename_i parent above
          split
          · refine List.Perm.trans (inductionHypothesis ?_)
              (move_perm inside above (by omega))
            rw [List.length_set]
            omega
          · exact .refl _

theorem sink_perm {length rounds : ℕ} {moment : Moment} (inside : hole < items.length) :
    let sunk := comparator.sink length rounds items hole moment
    sunk.hole < sunk.items.length ∧
      (sunk.items.set sunk.hole value).Perm (items.set hole value) := by
  induction rounds generalizing items hole moment with
  | zero => exact ⟨inside, .refl _⟩
  | succ rounds inductionHypothesis =>
      have moves {child : ℕ} {chosen : Item} (found : items[child]? = some chosen)
          (different : child ≠ hole) :
          child < (items.set hole chosen).length ∧
            ((items.set hole chosen).set child value).Perm (items.set hole value) := by
        obtain ⟨bound, -⟩ := List.getElem?_eq_some_iff.mp found
        exact ⟨by rwa [List.length_set], move_perm inside found different⟩
      rw [MovingComparator.sink]
      split
      · split
        · rename_i right left second first
          split
          · obtain ⟨bound, moved⟩ := moves first (by omega)
            obtain ⟨within, rest⟩ := @inductionHypothesis _ _ (comparator.tick moment) bound
            exact ⟨within, rest.trans moved⟩
          · obtain ⟨bound, moved⟩ := moves second (by omega)
            obtain ⟨within, rest⟩ := @inductionHypothesis _ _ (comparator.tick moment) bound
            exact ⟨within, rest.trans moved⟩
        · exact ⟨inside, .refl _⟩
      · split
        · split
          · exact ⟨inside, .refl _⟩
          · rename_i left first
            exact moves first (show 2 * hole + 1 ≠ hole by omega)
        · exact ⟨inside, .refl _⟩

theorem push_perm {moment : Moment} :
    (comparator.push items value moment).items.Perm (value :: items) := by
  have lifted : (comparator.push items value moment).items.Perm
      ((items ++ [value]).set items.length value) :=
    lift_perm (by simp)
  rw [List.set_append_right _ _ (Nat.le_refl _), Nat.sub_self] at lifted
  exact lifted.trans List.perm_append_comm

theorem pop_perm {moment : Moment} :
    (comparator.pop items moment).items.Perm items.tail := by
  unfold MovingComparator.pop
  split
  · rename_i none
    rw [List.getLast?_eq_none_iff.mp none]
    exact .refl _
  · rename_i value last
    have split : items = items.dropLast ++ [value] :=
      (List.dropLast_append_getLast? value last).symm
    simp only
    split
    · rename_i single
      rw [split, List.length_eq_zero_iff.mp single]
      exact .refl _
    · rename_i several
      obtain ⟨within, sunk⟩ :=
        @sink_perm Moment Item comparator items.dropLast 0 value items.dropLast.length
          items.dropLast.length moment (Nat.pos_of_ne_zero several)
      refine ((lift_perm within).trans sunk).trans ?_
      cases body : items.dropLast with
      | nil => simp [body] at several
      | cons root rest =>
          rw [split, body]
          exact (List.perm_append_singleton value rest).symm

end

/-! ## The operations do not turn the time back -/

section

variable [Preorder Moment] {comparator : MovingComparator Moment Item}
variable {items : List Item} {hole : ℕ} {value : Item} {moment : Moment}

theorem le_lift_moment (advances : ∀ moment, moment ≤ comparator.tick moment)
    {rounds : ℕ} : moment ≤ (comparator.lift rounds items hole value moment).moment := by
  induction rounds generalizing items hole moment with
  | zero => exact le_refl _
  | succ rounds inductionHypothesis =>
      rw [MovingComparator.lift]
      split
      · exact le_refl _
      · split
        · exact le_refl _
        · split
          · exact le_trans (advances moment) inductionHypothesis
          · exact advances moment

theorem le_sink_moment (advances : ∀ moment, moment ≤ comparator.tick moment)
    {length rounds : ℕ} :
    moment ≤ (comparator.sink length rounds items hole moment).moment := by
  induction rounds generalizing items hole moment with
  | zero => exact le_refl _
  | succ rounds inductionHypothesis =>
      rw [MovingComparator.sink]
      split
      · split
        · split <;> exact le_trans (advances moment) inductionHypothesis
        · exact le_refl _
      · split
        · split <;> exact le_refl _
        · exact le_refl _

theorem le_push_moment (advances : ∀ moment, moment ≤ comparator.tick moment) :
    moment ≤ (comparator.push items value moment).moment :=
  le_lift_moment advances

theorem le_pop_moment (advances : ∀ moment, moment ≤ comparator.tick moment) :
    moment ≤ (comparator.pop items moment).moment := by
  unfold MovingComparator.pop
  split
  · exact le_refl _
  · simp only
    split
    · exact le_refl _
    · exact le_trans (le_sink_moment advances) (le_lift_moment advances)

end

end AsyncRuntime.Foundation
