import Mathlib.Data.List.Nodup
import Mathlib.Logic.Function.Basic

/-!
# Chains of next links

An intrusive singly linked list is a partial function from nodes to nodes.
`LinksTo next head nodes` says that following the links from `head` visits
exactly `nodes`, in this order, and then ends.  Such a chain is determined by
its head and never visits a node twice; writing the link of a node outside the
chain does not affect it.
-/

namespace AsyncRuntime.Foundation

universe u

variable {Node : Type u}

/-- Following `next` from `head` visits exactly the listed nodes and ends. -/
def LinksTo (next : Node → Option Node) (head : Option Node) :
    List Node → Prop
  | [] => head = none
  | node :: rest => head = some node ∧ LinksTo next (next node) rest

variable {next other : Node → Option Node}

@[simp]
theorem linksTo_nil {head : Option Node} :
    LinksTo next head [] ↔ head = none :=
  Iff.rfl

theorem LinksTo.eq_nil {nodes : List Node} (links : LinksTo next none nodes) :
    nodes = [] := by
  cases nodes with
  | nil => rfl
  | cons node rest => exact absurd links.1 (by simp)

/-- A chain with a first node starts with it. -/
theorem LinksTo.eq_cons {node : Node} {nodes : List Node}
    (links : LinksTo next (some node) nodes) :
    ∃ rest, nodes = node :: rest ∧ LinksTo next (next node) rest := by
  cases nodes with
  | nil => exact absurd links (by simp)
  | cons first rest =>
      rcases links with ⟨same, tail⟩
      rcases Option.some.inj same with rfl
      exact ⟨rest, rfl, tail⟩

/-- The head determines the chain. -/
theorem LinksTo.unique {head : Option Node} {left right : List Node}
    (leftLinks : LinksTo next head left)
    (rightLinks : LinksTo next head right) : left = right := by
  induction left generalizing head right with
  | nil =>
      rw [linksTo_nil] at leftLinks
      subst leftLinks
      exact rightLinks.eq_nil.symm
  | cons node rest inductionHypothesis =>
      rcases leftLinks with ⟨rfl, leftTail⟩
      rcases rightLinks.eq_cons with ⟨rightRest, rfl, rightTail⟩
      rw [inductionHypothesis leftTail rightTail]

/-- From every node of a chain the links run through a suffix of it. -/
theorem LinksTo.suffix {head : Option Node} {nodes : List Node}
    (links : LinksTo next head nodes) {node : Node} (member : node ∈ nodes) :
    ∃ before after,
      nodes = before ++ node :: after ∧ LinksTo next (next node) after := by
  induction nodes generalizing head with
  | nil => simp at member
  | cons first rest inductionHypothesis =>
      rcases List.mem_cons.mp member with rfl | later
      · exact ⟨[], rest, rfl, links.2⟩
      · rcases inductionHypothesis links.2 later with
          ⟨before, after, split, tail⟩
        exact ⟨first :: before, after, by rw [split]; rfl, tail⟩

/-- A chain that ends visits no node twice. -/
theorem LinksTo.nodup {head : Option Node} {nodes : List Node}
    (links : LinksTo next head nodes) : nodes.Nodup := by
  induction nodes generalizing head with
  | nil => exact List.nodup_nil
  | cons node rest inductionHypothesis =>
      rw [List.nodup_cons]
      constructor
      · intro member
        -- a second visit would make the chain a proper suffix of itself
        rcases links.2.suffix member with ⟨before, after, split, tail⟩
        have same := tail.unique links.2
        have lengths := congrArg List.length split
        rw [← same] at lengths
        simp only [List.length_append, List.length_cons] at lengths
        omega
      · exact inductionHypothesis links.2

theorem LinksTo.congr {head : Option Node} {nodes : List Node}
    (links : LinksTo next head nodes)
    (agree : ∀ node ∈ nodes, other node = next node) :
    LinksTo other head nodes := by
  induction nodes generalizing head with
  | nil => exact links
  | cons node rest inductionHypothesis =>
      rcases links with ⟨starts, tail⟩
      refine ⟨starts, ?_⟩
      rw [agree node List.mem_cons_self]
      exact inductionHypothesis tail fun later member =>
        agree later (List.mem_cons_of_mem node member)

end AsyncRuntime.Foundation
