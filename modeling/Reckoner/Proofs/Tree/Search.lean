import Reckoner.Proofs.Tree.Formed

/-!
# Searches in a parse tree

A search depth first from the left goes through the nodes of a tree in the order in which `nodes`
lists them (`find?_eq`), so it comes to nothing exactly where no node is searched for.  Searching
from a node that was found stays inside the tree (`mem_nodes_trans`).
-/

namespace Reckoner

namespace Node

variable {p : Rule → Bool} {rule : Rule} {n m k : Node}

mutual
/-- A search finds the first of the nodes. -/
lemma find?_eq (p : Rule → Bool) : ∀ n : Node, n.find? p = n.nodes.find? fun m => p m.rule
  | ⟨rule, span, text, children⟩ => by
    rw [find?, nodes_parts, List.find?_cons, findAmong?_eq p children]
    cases p rule <;> rfl

/-- A search among trees goes through their nodes in order. -/
lemma findAmong?_eq (p : Rule → Bool) :
    ∀ ns : List Node, findAmong? p ns = (ns.flatMap nodes).find? fun m => p m.rule
  | [] => rfl
  | n :: ns => by
    rw [findAmong?, List.flatMap_cons, List.find?_append, find?_eq p n, findAmong?_eq p ns]
end

/-- A search finds nothing if no node is what it is for. -/
lemma find?_eq_none_iff : n.find? p = none ↔ ∀ m ∈ n.nodes, p m.rule = false := by
  rw [find?_eq, List.find?_eq_none]
  simp

/-- What a search finds is what it is for. -/
lemma rule_of_find? (h : n.find? p = some m) : p m.rule = true := by
  rw [find?_eq] at h
  exact List.find?_some (p := fun m : Node => p m.rule) h

/-- What a search finds is in the tree. -/
lemma mem_nodes_of_find? (h : n.find? p = some m) : m ∈ n.nodes := by
  rw [find?_eq] at h
  exact List.mem_of_find?_eq_some h

/-- No node of a rule is found if there is none. -/
lemma findRule?_eq_none_iff : n.findRule? rule = none ↔ ∀ m ∈ n.nodes, m.rule ≠ rule := by
  simp [findRule?, find?_eq_none_iff]

/-- No part of a rule is found if there is none. -/
lemma child?_eq_none_iff : n.child? rule = none ↔ ∀ m ∈ n.children, m.rule ≠ rule := by
  simp [child?]

/-- A part that is found is in the tree. -/
lemma mem_nodes_of_child? (h : n.child? rule = some m) : m ∈ n.nodes :=
  mem_nodes_of_child (List.mem_of_find?_eq_some h) m.mem_nodes_self

/-- The nodes of a part of a tree are nodes of the tree. -/
lemma mem_nodes_trans (h1 : k ∈ m.nodes) (h2 : m ∈ n.nodes) : k ∈ n.nodes := by
  induction size : n.size using Nat.strong_induction_on generalizing n with
  | h _ ih =>
    obtain ⟨rule, span, text, children⟩ := n
    rw [nodes_parts, List.mem_cons] at h2
    rcases h2 with rfl | inner
    · exact h1
    · obtain ⟨child, part, inside⟩ := List.mem_flatMap.mp inner
      have smaller : child.size < _ := size_lt_of_mem (n := ⟨rule, span, text, children⟩) part
      exact mem_nodes_of_child part (ih _ (size ▸ smaller) inside rfl)

end Node

end Reckoner
