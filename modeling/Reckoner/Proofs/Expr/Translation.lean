import Reckoner.Expr.Eval
import Reckoner.Proofs.Expr.Meaning
import Reckoner.Proofs.Grammar.Translation

/-!
# Expressions later in a text

Trees of derivations, the expressions they mean, and the findings of evaluation move with the text.
The value of an expression and the way it is written stay as they are: they depend on what its spans
cover, which is the same.
-/

namespace Reckoner

/-- An expression in a text that comes `k` bytes later. -/
def Expr.moved (k : Nat) : Expr → Expr
  | number span => .number (span.moved k)
  | unary op span operand => .unary op (span.moved k) (operand.moved k)
  | binary op span left right => .binary op (span.moved k) (left.moved k) (right.moved k)
  | call name span argument => .call name (span.moved k) (argument.moved k)

/-- A finding in a text that comes `k` bytes later. -/
def Finding.moved (f : Finding) (k : Nat) : Finding := ⟨f.fault, f.span.moved k⟩

/-- A diagnostic of a text that comes after `u`. -/
def Diagnostic.moved (d : Diagnostic) (u : Text) : Diagnostic := ⟨d.range.moved u, d.message⟩

variable {u t : Text} {k : Nat}

/-- A finding that is moved is reported after the text in front. -/
lemma Finding.diagnostic_moved (f : Finding) :
    (f.moved u.size).diagnostic (u ++ t) = (f.diagnostic t).moved u :=
  congrArg (Diagnostic.mk · _) Text.rangeOf_moved

/-- A result settles on a span that is moved as it does on the span. -/
lemma settle_moved (span : Span) (found : List Finding) (result : Except Fault Float) :
    settle (span.moved k) (found.map (·.moved k)) result =
      (settle span found result).map id (List.map (·.moved k)) := by
  cases result with
  | ok x => rfl
  | error fault => simp [settle, Finding.moved]

namespace Expr

/-- Numbers are taken from the same places. -/
lemma polish_moved (e : Expr) : (e.moved u.size).polish (u ++ t) = e.polish t := by
  induction e with
  | number span => exact Text.slice_moved
  | unary op span operand ih => rw [moved, polish, ih, polish]
  | binary op span left right ih1 ih2 => rw [moved, polish, ih1, ih2, polish]
  | call name span argument ih => rw [moved, polish, ih, polish]

/-- Evaluation comes to the same value, and what it finds moves. -/
lemma eval_moved (e : Expr) (found : List Finding) :
    (e.moved u.size).eval (u ++ t) (found.map (·.moved u.size)) =
      (e.eval t found).map id (List.map (·.moved u.size)) := by
  induction e generalizing found with
  | number span =>
    rw [moved, eval, Text.slice_moved]
    exact settle_moved span found _
  | unary op span operand ih =>
    rw [moved, eval, ih, eval]
    generalize operand.eval t found = r
    obtain ⟨_ | x, found⟩ := r <;> rfl
  | call name span argument ih =>
    rw [moved, eval, ih, eval]
    generalize argument.eval t found = r
    obtain ⟨_ | x, found⟩ := r
    · rfl
    · exact settle_moved span found _
  | binary op span left right ih1 ih2 =>
    rw [moved, eval, ih1, eval]
    generalize left.eval t found = r1
    obtain ⟨a, found⟩ := r1
    simp only [Prod.map_apply, id_eq, ih2]
    generalize right.eval t found = r2
    obtain ⟨b, found⟩ := r2
    cases a with
    | none => rfl
    | some a =>
      cases b with
      | none => rfl
      | some b => exact settle_moved span found _

end Expr

namespace Grammar.Derivation

variable {c : Category} {o : Nat}

/-- A leaf that is moved is the leaf of the same token later on. -/
lemma leaf_moved (rule : Rule) (s : Text) :
    (Node.leaf rule o s).moved k = .leaf rule (o + k) s := by
  rw [Node.leaf, Node.leaf, Nat.add_right_comm]
  rfl

lemma leaf_stop (rule : Rule) (s : Text) : (Node.leaf rule o s).span.stop = o + s.size := rfl

lemma leaf_start (rule : Rule) (s : Text) : (Node.leaf rule o s).span.start = o := rfl

/-- A node of a derivation is moved with its parts. -/
lemma node_moved (x : Derivation c) (rule : Rule) (ns : List Node) :
    (x.node rule o ns).moved k = x.node rule (o + k) (ns.map (.moved k)) := by
  rw [node, Node.moved, Node.movedAll_eq_map, node, span, span, Span.moved,
    Nat.add_right_comm o k, Nat.add_right_comm o k]

/-- The tree of a derivation moves with its text. -/
lemma tree_moved (x : Derivation c) (o : Nat) : (x.tree o).moved k = x.tree (o + k) := by
  induction x generalizing o with
  | number before lexeme =>
    simp only [tree, node_moved, List.map_cons, List.map_nil, leaf_moved, Nat.add_right_comm _ k _]
  | signed before op operand ih =>
    simp only [tree, node_moved, List.map_cons, List.map_nil, leaf_moved, leaf_stop, ih,
      Nat.add_right_comm _ k _]
  | call before name argument ih =>
    simp only [tree, node_moved, List.map_cons, List.map_nil, leaf_moved, leaf_stop, ih,
      Nat.add_right_comm _ k _]
  | grouped inner ih => simp only [tree, node_moved, List.map_cons, List.map_nil, ih]
  | group opening inner closing ih =>
    simp only [tree, node_moved, List.map_cons, List.map_nil, leaf_moved, leaf_stop, ih,
      Nat.add_right_comm _ k _]
  | chain first others ih1 ih2 =>
    simp only [tree, node_moved, List.map_cons, List.map_nil, ih1, ih2, Nat.add_right_comm _ k _]
  | nil => exact node_moved _ _ _
  | cons before op joins operand others ih1 ih2 =>
    simp only [tree, node_moved, List.map_cons, ← Node.moved_children, ih2, Node.moved, Span.moved,
      Node.movedAll_eq_map, List.map_nil, leaf_moved, leaf_stop, leaf_start, ih1,
      Nat.add_right_comm _ k _]

/-- The meaning of a derivation moves with its text and with the expression before it. -/
lemma meaning_moved (x : Derivation c) (left : Expr) (o : Nat) :
    x.meaning (left.moved k) (o + k) = (x.meaning left o).moved k := by
  induction x generalizing left o with
  | number before lexeme =>
    simp only [meaning, Expr.moved, Span.moved, Nat.add_right_comm _ k _]
  | signed before op operand ih =>
    simp only [meaning, Expr.moved, Span.moved, Span.ofChar, ← ih, Nat.add_right_comm _ k _]
  | call before name argument ih =>
    simp only [meaning, Expr.moved, Span.moved, ← ih, Nat.add_right_comm _ k _]
  | grouped inner ih => exact ih left o
  | group opening inner closing ih =>
    simp only [meaning, Span.ofChar, ← ih, Nat.add_right_comm _ k _]
  | chain first others ih1 ih2 =>
    simp only [meaning, ← ih1, ← ih2, Nat.add_right_comm _ k _]
  | nil => rfl
  | cons before op joins operand others ih1 ih2 =>
    simp only [meaning, Span.ofChar, ← ih1, ← ih2, Expr.moved, Span.moved, Nat.add_right_comm _ k _]

end Grammar.Derivation

end Reckoner
