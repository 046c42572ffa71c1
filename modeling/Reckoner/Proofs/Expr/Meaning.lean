import Reckoner.Expr.OfTree
import Reckoner.Proofs.Grammar.Derivation

/-!
# What derivations mean

The expression that a derivation stands for, by recursion on the derivation and without its tree.
The tree reads as the same expression (`toExpr_tree`): in the tree of a derivation every search
finds the part that it is meant to find, so nothing that is read lacks an expression.
-/

namespace Reckoner

namespace Node

variable {p : Rule → Bool} {rule r : Rule} {span : Span} {s name : Text} {o : Nat}
variable {n m : Node} {ns : List Node} {left right : Expr}

/-- A search starts at the node itself. -/
lemma find?_self (hit : p n.rule = true) : n.find? p = some n := by
  cases n
  exact if_pos hit

/-- A search goes on in the parts. -/
lemma find?_parts (miss : p rule = false) : find? p ⟨rule, span, s, ns⟩ = findAmong? p ns := by
  rw [find?, miss]
  rfl

/-- A search that passes over a leaf ends in the part after it. -/
lemma find?_second (root : p rule = false) (leaf : p r = false) (hit : n.find? p = some m) :
    find? p ⟨rule, span, s, .leaf r o name :: n :: ns⟩ = some m := by
  rw [find?_parts root, findAmong?, Node.leaf, find?_parts leaf, findAmong?, Option.none_or,
    findAmong?, hit, Option.some_or]

/-! The expression of a node whose parts are found. -/

/-- A number reads as a number where it stands. -/
lemma toExpr_number : toExpr ⟨.number, span, s, ns⟩ = .ok (.number span) := by
  rw [toExpr]

/-- A factor reads as the alternative that it takes. -/
lemma toExpr_factor (only : alternative? ⟨.factor, span, s, ns⟩ = some m) :
    toExpr ⟨.factor, span, s, ns⟩ = m.toExpr := by
  rw [toExpr]
  dsimp only
  split
  case h_1 none => cases only.symm.trans none
  case h_2 found => cases only.symm.trans found; rfl

/-- A signed operand reads as its sign over what follows it. -/
lemma toExpr_unary {op : UnaryOp} {o : Span} (sign : sign? ⟨.unary, span, s, ns⟩ = some (op, o))
    (operand : findRule? ⟨.unary, span, s, ns⟩ .factor = some m) :
    toExpr ⟨.unary, span, s, ns⟩ = m.toExpr.map (.unary op o) := by
  rw [toExpr]
  dsimp only
  split
  case h_1 none => cases sign.symm.trans none
  case h_2 none => cases operand.symm.trans none
  case h_3 first found => cases sign.symm.trans first; cases operand.symm.trans found; rfl

/-- A call reads as its name over its argument. -/
lemma toExpr_function (called : findRule? ⟨.function, span, s, ns⟩ .functionName = some n)
    (argument : findRule? ⟨.function, span, s, ns⟩ .expr = some m) :
    toExpr ⟨.function, span, s, ns⟩ = m.toExpr.map (.call (String.ofList n.text) n.span) := by
  rw [toExpr]
  dsimp only
  split
  case h_1 none => cases called.symm.trans none
  case h_2 none => cases argument.symm.trans none
  case h_3 first found => cases called.symm.trans first; cases argument.symm.trans found; rfl

/-- Parentheses read as what is between them. -/
lemma toExpr_parenExpr (inner : findRule? ⟨.parenExpr, span, s, ns⟩ .expr = some m) :
    toExpr ⟨.parenExpr, span, s, ns⟩ = m.toExpr := by
  rw [toExpr]
  dsimp only
  split
  case h_1 none => cases inner.symm.trans none
  case h_2 found => cases inner.symm.trans found; rfl

/-- A chain reads as its first operand, joined with its links. -/
lemma toExpr_chain (l : Chain) :
    toExpr ⟨l.rule, span, s, ns⟩ = toChain ⟨l.rule, span, s, ns⟩ l.operand.rule := by
  cases l with
  | sum => rw [Chain.rule, toExpr]; rfl
  | product => rw [Chain.rule, toExpr]; rfl

/-- The links of a chain are joined to the value of its first operand. -/
lemma toChain_links {operand : Rule} {links : Node} (first : n.child? operand = some m)
    (value : m.toExpr = .ok left) (others : n.child? .repetition = some links) :
    n.toChain operand = joinLinks operand left links.children := by
  rw [toChain]
  split
  case h_1 none => cases first.symm.trans none
  case h_2 found =>
    cases first.symm.trans found
    simp only [value]
    split
    case h_1 none => cases others.symm.trans none
    case h_2 found => cases others.symm.trans found; rfl

/-- A link is joined to what stands before it, and then the others are. -/
lemma joinLinks_cons {operand : Rule} {op : BinaryOp} (joint : n.operator? = some (op, span))
    (found : n.findRule? operand = some m) (value : m.toExpr = .ok right) :
    joinLinks operand left (n :: ns) = joinLinks operand (.binary op span left right) ns := by
  rw [joinLinks]
  split
  case h_1 none => cases joint.symm.trans none
  case h_2 none => cases found.symm.trans none
  case h_3 first second =>
    cases joint.symm.trans first
    cases found.symm.trans second
    simp only [value]

/-! The sign and the operator that come first. -/

/-- A sign is found where it is the first part. -/
lemma sign?_cons (op : UnaryOp) :
    sign? ⟨.unary, span, s, .leaf op.rule o [op.symbol] :: ns⟩ =
      some (op, .ofChar o op.symbol) := by
  cases op <;> rfl

/-- An operator is found where it is the first part. -/
lemma operator?_cons (op : BinaryOp) :
    operator? ⟨.link, span, s, .leaf op.rule o [op.symbol] :: ns⟩ =
      some (op, .ofChar o op.symbol) := by
  cases op <;> rfl

end Node

namespace Grammar

open Node

variable {k : Category} {l : Chain}

/-- The expression that a derivation means when its text stands at an offset.  Links mean what they
make of the expression `left` before them; no other derivation depends on it. -/
def Derivation.meaning {k : Category} : Derivation k → (left : Expr) → (offset : Nat) → Expr
  | number before lexeme, _, o =>
    .number ⟨o + before.text.size, o + before.text.size + lexeme.text.size⟩
  | signed before op operand, left, o =>
    let sign := Span.ofChar (o + before.text.size) op.symbol
    .unary op sign (operand.meaning left sign.stop)
  | call before name argument, left, o =>
    let called : Span := ⟨o + before.text.size, o + before.text.size + name.text.size⟩
    .call (String.ofList name.text) called (argument.meaning left called.stop)
  | grouped inner, left, o => inner.meaning left o
  | group opening inner _, left, o =>
    inner.meaning left (Span.ofChar (o + opening.text.size) '(').stop
  | chain first others, left, o => others.meaning (first.meaning left o) (o + first.text.size)
  | nil, left, _ => left
  | cons before op _ operand others, left, o =>
    let joint := Span.ofChar (o + before.text.size) op.symbol
    let right := operand.meaning left joint.stop
    others.meaning (.binary op joint left right) (joint.stop + operand.text.size)

/-- The expression of a node of a category; links are joined to the expression before them. -/
def Category.toExpr (left : Expr) : Category → Node → Except TreeError Expr
  | links l, n => joinLinks l.operand.rule left n.children
  | _, n => n.toExpr

/-- The operand of a chain reads as it does alone. -/
lemma Category.toExpr_operand (left : Expr) (n : Node) :
    l.operand.toExpr left n = n.toExpr := by
  cases l <;> rfl

namespace Derivation

/-- A search for the rule of a tree finds the tree. -/
lemma findRule?_tree (x : Derivation k) (o : Nat) :
    (x.tree o).findRule? k.rule = some (x.tree o) :=
  find?_self (by rw [tree_rule, decide_eq_true_eq])

/-- Parentheses read as the expression that is found in them. -/
lemma findRule?_group (x : Derivation .group) (o : Nat) :
    ∃ n, (x.tree o).findRule? .expr = some n ∧ (x.tree o).toExpr = n.toExpr := by
  cases x with
  | group opening inner closing =>
    have found : (tree (group opening inner closing) o).findRule? .expr = some _ :=
      find?_second rfl rfl (inner.findRule?_tree _)
    exact ⟨_, found, toExpr_parenExpr found⟩

/-- The tree of a derivation reads as what the derivation means. -/
theorem toExpr_tree (x : Derivation k) (left : Expr) (o : Nat) :
    k.toExpr left (x.tree o) = .ok (x.meaning left o) := by
  induction x generalizing left o with
  | number before lexeme => exact (toExpr_factor rfl).trans toExpr_number
  | signed before op operand ih =>
    let stop := (Span.ofChar (o + before.text.size) op.symbol).stop
    have sign : decide (op.rule = .factor) = false := by cases op <;> rfl
    have found := operand.findRule?_tree stop
    refine (toExpr_factor rfl).trans ?_
    refine (toExpr_unary (sign?_cons op) (find?_second rfl sign found)).trans ?_
    exact congrArg (Except.map _) (ih left stop)
  | call before name argument ih =>
    let stop := o + before.text.size + name.text.size
    obtain ⟨n, found, same⟩ := argument.findRule?_group stop
    refine (toExpr_factor rfl).trans ?_
    refine (toExpr_function rfl (find?_second rfl rfl found)).trans ?_
    exact congrArg (Except.map _) (same.symm.trans (ih left stop))
  | grouped inner ih =>
    refine (toExpr_factor ?_).trans (ih left o)
    cases inner
    rfl
  | group opening inner closing ih =>
    refine (toExpr_parenExpr ?_).trans (ih left _)
    exact find?_second rfl rfl (inner.findRule?_tree _)
  | @chain l first others ih1 ih2 =>
    have value := ih1 left o
    rw [Category.toExpr_operand] at value
    -- The operand is no repetition, so the search for the links passes it over.
    have other : decide (l.operand.rule = .repetition) = false := by cases l <;> rfl
    refine (toExpr_chain l).trans ((toChain_links ?_ value ?_).trans (ih2 _ _))
    · exact List.find?_cons_of_pos (by rw [tree_rule, decide_eq_true_eq])
    · refine (List.find?_cons_of_neg ?_).trans (List.find?_cons_of_pos ?_)
      · rw [tree_rule, other]
        exact Bool.false_ne_true
      · rw [tree_rule]
        rfl
  | nil => exact joinLinks.eq_1 ..
  | @cons l before op joins operand others ih1 ih2 =>
    let stop := (Span.ofChar (o + before.text.size) op.symbol).stop
    have value := ih1 left stop
    rw [Category.toExpr_operand] at value
    have link : decide (Rule.link = l.operand.rule) = false := by cases l <;> rfl
    have joint : decide (op.rule = l.operand.rule) = false := by cases l <;> cases op <;> rfl
    have found := operand.findRule?_tree stop
    refine (joinLinks_cons (operator?_cons op) (find?_second link joint found) value).trans ?_
    exact ih2 _ _

end Derivation

end Grammar

end Reckoner
