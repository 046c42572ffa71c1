import Reckoner.Expr.Basic
import Reckoner.Tree.Defect
import Reckoner.Tree.Node

/-!
# Expressions of parse trees

A chain becomes operators that lean to the left, a factor the expression of its alternative, and
parentheses vanish.  The parts of a node are looked up by rule, so a tree made by hand may lack
one; the first defect met from the left is reported at the node that has it.
-/

namespace Reckoner

/-- A defect of a parse tree and where it is. -/
structure TreeError where
  defect : Defect
  span : Span
  deriving DecidableEq

namespace Node

/-- The report that a part is missing. -/
def lacks (n : Node) (part : Part) : TreeError := ⟨.missing n.rule part, n.span⟩

/-- The first operator in a tree. -/
def operator? (n : Node) : Option (BinaryOp × Span) :=
  (n.find? Rule.isOperator).bind fun o => (BinaryOp.ofRule? o.rule).map (·, o.span)

/-- The first sign in a tree. -/
def sign? (n : Node) : Option (UnaryOp × Span) :=
  (n.find? Rule.isSign).bind fun s => (UnaryOp.ofRule? s.rule).map (·, s.span)

/-- What a factor consists of: its own parts only, not theirs, in order of preference. -/
def alternative? (n : Node) : Option Node :=
  [Rule.function, Rule.unary, Rule.number, Rule.parenExpr].findSome? n.child?

/-- The alternative that a factor takes is smaller. -/
theorem size_lt_of_alternative? {n m : Node} (h : n.alternative? = some m) : m.size < n.size := by
  obtain ⟨rule, _, hit⟩ := List.exists_of_findSome?_eq_some h
  exact size_lt_of_child? hit

mutual
/-- The expression that a node reads as. -/
def toExpr (n : Node) : Except TreeError Expr :=
  match rule : n.rule with
  | .expr => toChain n .term
  | .term => toChain n .factor
  | .factor =>
    match h : n.alternative? with
    | none => .error (n.lacks .alternative)
    | some alternative =>
      have := size_lt_of_alternative? h
      toExpr alternative
  | .unary =>
    match n.sign?, h : n.findRule? .factor with
    | none, _ => .error (n.lacks .sign)
    | some _, none => .error (n.lacks .operand)
    | some (op, span), some operand =>
      have := size_lt_of_findRule? h (by simp [rule])
      (toExpr operand).map fun e => .unary op span e
  | .function =>
    match n.findRule? .functionName, h : n.findRule? .expr with
    | none, _ => .error (n.lacks .functionName)
    | some _, none => .error (n.lacks .argument)
    | some name, some argument =>
      have := size_lt_of_findRule? h (by simp [rule])
      (toExpr argument).map fun e => .call (String.ofList name.text) name.span e
  | .parenExpr =>
    match h : n.findRule? .expr with
    | none => .error (n.lacks .innerExpression)
    | some inner =>
      have := size_lt_of_findRule? h (by simp [rule])
      toExpr inner
  | .number => .ok (.number n.span)
  | other => .error ⟨.unexpected other, n.span⟩
termination_by 2 * n.size + 1

/-- The expression of a chain whose operands apply `operand`. -/
def toChain (n : Node) (operand : Rule) : Except TreeError Expr :=
  match h : n.child? operand with
  | none => .error (n.lacks .firstOperand)
  | some first =>
    have := size_lt_of_child? h
    match toExpr first with
    | .error e => .error e
    | .ok left =>
      match h : n.child? .repetition with
      | none => .ok left
      | some repetition =>
        have := size_lt_of_child? h
        have := size_eq repetition
        joinLinks operand left repetition.children
termination_by 2 * n.size

/-- The expression of an operand and the links that follow it. -/
def joinLinks (operand : Rule) (left : Expr) (links : List Node) : Except TreeError Expr :=
  match links with
  | [] => .ok left
  | link :: others =>
    match link.operator?, h : link.findRule? operand with
    | none, _ => .error (link.lacks .operator)
    | some _, none => .error (link.lacks .rightOperand)
    | some (op, span), some right =>
      have := size_le_of_find? h
      have := size_eq link
      have := sizeAll_cons link others
      match toExpr right with
      | .error e => .error e
      | .ok e => joinLinks operand (.binary op span left e) others
termination_by 2 * (1 + sizeAll links)
end

end Node

end Reckoner
