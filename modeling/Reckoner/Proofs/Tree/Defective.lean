import Reckoner.Proofs.Expr.Meaning
import Reckoner.Proofs.Tree.Search

/-!
# Defective nodes

What makes a node unfit to be read as an expression, said by the nodes that it has and not by how
they are looked for.  Where a tree has no expression, what is reported is a defect of one of its
nodes, at the span of that node (`blames_toExpr`).
-/

namespace Reckoner

open Grammar

namespace Node

/-- A node does not have what its rule asks for. -/
inductive Lacks (n : Node) : Part → Prop where
  | firstOperand (l : Chain) (rule : n.rule = l.rule)
    (none : ∀ m ∈ n.children, m.rule ≠ l.operand.rule) : Lacks n .firstOperand
  | alternative (rule : n.rule = .factor)
    (none : ∀ m ∈ n.children, m.rule ∉ [.function, .unary, .number, .parenExpr]) :
    Lacks n .alternative
  | sign (rule : n.rule = .unary) (none : ∀ m ∈ n.nodes, m.rule.isSign = false) : Lacks n .sign
  | operand (rule : n.rule = .unary) (none : ∀ m ∈ n.nodes, m.rule ≠ .factor) : Lacks n .operand
  | functionName (rule : n.rule = .function) (none : ∀ m ∈ n.nodes, m.rule ≠ .functionName) :
    Lacks n .functionName
  | argument (rule : n.rule = .function) (none : ∀ m ∈ n.nodes, m.rule ≠ .expr) :
    Lacks n .argument
  | innerExpression (rule : n.rule = .parenExpr) (none : ∀ m ∈ n.nodes, m.rule ≠ .expr) :
    Lacks n .innerExpression

/-- A link of a chain lacks one of its parts. -/
inductive LinkLacks (l : Chain) (n : Node) : Part → Prop where
  | operator (none : ∀ m ∈ n.nodes, m.rule.isOperator = false) : LinkLacks l n .operator
  | rightOperand (none : ∀ m ∈ n.nodes, m.rule ≠ l.operand.rule) : LinkLacks l n .rightOperand

/-- A node of the tree `root` has a defect. -/
inductive Defective (root : Node) : Node → Defect → Prop where
  | part {n part} (inside : n ∈ root.nodes) (lacks : n.Lacks part) :
    Defective root n (.missing n.rule part)
  | link {chain repetition n part} (inside : chain ∈ root.nodes) (l : Chain)
    (rule : chain.rule = l.rule) (links : chain.child? .repetition = some repetition)
    (link : n ∈ repetition.children) (lacks : LinkLacks l n part) :
    Defective root n (.missing n.rule part)
  | unexpected {n} (inside : n ∈ root.nodes)
    (rule : n.rule.isToken = true ∧ n.rule ≠ .number ∨ n.rule = .repetition ∨ n.rule = .link) :
    Defective root n (.unexpected n.rule)

/-- What is reported on a tree is a defect of one of its nodes and is reported there. -/
def Blames (root : Node) (e : TreeError) : Prop :=
  ∃ n, Defective root n e.defect ∧ n.span = e.span

variable {root n m link right : Node} {operand : Rule} {left : Expr} {links : List Node}
variable {e : TreeError} {part : Part}

/-- A defect in a part of a tree is one of the tree. -/
lemma Blames.mono (inside : m ∈ root.nodes) (h : Blames m e) : Blames root e := by
  obtain ⟨n, defective, span⟩ := h
  refine ⟨n, ?_, span⟩
  generalize e.defect = d at defective
  cases defective with
  | part within lacks => exact .part (mem_nodes_trans within inside) lacks
  | link within l rule links link lacks =>
    exact .link (mem_nodes_trans within inside) l rule links link lacks
  | unexpected within rule => exact .unexpected (mem_nodes_trans within inside) rule

/-- A node that lacks something is blamed for it. -/
lemma blames_lacks (lacks : n.Lacks part) : n.Blames (n.lacks part) :=
  ⟨n, .part n.mem_nodes_self lacks, rfl⟩

/-- A search for a token that always stands for something finds it wherever there is one. -/
lemma token?_eq_none {α : Type} {p : Rule → Bool} {ofRule? : Rule → Option α}
    (known : ∀ rule, (ofRule? rule).isSome = p rule)
    (h : ((n.find? p).bind fun m => (ofRule? m.rule).map (·, m.span)) = none) :
    ∀ m ∈ n.nodes, p m.rule = false := by
  apply find?_eq_none_iff.mp
  cases hit : n.find? p with
  | none => rfl
  | some m =>
    have some := (known m.rule).trans (rule_of_find? hit)
    obtain ⟨x, eq⟩ := Option.isSome_iff_exists.mp some
    simp [hit, eq] at h

/-- Where no operator is found there is none. -/
lemma operator?_eq_none (h : n.operator? = none) : ∀ m ∈ n.nodes, m.rule.isOperator = false :=
  token?_eq_none BinaryOp.isSome_ofRule? h

/-- Where no sign is found there is none. -/
lemma sign?_eq_none (h : n.sign? = none) : ∀ m ∈ n.nodes, m.rule.isSign = false :=
  token?_eq_none UnaryOp.isSome_ofRule? h

/-- Where no alternative is found there is none. -/
lemma alternative?_eq_none (h : n.alternative? = none) :
    ∀ m ∈ n.children, m.rule ∉ [.function, .unary, .number, .parenExpr] := by
  intro m part listed
  rw [alternative?, List.findSome?_eq_none_iff] at h
  exact child?_eq_none_iff.mp (h m.rule listed) m part rfl

/-- The alternative that is found is in the tree. -/
lemma mem_nodes_of_alternative? (h : n.alternative? = some m) : m ∈ n.nodes := by
  obtain ⟨rule, _, hit⟩ := List.exists_of_findSome?_eq_some h
  exact mem_nodes_of_child? hit

/-- Links fail where one of them lacks a part or has an operand that fails. -/
lemma joinLinks_error (h : joinLinks operand left links = .error e) :
    ∃ link ∈ links,
      link.operator? = none ∧ e = link.lacks .operator ∨
      link.findRule? operand = none ∧ e = link.lacks .rightOperand ∨
      ∃ right, link.findRule? operand = some right ∧ right.toExpr = .error e := by
  induction links generalizing left with
  | nil =>
    rw [joinLinks] at h
    cases h
  | cons link others ih =>
    rw [joinLinks] at h
    split at h
    case h_1 none =>
      cases h
      exact ⟨link, List.mem_cons_self, .inl ⟨none, rfl⟩⟩
    case h_2 none =>
      cases h
      exact ⟨link, List.mem_cons_self, .inr (.inl ⟨none, rfl⟩)⟩
    case h_3 right joint found =>
      split at h
      case h_1 error =>
        cases h
        exact ⟨link, List.mem_cons_self, .inr (.inr ⟨right, found, error⟩)⟩
      case h_2 =>
        obtain ⟨link, mem, fails⟩ := ih h
        exact ⟨link, List.mem_cons_of_mem _ mem, fails⟩

/-- A chain fails where it lacks its first operand, where that fails, or where its links do. -/
lemma toChain_error (h : toChain n operand = .error e) :
    n.child? operand = none ∧ e = n.lacks .firstOperand ∨
    (∃ first, n.child? operand = some first ∧ first.toExpr = .error e) ∨
    ∃ repetition left, n.child? .repetition = some repetition ∧
      joinLinks operand left repetition.children = .error e := by
  rw [toChain] at h
  split at h
  case h_1 none =>
    cases h
    exact .inl ⟨none, rfl⟩
  case h_2 first found =>
    split at h
    case h_1 error =>
      cases h
      exact .inr (.inl ⟨first, found, error⟩)
    case h_2 left _ =>
      split at h
      case h_1 => cases h
      case h_2 repetition links => exact .inr (.inr ⟨repetition, left, links, h⟩)

/-- A chain without expression has a defect of its own, or it has an operand without expression. -/
lemma toChain_fails (l : Chain) (rule : n.rule = l.rule)
    (h : toChain n l.operand.rule = .error e) :
    n.Blames e ∨ ∃ m ∈ n.nodes, m.size < n.size ∧ m.toExpr = .error e := by
  rcases toChain_error h with ⟨none, rfl⟩ | ⟨first, found, fails⟩ | ⟨repetition, _, links, fails⟩
  · exact .inl (blames_lacks (.firstOperand l rule (child?_eq_none_iff.mp none)))
  · exact .inr ⟨first, mem_nodes_of_child? found, size_lt_of_child? found, fails⟩
  · obtain ⟨link, mem, fails⟩ := joinLinks_error fails
    have lacks (part : Part) (lacks : LinkLacks l link part) : n.Blames (link.lacks part) :=
      ⟨link, .link n.mem_nodes_self l rule links mem lacks, rfl⟩
    rcases fails with ⟨none, rfl⟩ | ⟨none, rfl⟩ | ⟨right, found, fails⟩
    · exact .inl (lacks _ (.operator (operator?_eq_none none)))
    · exact .inl (lacks _ (.rightOperand (findRule?_eq_none_iff.mp none)))
    · have inside := mem_nodes_of_child mem (mem_nodes_of_find? found)
      have smaller := (size_le_of_find? found).trans_lt (size_lt_of_mem mem)
      refine .inr ⟨right, ?_, smaller.trans (size_lt_of_child? links), fails⟩
      exact mem_nodes_trans inside (mem_nodes_of_child? links)

/-- What is made of an expression fails for the reason that the expression does. -/
lemma error_of_map_error {x : Except TreeError Expr} {f : Expr → Expr}
    (h : x.map f = .error e) : x = .error e := by
  cases x with
  | error => exact h
  | ok => cases h

/-- A tree without expression has a defect of its own, or a smaller tree in it has none. -/
lemma toExpr_fails (h : n.toExpr = .error e) :
    n.Blames e ∨ ∃ m ∈ n.nodes, m.size < n.size ∧ m.toExpr = .error e := by
  have inner {operand : Rule} {m : Node} (found : n.findRule? operand = some m)
      (other : n.rule ≠ operand) (fails : m.toExpr = .error e) :
      ∃ m ∈ n.nodes, m.size < n.size ∧ m.toExpr = .error e :=
    ⟨m, mem_nodes_of_find? found, size_lt_of_findRule? found other, fails⟩
  rw [toExpr] at h
  split at h
  case h_1 rule => exact toChain_fails .sum rule h
  case h_2 rule => exact toChain_fails .product rule h
  case h_3 rule =>
    split at h
    case h_1 none =>
      cases h
      exact .inl (blames_lacks (.alternative rule (alternative?_eq_none none)))
    case h_2 m found =>
      exact .inr ⟨m, mem_nodes_of_alternative? found, size_lt_of_alternative? found, h⟩
  case h_4 rule =>
    split at h
    case h_1 none =>
      cases h
      exact .inl (blames_lacks (.sign rule (sign?_eq_none none)))
    case h_2 none =>
      cases h
      exact .inl (blames_lacks (.operand rule (findRule?_eq_none_iff.mp none)))
    case h_3 found =>
      exact .inr (inner found (by simp [rule]) (error_of_map_error h))
  case h_5 rule =>
    split at h
    case h_1 none =>
      cases h
      exact .inl (blames_lacks (.functionName rule (findRule?_eq_none_iff.mp none)))
    case h_2 none =>
      cases h
      exact .inl (blames_lacks (.argument rule (findRule?_eq_none_iff.mp none)))
    case h_3 found =>
      exact .inr (inner found (by simp [rule]) (error_of_map_error h))
  case h_6 rule =>
    split at h
    case h_1 none =>
      cases h
      exact .inl (blames_lacks (.innerExpression rule (findRule?_eq_none_iff.mp none)))
    case h_2 found => exact .inr (inner found (by simp [rule]) h)
  case h_7 rule => cases h
  case h_8 expr term factor unary function parenExpr number =>
    -- no other rule stands for an expression
    cases h
    refine .inl ⟨n, .unexpected n.mem_nodes_self ?_, rfl⟩
    cases rule : n.rule with
    | expr => exact (expr rule).elim
    | term => exact (term rule).elim
    | factor => exact (factor rule).elim
    | unary => exact (unary rule).elim
    | function => exact (function rule).elim
    | parenExpr => exact (parenExpr rule).elim
    | number => exact (number rule).elim
    | repetition => exact .inr (.inl rfl)
    | link => exact .inr (.inr rfl)
    | plus | minus | star | slash | functionName | openParen | closeParen =>
      exact .inl ⟨rfl, by simp⟩

/-- Where a tree has no expression, a defect of one of its nodes is reported, at that node. -/
lemma blames_toExpr (h : n.toExpr = .error e) : n.Blames e := by
  induction size : n.size using Nat.strong_induction_on generalizing n with
  | h _ ih =>
    rcases toExpr_fails h with here | ⟨m, inside, smaller, fails⟩
    · exact here
    · exact (ih _ (size ▸ smaller) fails rfl).mono inside

end Node

end Reckoner
