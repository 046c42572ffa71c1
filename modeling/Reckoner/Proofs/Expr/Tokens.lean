import Reckoner.Proofs.Expr.Written

/-!
# Tokens

The tokens of a parse tree from left to right, and the tokens that the nodes of an expression point
at, in infix order.  Reading a tree as an expression loses nothing but parentheses, repeats nothing
and keeps the order (`tokens_parse`).
-/

namespace Reckoner

/-- The rules without parts. -/
def Rule.isToken : Rule → Bool
  | number | plus | minus | star | slash | functionName | openParen | closeParen => true
  | _ => false

/-- The tokens that an expression does without. -/
def Rule.isParenthesis : Rule → Bool
  | openParen | closeParen => true
  | _ => false

namespace Node

variable {rule : Rule} {span : Span} {s : Text} {n : Node} {ns : List Node} {o : Nat}

/-- The tokens of a tree, from the left. -/
def tokens (n : Node) : List Node := ((n.outline 0).map (·.2)).filter (·.rule.isToken)

/-- The tokens of a tree other than parentheses, from the left. -/
def marks (n : Node) : List Node := n.tokens.filter (!·.rule.isParenthesis)

mutual
/-- The depth at which an outline begins does not change its nodes. -/
lemma outline_depth (a b : Nat) : ∀ n : Node, (n.outline a).map (·.2) = (n.outline b).map (·.2)
  | ⟨rule, span, text, children⟩ => by
    simp only [outline, List.map_cons, outlineAll_depth (a + 1) (b + 1) children]

/-- The depth does not change the nodes of a list of trees either. -/
lemma outlineAll_depth (a b : Nat) :
    ∀ ns : List Node, (outlineAll a ns).map (·.2) = (outlineAll b ns).map (·.2)
  | [] => rfl
  | n :: ns => by
    simp only [outlineAll, List.map_append, outline_depth a b n, outlineAll_depth a b ns]
end

/-- The tokens of a node that is none are those of its parts. -/
lemma tokens_parts (inner : rule.isToken = false) :
    tokens ⟨rule, span, s, ns⟩ = ns.flatMap tokens := by
  have parts : ∀ ns : List Node,
      ((outlineAll 1 ns).map (·.2)).filter (·.rule.isToken) = ns.flatMap tokens := by
    intro ns
    induction ns with
    | nil => rfl
    | cons n ns ih =>
      rw [outlineAll, List.map_append, List.filter_append, ih, outline_depth 1 0 n]
      rfl
  rw [tokens, outline, List.map_cons, List.filter_cons_of_neg (by simp [inner]), parts]

/-- The marks of a node that is no token are those of its parts. -/
lemma marks_parts (inner : rule.isToken = false) :
    marks ⟨rule, span, s, ns⟩ = ns.flatMap marks := by
  rw [marks, tokens_parts inner, List.filter_flatMap]
  rfl

/-- A token other than a parenthesis is its own mark. -/
lemma marks_leaf (token : rule.isToken = true) (mark : rule.isParenthesis = false) :
    (leaf rule o s).marks = [leaf rule o s] := by
  simp [marks, tokens, leaf, outline, outlineAll, token, mark]

/-- A parenthesis leaves no mark. -/
lemma marks_paren (paren : rule.isParenthesis = true) : (leaf rule o s).marks = [] := by
  simp [marks, tokens, leaf, outline, outlineAll, paren]

end Node

/-- The tokens that the nodes of an expression over a text point at: a sign or a name before what it
applies to, an operator between its operands. -/
def Expr.tokens (t : Text) : Expr → List Node
  | number span => [⟨.number, span, t.slice span, []⟩]
  | unary op span operand => ⟨op.rule, span, [op.symbol], []⟩ :: operand.tokens t
  | binary op span left right =>
    left.tokens t ++ ⟨op.rule, span, [op.symbol], []⟩ :: right.tokens t
  | call name span argument => ⟨.functionName, span, name.toList, []⟩ :: argument.tokens t

/-- From `start` on the nodes cover something each, one after the other, up to `stop`. -/
inductive Successive : (start : Nat) → List Node → (stop : Nat) → Prop where
  | nil {start stop} (le : start ≤ stop) : Successive start [] stop
  | cons {start stop n ns} (le : start ≤ n.span.start) (lt : n.span.start < n.span.stop) :
    Successive n.span.stop ns stop →
    Successive start (n :: ns) stop

namespace Successive

variable {start middle stop : Nat} {ns ms : List Node}

/-- What follows each other goes on to the right. -/
lemma le (h : Successive start ns stop) : start ≤ stop := by
  induction h with
  | nil le => exact le
  | cons le lt _ ih => exact le.trans (lt.le.trans ih)

/-- What begins later may be said to begin earlier. -/
lemma mono {first : Nat} (le : first ≤ start) (h : Successive start ns stop) :
    Successive first ns stop := by
  cases h with
  | nil le' => exact .nil (le.trans le')
  | cons le' lt more => exact .cons (le.trans le') lt more

/-- Nodes that go on where others stop follow them. -/
lemma append (h1 : Successive start ns middle) (h2 : Successive middle ms stop) :
    Successive start (ns ++ ms) stop := by
  induction h1 with
  | nil le => exact h2.mono le
  | cons le lt _ ih => exact .cons le lt (ih h2)

/-- Each of the nodes covers something, and none begins before the first. -/
lemma mem (h : Successive start ns stop) :
    ∀ n ∈ ns, start ≤ n.span.start ∧ n.span.start < n.span.stop := by
  induction h with
  | nil => exact List.forall_mem_nil _
  | cons le lt more ih =>
    intro m mem
    cases mem with
    | head => exact ⟨le, lt⟩
    | tail _ mem =>
      obtain ⟨after, some⟩ := ih m mem
      exact ⟨le.trans (lt.le.trans after), some⟩

/-- No node begins before the end of one to its left. -/
lemma pairwise (h : Successive start ns stop) :
    ns.Pairwise fun a b => a.span.stop ≤ b.span.start := by
  induction h with
  | nil => exact .nil
  | cons le lt more ih => exact .cons (fun m mem => (more.mem m mem).1) ih

end Successive

/-- A sign is its own mark. -/
lemma UnaryOp.marks_leaf (op : UnaryOp) {o : Nat} :
    (Node.leaf op.rule o [op.symbol]).marks = [Node.leaf op.rule o [op.symbol]] := by
  cases op <;> exact Node.marks_leaf rfl rfl

/-- An operator is its own mark. -/
lemma BinaryOp.marks_leaf (op : BinaryOp) {o : Nat} :
    (Node.leaf op.rule o [op.symbol]).marks = [Node.leaf op.rule o [op.symbol]] := by
  cases op <;> exact Node.marks_leaf rfl rfl

/-- Tokens cover something. -/
lemma Lexeme.size_pos {p : Char → Bool} (s : Lexeme p) : 0 < s.text.size :=
  Nat.pos_of_ne_zero (mt Text.eq_nil_of_size_eq_zero s.nonempty)

namespace Grammar

open Node

variable {k : Category} {l : Chain} {t u v : Text} {o : Nat}

/-- The tokens before those of what a category derives. -/
def Category.carried (t : Text) (left : Expr) : Category → List Node
  | links _ => left.tokens t
  | _ => []

/-- Nothing is carried over to the operand of a chain. -/
lemma Category.carried_operand (left : Expr) : l.operand.carried t left = [] := by
  cases l <;> rfl

namespace Derivation

/-! The tokens of a tree are those of its parts. -/

section

variable {w v : Blanks}

/-- The mark of a number is its token. -/
lemma marks_number {s : Lexeme isNumeric} :
    ((number w s).tree o).marks = [leaf .number (o + w.text.size) s.text] := by
  rw [tree, node, marks_parts rfl, List.flatMap_singleton, marks_leaf rfl rfl]

/-- A sign stands before the marks of its operand. -/
lemma marks_signed {op : UnaryOp} {x : Derivation .operand} :
    let sign := leaf op.rule (o + w.text.size) [op.symbol]
    ((signed w op x).tree o).marks = sign :: (x.tree sign.span.stop).marks := by
  rw [tree, node, marks_parts rfl, List.flatMap_singleton, node, marks_parts rfl,
    List.flatMap_cons, op.marks_leaf, List.flatMap_singleton]
  rfl

/-- A name stands before the marks of its argument. -/
lemma marks_call {name : Lexeme isLetter} {x : Derivation .group} :
    let called := leaf .functionName (o + w.text.size) name.text
    ((call w name x).tree o).marks = called :: (x.tree called.span.stop).marks := by
  rw [tree, node, marks_parts rfl, List.flatMap_singleton, node, marks_parts rfl,
    List.flatMap_cons, marks_leaf rfl rfl, List.flatMap_singleton]
  rfl

/-- An operand in parentheses has the marks of what it encloses. -/
lemma marks_grouped {x : Derivation .group} :
    ((grouped x).tree o).marks = (x.tree o).marks := by
  rw [tree, node, marks_parts rfl, List.flatMap_singleton]

/-- Parentheses have the marks of what is between them. -/
lemma marks_group {x : Derivation (.chain .sum)} :
    ((group w x v).tree o).marks = (x.tree (Span.ofChar (o + w.text.size) '(').stop).marks := by
  rw [tree, node, marks_parts rfl, List.flatMap_cons, marks_paren rfl, List.flatMap_cons,
    List.flatMap_singleton, marks_paren rfl, List.append_nil]
  rfl

/-- The marks of a chain are those of its first operand and then of its links. -/
lemma marks_chain {x : Derivation l.operand} {y : Derivation (.links l)} :
    ((chain x y).tree o).marks = (x.tree o).marks ++ (y.tree (o + x.text.size)).marks := by
  have inner : l.rule.isToken = false := by cases l <;> rfl
  rw [tree, node, marks_parts inner]
  simp

/-- Links that are none leave no mark. -/
lemma marks_nil : ((nil : Derivation (.links l)).tree o).marks = [] := by
  rw [tree, node, marks_parts rfl, List.flatMap_nil]

/-- An operator stands before the marks of its operand, and then come the other links. -/
lemma marks_cons {op : BinaryOp} {joins : op.chain = l} {x : Derivation l.operand}
    {y : Derivation (.links l)} :
    let joint := leaf op.rule (o + w.text.size) [op.symbol]
    ((cons w op joins x y).tree o).marks =
      joint :: ((x.tree joint.span.stop).marks ++
        (y.tree (joint.span.stop + x.text.size)).marks) := by
  have others (o : Nat) : (y.tree o).marks = (y.tree o).children.flatMap marks := by
    cases y <;> exact marks_parts rfl
  rw [tree, node, marks_parts rfl, List.flatMap_cons, marks_parts rfl, ← others]
  simp [op.marks_leaf]

end

/-- What a derivation means points at the tokens of its tree, from the left. -/
theorem tokens_meaning (x : Derivation k) (left : Expr) (start : o = u.size)
    (eq : t = u ++ (x.text ++ v)) :
    (x.meaning left o).tokens t = k.carried t left ++ (x.tree o).marks := by
  induction x generalizing left o u v with
  | number w s =>
    have written : t.slice ⟨o + w.text.size, o + w.text.size + s.text.size⟩ = s.text := by
      apply Text.slice_middle (u := u ++ w.text) (r := v)
      · rw [start, Text.size_append]
      · simp [eq, text]
    rw [marks_number, meaning, Expr.tokens, written]
    rfl
  | signed w op x ih =>
    have inner := ih (u := u ++ (w.text ++ [op.symbol])) (v := v)
      (o := (Span.ofChar (o + w.text.size) op.symbol).stop) left
      (by simp [start, Span.ofChar, Nat.add_assoc]) (by simp [eq, text])
    rw [marks_signed, meaning, Expr.tokens, inner]
    rfl
  | call w name x ih =>
    have inner := ih (u := u ++ (w.text ++ name.text)) (v := v)
      (o := o + w.text.size + name.text.size) left
      (by simp [start, Nat.add_assoc]) (by simp [eq, text])
    rw [marks_call, meaning, Expr.tokens, inner, String.toList_ofList]
    rfl
  | grouped x ih =>
    rw [marks_grouped, meaning, ih left start eq]
    rfl
  | group w x w' ih =>
    rw [marks_group, meaning]
    apply ih (u := u ++ (w.text ++ ['('])) (v := w'.text ++ ')' :: v)
    · simp [start, Span.ofChar, Nat.add_assoc]
    · simp [eq, text]
  | @chain l x y ih1 ih2 =>
    have first := ih1 (u := u) (v := y.text ++ v) left start (by simp [eq, text])
    -- what the first operand means is carried over to the links, which join it
    have others := ih2 (u := u ++ x.text) (v := v) (o := o + x.text.size) (x.meaning left o)
      (by simp [start]) (by simp [eq, text])
    rw [Category.carried_operand, List.nil_append] at first
    rw [marks_chain, meaning, others, Category.carried, first]
    rfl
  | nil => rw [marks_nil, meaning, Category.carried, List.append_nil]
  | @cons l w op joins x y ih1 ih2 =>
    let joint := Span.ofChar (o + w.text.size) op.symbol
    let right := x.meaning left joint.stop
    have operand := ih1 (u := u ++ (w.text ++ [op.symbol])) (v := y.text ++ v)
      (o := joint.stop) left
      (by simp [start, joint, Span.ofChar, Nat.add_assoc]) (by simp [eq, text])
    have others := ih2 (u := u ++ (w.text ++ (op.symbol :: x.text))) (v := v)
      (o := joint.stop + x.text.size) (.binary op joint left right)
      (by simp [start, joint, Span.ofChar, Nat.add_assoc]) (by simp [eq, text])
    rw [Category.carried_operand, List.nil_append] at operand
    rw [marks_cons, meaning, others, Category.carried, Category.carried, Expr.tokens, operand]
    simp [leaf, joint, Span.ofChar]

/-- The tokens of a tree stand one after the other in its text. -/
theorem successive_marks (x : Derivation k) {stop : Nat} (le : o + x.text.size ≤ stop) :
    Successive o (x.tree o).marks stop := by
  induction x generalizing o stop with
  | number w s =>
    rw [marks_number]
    refine .cons (Nat.le_add_right ..) (Nat.lt_add_of_pos_right s.size_pos) (.nil ?_)
    simpa [text, leaf, Nat.add_assoc] using le
  | signed w op x ih =>
    rw [marks_signed]
    refine .cons (Nat.le_add_right ..) (Nat.lt_add_of_pos_right op.symbol.utf8Size_pos) (ih ?_)
    simpa [text, leaf, Nat.add_assoc] using le
  | call w name x ih =>
    rw [marks_call]
    refine .cons (Nat.le_add_right ..) (Nat.lt_add_of_pos_right name.size_pos) (ih ?_)
    simpa [text, leaf, Nat.add_assoc] using le
  | grouped x ih =>
    rw [marks_grouped]
    exact ih le
  | group w x v ih =>
    have fits : (Span.ofChar (o + w.text.size) '(').stop + x.text.size ≤ stop := by
      simp only [text, Text.size_append, Text.size_cons, Text.size_nil] at le
      simp only [Span.ofChar]
      omega
    rw [marks_group]
    exact (ih fits).mono (Nat.le_add_right_of_le (Nat.le_add_right ..))
  | @chain l x y ih1 ih2 =>
    rw [marks_chain]
    refine (ih1 le_rfl).append (ih2 ?_)
    simpa [text, Nat.add_assoc] using le
  | nil =>
    rw [marks_nil]
    exact .nil le
  | @cons l w op joins x y ih1 ih2 =>
    rw [marks_cons]
    refine .cons (Nat.le_add_right ..) (Nat.lt_add_of_pos_right op.symbol.utf8Size_pos) ?_
    refine (ih1 le_rfl).append (ih2 ?_)
    simpa [text, leaf, Nat.add_assoc] using le

end Derivation

end Grammar

open Grammar

/-- Where reading succeeds the tree has an expression, and that points at the tokens of the tree
other than parentheses: all of them, each once and in their order. -/
theorem tokens_parse {t : Text} (h : (parse t).issue.succeeded = true) :
    ∃ root e, (parse t).root = some root ∧ root.toExpr = .ok e ∧
      e.tokens t = root.tokens.filter (!·.rule.isParenthesis) ∧
      (e.tokens t).Pairwise (fun a b => a.span.stop ≤ b.span.start) ∧
      ∀ n ∈ e.tokens t, n.span.start < n.span.stop := by
  rcases parse_cases t with ⟨x, w, r, _, eq, parsed⟩ | ⟨_, _, parsed⟩
  · have mapped : (x.tree 0).toExpr = .ok (x.meaning default 0) := x.toExpr_tree default 0
    have tokens : (x.meaning default 0).tokens t = (x.tree 0).marks :=
      x.tokens_meaning (u := []) (v := w.text ++ r) default rfl eq
    have successive := x.successive_marks (o := 0) le_rfl
    refine ⟨x.tree 0, _, by rw [parsed], mapped, tokens, ?_, ?_⟩
    · rw [tokens]
      exact successive.pairwise
    · intro n mem
      rw [tokens] at mem
      exact (successive.mem n mem).2
  · rw [parsed] at h
    cases h

/-- In `(1)+-2` the expression points at all tokens but the parentheses. -/
theorem tokens_parse_signed :
    ∃ root e, (parse ['(', '1', ')', '+', '-', '2']).root = some root ∧ root.toExpr = .ok e ∧
      (e.tokens ['(', '1', ')', '+', '-', '2']).map (·.text) = [['1'], ['+'], ['-'], ['2']] := by
  have succeeded : (parse ['(', '1', ')', '+', '-', '2']).issue.succeeded = true := by
    decide +kernel
  have texts : (parse ['(', '1', ')', '+', '-', '2']).root.map
      (fun n => (n.tokens.filter (!·.rule.isParenthesis)).map (·.text)) =
        some [['1'], ['+'], ['-'], ['2']] := by
    decide +kernel
  obtain ⟨root, e, read, mapped, same, _⟩ := tokens_parse succeeded
  refine ⟨root, e, read, mapped, ?_⟩
  rw [read, Option.map_some, Option.some.injEq] at texts
  rw [same, texts]

end Reckoner
