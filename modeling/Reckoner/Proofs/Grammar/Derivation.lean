import Reckoner.Expr.Basic
import Reckoner.Proofs.Grammar.Token

/-!
# Derivations

The grammar of expressions on its own, without a way to read it.  A derivation is a choice of rules
and tokens,

* `sum := product (('+' | '-') product)*`,
* `product := operand (('*' | '/') operand)*`,
* `operand := call | signed | number | group`,
* `signed := ('+' | '-') operand`, `call := name group`, `group := '(' sum ')'`,

with any spaces before every token.  It stands for a text, it nests operands so and so deep, and at
an offset it has a parse tree.  A tree covers its text from the first token on (`tree_span`).
-/

namespace Reckoner

/-- The kinds of chains: operands joined by operators that bind alike. -/
inductive Chain where
  | sum
  | product
  deriving DecidableEq

/-- The chains that an operator joins. -/
def BinaryOp.chain : BinaryOp → Chain
  | add | sub => .sum
  | mul | div => .product

/-- The token of an operator. -/
def BinaryOp.rule : BinaryOp → Rule
  | add => .plus
  | sub => .minus
  | mul => .star
  | div => .slash

/-- The token of a sign. -/
def UnaryOp.rule : UnaryOp → Rule
  | negate => .minus
  | keep => .plus

namespace Grammar

/-- What can be derived. -/
inductive Category where
  | operand
  | group
  | chain (l : Chain)
  | links (l : Chain)

end Grammar

/-- What the operators of a chain join. -/
def Chain.operand : Chain → Grammar.Category
  | sum => .chain .product
  | product => .operand

/-- The rule of a chain's node. -/
def Chain.rule : Chain → Rule
  | sum => .expr
  | product => .term

namespace Grammar

/-- The rule of a category's node. -/
def Category.rule : Category → Rule
  | operand => .factor
  | group => .parenExpr
  | chain l => l.rule
  | links _ => .repetition

/-- A way to derive a text. -/
inductive Derivation : Category → Type where
  | number (before : Blanks) (lexeme : Lexeme isNumeric) : Derivation .operand
  | signed (before : Blanks) (op : UnaryOp) (operand : Derivation .operand) : Derivation .operand
  | call (before : Blanks) (name : Lexeme isLetter) (argument : Derivation .group) :
    Derivation .operand
  | grouped (inner : Derivation .group) : Derivation .operand
  | group (opening : Blanks) (inner : Derivation (.chain .sum)) (closing : Blanks) :
    Derivation .group
  | chain {l : Chain} (first : Derivation l.operand) (others : Derivation (.links l)) :
    Derivation (.chain l)
  | nil {l : Chain} : Derivation (.links l)
  | cons {l : Chain} (before : Blanks) (op : BinaryOp) (joins : op.chain = l)
    (operand : Derivation l.operand) (others : Derivation (.links l)) : Derivation (.links l)

namespace Derivation

variable {k : Category} {l : Chain}

/-- The text that is derived. -/
def text {k : Category} : Derivation k → Text
  | number before lexeme => before.text ++ lexeme.text
  | signed before op operand => before.text ++ op.symbol :: operand.text
  | call before name argument => before.text ++ (name.text ++ argument.text)
  | grouped inner => inner.text
  | group opening inner closing => opening.text ++ '(' :: (inner.text ++ (closing.text ++ [')']))
  | chain first others => first.text ++ others.text
  | nil => []
  | cons before op _ operand others => before.text ++ op.symbol :: (operand.text ++ others.text)

/-- The largest number of signs, calls and parentheses around an operand. -/
def nesting {k : Category} : Derivation k → Nat
  | number _ _ => 0
  | signed _ _ operand => operand.nesting + 1
  | call _ _ argument => argument.nesting
  | grouped inner => inner.nesting
  | group _ inner _ => inner.nesting + 1
  | chain first others => max first.nesting others.nesting
  | nil => 0
  | cons _ _ _ operand others => max operand.nesting others.nesting

/-- The spaces before the first token. -/
def lead {k : Category} : Derivation k → Text
  | number before _ => before.text
  | signed before _ _ => before.text
  | call before _ _ => before.text
  | grouped inner => inner.lead
  | group opening _ _ => opening.text
  | chain first _ => first.lead
  | nil => []
  | cons before _ _ _ _ => before.text

/-- The text from the first token on. -/
def body (x : Derivation k) : Text := x.text.drop x.lead.length

/-- What the derivation covers when its text stands at an offset. -/
def span (x : Derivation k) (offset : Nat) : Span :=
  ⟨offset + x.lead.size, offset + x.text.size⟩

/-- The node of a rule over what the derivation covers. -/
def node (x : Derivation k) (rule : Rule) (offset : Nat) (children : List Node) : Node :=
  ⟨rule, x.span offset, x.body, children⟩

/-- The parse tree of a derivation whose text stands at an offset. -/
def tree {k : Category} : Derivation k → (offset : Nat) → Node
  | number before lexeme, o =>
    (number before lexeme).node .factor o [.leaf .number (o + before.text.size) lexeme.text]
  | signed before op operand, o =>
    let x := signed before op operand
    let sign := Node.leaf op.rule (o + before.text.size) [op.symbol]
    x.node .factor o [x.node .unary o [sign, operand.tree sign.span.stop]]
  | call before name argument, o =>
    let x := call before name argument
    let called := Node.leaf .functionName (o + before.text.size) name.text
    x.node .factor o [x.node .function o [called, argument.tree called.span.stop]]
  | grouped inner, o => (grouped inner).node .factor o [inner.tree o]
  | group opening inner closing, o =>
    let opened := Node.leaf .openParen (o + opening.text.size) ['(']
    let closed :=
      Node.leaf .closeParen (opened.span.stop + inner.text.size + closing.text.size) [')']
    (group opening inner closing).node .parenExpr o
      [opened, inner.tree opened.span.stop, closed]
  | chain (l := l) first others, o =>
    (chain first others).node l.rule o [first.tree o, others.tree (o + first.text.size)]
  | nil (l := l), o => (nil : Derivation (.links l)).node .repetition o []
  | cons before op joins operand others, o =>
    let joint := Node.leaf op.rule (o + before.text.size) [op.symbol]
    let stop := joint.span.stop + operand.text.size
    let link : Node :=
      ⟨.link, ⟨joint.span.start, stop⟩, op.symbol :: operand.text,
        [joint, operand.tree joint.span.stop]⟩
    (cons before op joins operand others).node .repetition o (link :: (others.tree stop).children)

/-- A derived text is the spaces before it and what follows them. -/
lemma lead_append_body (x : Derivation k) : x.lead ++ x.body = x.text := by
  have h : ∃ s, x.text = x.lead ++ s := by
    induction x with
    | number before lexeme => exact ⟨_, rfl⟩
    | signed before op operand => exact ⟨_, rfl⟩
    | call before name argument => exact ⟨_, rfl⟩
    | grouped inner ih => exact ih
    | group opening inner closing => exact ⟨_, rfl⟩
    | chain first others ih =>
      obtain ⟨s, eq⟩ := ih
      exact ⟨s ++ others.text, by rw [text, lead, eq, List.append_assoc]⟩
    | nil => exact ⟨[], rfl⟩
    | cons before op joins operand others => exact ⟨_, rfl⟩
  obtain ⟨s, eq⟩ := h
  rw [body, eq, List.drop_left]

/-- A tree covers its text from the first token on. -/
lemma tree_span (x : Derivation k) (o : Nat) : (x.tree o).span = x.span o := by
  cases x <;> rfl

/-- A tree applies the rule of what it derives. -/
lemma tree_rule (x : Derivation k) (o : Nat) : (x.tree o).rule = k.rule := by
  cases x <;> rfl

/-- The last link stops where the links stop. -/
lemma stop_last_link (x : Derivation (.links l)) (o : Nat) :
    ((x.tree o).children.getLast?.map (·.span.stop)).getD o = o + x.text.size := by
  generalize e : Category.links l = k at x
  induction x generalizing o with
  | nil => rfl
  | cons before op joins operand others _ ih =>
    have last := ih (o + before.text.size + Text.size [op.symbol] + operand.text.size) e
    simp only [tree, node, Node.leaf, List.getLast?_cons, Option.map_some, Option.getD_some]
    refine ((Option.getD_map (fun n : Node => n.span.stop) _ _).symm.trans last).trans ?_
    simp only [text, Text.size_append, Text.size_cons, Text.size_nil]
    omega
  | _ => cases e

end Derivation

end Grammar

end Reckoner
