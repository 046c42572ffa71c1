import Reckoner.Proofs.Grammar.Derivation

/-!
# Composition

Readers compose a node from the nodes of its parts, with the span from the first to the last and
the text that stands there.  Where the parts are trees of derivations the result is the tree of the
derivation put together from them: one lemma for each rule.
-/

namespace Reckoner.Grammar.Derivation

variable {k : Category} {l : Chain} {rule : Rule} {fallback : Nat}
variable {c d e f : Cursor} {a b : Node} {ns : List Node} {s : Text} {w v : Blanks}

/-- A tree starts after the blanks before it. -/
lemma span_start_tree (x : Derivation k) (o : Nat) :
    (x.tree o).span.start = o + x.lead.size := by
  rw [x.tree_span, span]

/-- A tree stops where its text was passed. -/
lemma span_stop_tree {x : Derivation k} (h : d.Passes x.text e) :
    (x.tree d.offset).span.stop = e.offset := by
  rw [x.tree_span, span, h.offset]

/-- What a derivation covers is extracted by a cursor before it. -/
lemma extract_span {x : Derivation k} (h1 : c.Passes s d) (h2 : d.Passes x.text e) :
    c.extract (x.span d.offset) = x.body := by
  have stop := h2.offset
  rw [← x.lead_append_body] at h2
  obtain ⟨m, h2, h3⟩ := h2.split
  have extract := (h1.trans h2).extract h3
  rwa [h2.offset, stop] at extract

/-- Nodes from the start of a derivation to its end compose to what it covers. -/
lemma compose_eq {x : Derivation k} (h1 : c.Passes s d) (h2 : d.Passes x.text e)
    (first : ns.head? = some a) (start : a.span.start = d.offset + x.lead.size)
    (last : ns.getLast? = some b) (stop : b.span.stop = e.offset) :
    .compose c.extract rule ns fallback = x.node rule d.offset ns := by
  have extract := x.extract_span h1 h2
  have span : (⟨a.span.start, b.span.stop⟩ : Span) = x.span d.offset := by
    rw [start, stop, h2.offset, Derivation.span]
  simp only [Node.compose, first, last, span, extract, Derivation.node]

/-- The only part of an operand. -/
def alternative : Derivation .operand → (offset : Nat) → Node
  | number before lexeme, o => .leaf .number (o + before.text.size) lexeme.text
  | signed before op operand, o =>
    let sign := Node.leaf op.rule (o + before.text.size) [op.symbol]
    (signed before op operand).node .unary o [sign, operand.tree sign.span.stop]
  | call before name argument, o =>
    let called := Node.leaf .functionName (o + before.text.size) name.text
    (call before name argument).node .function o [called, argument.tree called.span.stop]
  | grouped inner, o => inner.tree o

/-- The tree of an operand is a factor over the alternative it takes. -/
lemma tree_operand (x : Derivation .operand) (o : Nat) :
    x.tree o = x.node .factor o [x.alternative o] := by
  cases x <;> rfl

/-- The alternative that an operand takes spans the whole operand. -/
lemma alternative_span (x : Derivation .operand) (o : Nat) :
    (x.alternative o).span = x.span o := by
  cases x with
  | number before lexeme =>
    simp [alternative, Node.leaf, span, lead, text, Nat.add_assoc]
  | grouped inner => exact inner.tree_span o
  | signed => rfl
  | call => rfl

/-- An operand is composed of the alternative that it takes. -/
lemma compose_operand {x : Derivation .operand} (pass : c.Passes x.text d) :
    .compose c.extract .factor [x.alternative c.offset] fallback = x.tree c.offset := by
  have start : (x.alternative c.offset).span.start = c.offset + x.lead.size := by
    rw [x.alternative_span, span]
  have stop : (x.alternative c.offset).span.stop = d.offset := by
    rw [x.alternative_span, span, pass.offset]
  rw [compose_eq (.refl c) pass rfl start rfl stop, tree_operand]

section Signed

variable {op : UnaryOp} {x : Derivation .operand}

/-- A signed operand is passed as its sign and what follows it. -/
lemma passes_signed : c.Passes (signed w op x).text e ↔
    ∃ d, c.Passes (w.text ++ [op.symbol]) d ∧ d.Passes x.text e := by
  rw [← Cursor.passes_append, List.append_assoc]
  rfl

/-- A signed operand is composed of its sign and what follows it. -/
lemma compose_signed (h1 : c.Passes (w.text ++ [op.symbol]) d) (h2 : d.Passes x.text e) :
    .compose c.extract .unary
      [.leaf op.rule (c.offset + w.text.size) [op.symbol], x.tree d.offset] fallback =
    (signed w op x).alternative c.offset := by
  have pass := passes_signed.mpr ⟨d, h1, h2⟩
  rw [compose_eq (.refl c) pass rfl rfl rfl (span_stop_tree h2), h1.offset_append]
  rfl

end Signed

section Call

variable {name : Lexeme isLetter} {x : Derivation .group}

/-- A call is passed as its name and its argument. -/
lemma passes_call : c.Passes (call w name x).text e ↔
    ∃ d, c.Passes (w.text ++ name.text) d ∧ d.Passes x.text e := by
  rw [← Cursor.passes_append, List.append_assoc]
  rfl

/-- A call is composed of its name and its argument. -/
lemma compose_call (h1 : c.Passes (w.text ++ name.text) d) (h2 : d.Passes x.text e) :
    .compose c.extract .function
      [.leaf .functionName (c.offset + w.text.size) name.text, x.tree d.offset] fallback =
    (call w name x).alternative c.offset := by
  have pass := passes_call.mpr ⟨d, h1, h2⟩
  rw [compose_eq (.refl c) pass rfl rfl rfl (span_stop_tree h2), h1.offset_append]
  rfl

end Call

section Group

variable {x : Derivation (.chain .sum)}

/-- An expression in parentheses is passed as the three parts. -/
lemma passes_group : c.Passes (group w x v).text f ↔
    ∃ d e, c.Passes (w.text ++ ['(']) d ∧ d.Passes x.text e ∧ e.Passes (v.text ++ [')']) f := by
  have inner {d : Cursor} : d.Passes (x.text ++ (v.text ++ [')'])) f ↔ _ := Cursor.passes_append
  simp only [exists_and_left, ← inner, ← Cursor.passes_append]
  rw [List.append_assoc]
  rfl

/-- An expression in parentheses is composed of the three parts. -/
lemma compose_group (h1 : c.Passes (w.text ++ ['(']) d) (h2 : d.Passes x.text e)
    (h3 : e.Passes (v.text ++ [')']) f) :
    .compose c.extract .parenExpr
      [.leaf .openParen (c.offset + w.text.size) ['('], x.tree d.offset,
        .leaf .closeParen (e.offset + v.text.size) [')']] fallback =
    (group w x v).tree c.offset := by
  have pass := passes_group.mpr ⟨d, e, h1, h2, h3⟩
  rw [compose_eq (.refl c) pass rfl rfl rfl h3.offset_append.symm, h2.offset, h1.offset_append]
  rfl

end Group

section Chains

variable {op : BinaryOp} {x : Derivation l.operand} {y : Derivation (.links l)}

/-- A link is passed as its operator and its operand, and then the others are. -/
lemma passes_cons {joins : op.chain = l} : c.Passes (cons w op joins x y).text f ↔
    ∃ d e, c.Passes (w.text ++ [op.symbol]) d ∧ d.Passes x.text e ∧ e.Passes y.text f := by
  have inner {d : Cursor} : d.Passes (x.text ++ y.text) f ↔ _ := Cursor.passes_append
  simp only [exists_and_left, ← inner, ← Cursor.passes_append]
  rw [List.append_assoc]
  rfl

/-- A link covers an operator and the operand after it, but not the spaces before it. -/
lemma compose_link (h1 : c.Passes (w.text ++ [op.symbol]) d) (h2 : d.Passes x.text e) :
    Node.compose c.extract .link
      [.leaf op.rule (c.offset + w.text.size) [op.symbol], x.tree d.offset] fallback =
    ⟨.link, ⟨c.offset + w.text.size, e.offset⟩, op.symbol :: x.text,
      [.leaf op.rule (c.offset + w.text.size) [op.symbol], x.tree d.offset]⟩ := by
  obtain ⟨m, h0, h1⟩ := h1.split
  have extract := h0.extract (h1.trans h2)
  rw [h0.offset] at extract
  simp only [Node.compose, List.head?_cons, List.getLast?_cons, List.getLast?_nil,
    Option.getD_none, Option.getD_some, span_stop_tree h2]
  rw [Node.leaf, extract]
  rfl

/-- Composing the links of a chain, none included, covers just them. -/
lemma compose_links (h1 : c.Passes s d) (h2 : d.Passes y.text e) :
    .compose c.extract .repetition (y.tree d.offset).children d.offset = y.tree d.offset := by
  cases y with
  | nil =>
    have extract := extract_span h1 h2
    rw [tree, node, ← extract]
    rfl
  | cons w op joins x y =>
    let z := cons w op joins x y
    obtain ⟨m, last⟩ : ∃ m, (z.tree d.offset).children.getLast? = some m :=
      ⟨_, List.getLast?_cons⟩
    have stop := z.stop_last_link d.offset
    rw [last, Option.map_some, Option.getD_some, ← h2.offset] at stop
    exact z.compose_eq h1 h2 rfl rfl last stop

/-- A chain is composed of its first operand and its links. -/
lemma compose_chain (h1 : c.Passes x.text d) (h2 : d.Passes y.text e) :
    .compose c.extract l.rule
      [x.tree c.offset, .compose c.extract .repetition (y.tree d.offset).children d.offset]
      fallback =
    (chain x y).tree c.offset := by
  have pass : c.Passes (chain x y).text e := h1.trans h2
  rw [compose_links h1 h2, compose_eq (.refl c) pass rfl (x.span_start_tree _) rfl
    (span_stop_tree h2), h1.offset]
  rfl

end Chains

end Reckoner.Grammar.Derivation
