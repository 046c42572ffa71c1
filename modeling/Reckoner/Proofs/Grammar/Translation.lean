import Reckoner.Grammar.Outcome
import Reckoner.Proofs.Grammar.Reading
import Reckoner.Proofs.Grammar.Stopping
import Reckoner.Proofs.Grammar.Token
import Reckoner.Proofs.Text.Translation

/-!
# Reading later in a text

A reader does not depend on how far into a text it reads (`Uniform`), and as long as an operand may
be opened it does not depend on spaces before its first token either (`Lenient`).  So spaces before
a text move what is read, and what is reported if it is refused, and change nothing else
(`parse_blanks`).
-/

namespace Reckoner

namespace Node

mutual
/-- A tree in a text that comes `k` bytes later. -/
def moved (k : Nat) : Node → Node
  | ⟨rule, span, text, children⟩ => ⟨rule, span.moved k, text, movedAll k children⟩

/-- Trees in a text that comes `k` bytes later. -/
def movedAll (k : Nat) : List Node → List Node
  | [] => []
  | n :: ns => moved k n :: movedAll k ns
end

variable {k a b : Nat} {ns : List Node}

/-- A tree that is moved spans what it spanned, moved. -/
lemma moved_span (n : Node) : (n.moved k).span = n.span.moved k := by
  cases n
  rfl

/-- The trees of a list are moved one by one. -/
lemma movedAll_eq_map : movedAll k ns = ns.map (moved k) := by
  induction ns with
  | nil => rfl
  | cons n ns ih => rw [movedAll, ih, List.map_cons]

/-- The parts of a tree that is moved are its parts, moved. -/
lemma moved_children (n : Node) : (n.moved k).children = n.children.map (moved k) := by
  cases n
  exact movedAll_eq_map

/-- A node is composed of moved parts as it is of the parts. -/
lemma compose_moved {f g : Span → Text} (same : ∀ span, g (span.moved k) = f span) (rule : Rule)
    (fallback : ns ≠ [] ∨ b = a + k) :
    .compose g rule (ns.map (moved k)) b = (Node.compose f rule ns a).moved k := by
  have span (span : Span) :
      (⟨rule, span.moved k, g (span.moved k), ns.map (moved k)⟩ : Node) =
        moved k ⟨rule, span, f span, ns⟩ := by
    rw [moved, movedAll_eq_map, same]
  cases ns with
  | nil =>
    rcases fallback with some | rfl
    · exact absurd rfl some
    · exact span ⟨a, a⟩
  | cons n ns =>
    simp only [compose, List.head?_map, List.head?_cons, List.getLast?_map, List.getLast?_cons,
      Option.map_some, moved_span]
    exact span ⟨n.span.start, (ns.getLast?.getD n).span.stop⟩

end Node

/-- A cursor in a text that comes `k` bytes later. -/
def Cursor.moved (c : Cursor) (k : Nat) : Cursor := { c with offset := c.offset + k }

/-- At `d` the text goes on as it does at `c`, `k` bytes later and perhaps after other spaces. -/
structure Cursor.Translated (k : Nat) (c d : Cursor) : Prop where
  skip : d.skipSpaces = c.skipSpaces.moved k
  extract : ∀ span : Span, d.extract (span.moved k) = c.extract span

/-- The same refusal `k` bytes later.  The constructs it was in may begin with other spaces; what
matters is where an operand was too deep. -/
structure Refusal.Translated (k : Nat) (r s : Refusal) : Prop where
  final : s.isFinal = r.isFinal
  labels : s.trail.map (·.2) = r.trail.map (·.2)
  deep : s.tooDeepAt? = r.tooDeepAt?.map (· + k)

/-- The same result `k` bytes later, where `move` moves what was read. -/
inductive Translated {α : Type} (k : Nat) (move : α → α) :
    Except Refusal (α × Cursor) → Except Refusal (α × Cursor) → Prop
  | ok {a : α} {c : Cursor} : Translated k move (.ok (a, c)) (.ok (move a, c.moved k))
  | error {r s : Refusal} (h : r.Translated k s) : Translated k move (.error r) (.error s)

namespace Cursor

variable {k n : Nat} {c d : Cursor} {w : Blanks} {t : Text}

lemma rest_moved : (c.moved k).rest = c.rest := rfl

/-- Going on commutes with moving. -/
lemma advance_moved : (c.moved k).advance n = (c.advance n).moved k := by
  simp [advance, moved, Nat.add_right_comm]

/-- The text goes on at a cursor that is moved as it does at the cursor. -/
lemma translated_moved (c : Cursor) (k : Nat) : c.Translated k (c.moved k) where
  skip := advance_moved
  extract span := by simp [extract, moved, Span.moved, Nat.add_sub_add_right]

/-- Spaces before a text move what is read of it. -/
lemma translated_start (w : Blanks) (t : Text) (depth : Nat) :
    (start t depth).Translated w.text.size (start (w.text ++ t) depth) where
  skip := by
    have front : (w.text ++ t).takeWhile isSpace = w.text ++ t.takeWhile isSpace :=
      List.takeWhile_append_of_pos w.all
    simp [skipSpaces, start, advance, moved, front, List.take_append, List.take_of_length_le,
      Nat.add_comm]
  extract span := by
    simp only [extract, start, Nat.sub_zero]
    exact Text.slice_moved

/-- The same number of operands is open on both sides. -/
lemma Translated.depth (h : c.Translated k d) : d.depth = c.depth := by
  have same := congrArg Cursor.depth h.skip
  exact same

/-- Opening operands on both sides leaves the text as it is. -/
lemma Translated.nest (h : c.Translated k d) (depth : Nat) :
    Cursor.Translated k { c with depth := depth } { d with depth := depth } where
  skip := congrArg (fun e : Cursor => { e with depth := depth }) h.skip
  extract := h.extract

end Cursor

namespace Refusal.Translated

variable {k o p : Nat} {r s : Refusal} {label : Label}

/-- A refusal stays the same one under the names of constructs other than the bound. -/
lemma within (h : r.Translated k s) (other : label ≠ .nestingDepth) :
    (r.within o label).Translated k (s.within p label) where
  final := h.final
  labels := by simp [Refusal.within, h.labels]
  deep := by rw [tooDeepAt?_within other, tooDeepAt?_within other, h.deep]

/-- Both report the same constructs. -/
lemma expected (h : r.Translated k s) : s.expected = r.expected := by
  have names := congrArg (List.map Label.name) h.labels
  rw [List.map_map, List.map_map] at names
  exact congrArg List.eraseDups names

end Refusal.Translated

namespace Translated

variable {α : Type} {k : Nat} {move : α → α} {x y : Except Refusal (α × Cursor)}

/-- What is read on one side is read on the other, moved. -/
lemma of_ok (h : Translated k move x y) {a : α} {c : Cursor} (eq : x = .ok (a, c)) :
    y = .ok (move a, c.moved k) := by
  cases h with
  | ok => cases eq; rfl
  | error => cases eq

/-- What is refused on one side is refused on the other, as much for good and moved. -/
lemma of_error (h : Translated k move x y) {r : Refusal} (eq : x = .error r) :
    ∃ s, y = .error s ∧ r.Translated k s := by
  cases h with
  | ok => cases eq
  | error moved => cases eq; exact ⟨_, rfl, moved⟩

/-- What goes on from a result later in the text goes on later. -/
lemma bind {β : Type} {move' : β → β} {f g : α × Cursor → Except Refusal (β × Cursor)}
    (h : Translated k move x y)
    (next : ∀ a c, x = .ok (a, c) → Translated k move' (f (a, c)) (g (move a, c.moved k))) :
    Translated k move' (x.bind f) (y.bind g) := by
  cases h with
  | ok => exact next _ _ rfl
  | error moved => exact .error moved

end Translated

namespace Reader

variable {r first second operand operator : Reader} {rs : List Reader} {label : Label}
variable {rule : Rule} {lexeme : Text → Nat} {k : Nat} {c d : Cursor}

/-- What is read does not depend on how far into a text it stands. -/
def Uniform (r : Reader) : Prop :=
  ∀ k c, Translated k (.moved k) (r.read c) (r.read (c.moved k))

/-- What is read does not depend on how far into a text it stands, nor on spaces before it. -/
def Lenient (r : Reader) : Prop :=
  ∀ ⦃k c d⦄, c.Translated k d → Translated k (.moved k) (r.read c) (r.read d)

/-- A reader that no spaces matter to does not depend on the offset either. -/
lemma Lenient.uniform (h : r.Lenient) : r.Uniform := fun k c => h (c.translated_moved k)

/-- No spaces before a token matter to it. -/
lemma token_lenient : (token rule lexeme).Lenient := by
  intro k c d h
  simp only [token, h.skip, Cursor.advance_moved, Cursor.rest_moved]
  split
  · exact .error ⟨rfl, rfl, rfl⟩
  · exact .ok

/-- A name does not change whether two readings are translated. -/
lemma labelled_translated (h : Translated k (.moved k) (r.read c) (r.read d))
    (other : label ≠ .nestingDepth) :
    Translated k (.moved k) ((labelled label r).read c) ((labelled label r).read d) := by
  cases read : r.read c with
  | ok result =>
    rw [labelled_ok.mpr read, labelled_ok.mpr (h.of_ok read)]
    exact .ok
  | error refusal =>
    obtain ⟨s, eq, moved⟩ := h.of_error read
    rw [labelled_error.mpr ⟨_, read, rfl⟩, labelled_error.mpr ⟨_, eq, rfl⟩]
    exact .error (moved.within other)

/-- No spaces matter to a named construct if none matter to its reader. -/
lemma Lenient.labelled (h : r.Lenient) (other : label ≠ .nestingDepth := by decide) :
    (labelled label r).Lenient :=
  fun _ _ _ same => labelled_translated (h same) other

/-- No spaces matter to alternatives if none matter to either. -/
lemma Lenient.orElse (h1 : first.Lenient) (h2 : second.Lenient) : (first <|> second).Lenient := by
  intro k c d same
  cases read : first.read c with
  | ok result =>
    rw [orElse_left read, orElse_left ((h1 same).of_ok read)]
    exact .ok
  | error refusal =>
    obtain ⟨s, eq, moved⟩ := (h1 same).of_error read
    cases final : refusal.isFinal with
    | true =>
      rw [orElse_error.mpr (.inl ⟨read, final⟩),
        orElse_error.mpr (.inl ⟨eq, moved.final.trans final⟩)]
      exact .error moved
    | false =>
      have later := refuses_of_error eq (moved.final.trans final)
      rw [orElse_right (refuses_of_error read final), orElse_right later]
      exact h2 same

/-- A sequence is translated if its first reading is, and those after it anywhere. -/
lemma readAll_cons_translated (h1 : Translated k (.moved k) (r.read c) (r.read d))
    (h2 : ∀ e, Translated k (List.map (.moved k)) (readAll rs e) (readAll rs (e.moved k))) :
    Translated k (List.map (.moved k)) (readAll (r :: rs) c) (readAll (r :: rs) d) := by
  rw [readAll_cons_bind, readAll_cons_bind]
  exact h1.bind fun n e _ => (h2 e).bind fun ns f _ => .ok

/-- A sequence of readers that do not depend on the offset does not either. -/
lemma readAll_translated (uniform : ∀ r ∈ rs, r.Uniform) (k : Nat) (c : Cursor) :
    Translated k (List.map (.moved k)) (readAll rs c) (readAll rs (c.moved k)) := by
  induction rs generalizing c with
  | nil => exact .ok
  | cons r rs ih =>
    obtain ⟨first, others⟩ := List.forall_mem_cons.mp uniform
    exact readAll_cons_translated (first k c) (ih others)

/-- A node is translated if the reading of its first part is. -/
lemma node_translated (first : Translated k (.moved k) (r.read c) (r.read d))
    (others : ∀ r ∈ rs, r.Uniform) (same : ∀ span : Span, d.extract (span.moved k) = c.extract span) :
    Translated k (.moved k) ((node rule r rs).read c) ((node rule r rs).read d) := by
  have parts := readAll_cons_translated first (readAll_translated others k)
  rw [node_bind, node_bind]
  refine parts.bind fun ns e read => ?_
  have some : ns ≠ [] := by
    obtain ⟨_, _, _, _, _, rfl⟩ := readAll_cons.mp read
    exact List.cons_ne_nil _ _
  rw [Node.compose_moved same rule (.inl some)]
  exact .ok

/-- No spaces matter to a node if none matter to its first part. -/
lemma Lenient.node (first : r.Lenient) (others : ∀ r ∈ rs, r.Uniform) :
    (node rule r rs).Lenient :=
  fun _ _ _ h => node_translated (first h) others h.extract

/-- A repetition does not depend on how far into a text it stands: each round does not. -/
lemma readMany_translated (uniform : r.Uniform) (k : Nat) (c : Cursor) :
    Translated k (List.map (.moved k)) (readMany r c) (readMany r (c.moved k)) := by
  fun_induction readMany r c with
  | case1 c refusal read final =>
    obtain ⟨s, eq, moved⟩ := (uniform k c).of_error read
    rw [readMany_error.mpr (.inl ⟨eq, moved.final.trans final⟩)]
    exact .error moved
  | case2 c refusal read tentative =>
    obtain ⟨s, eq, moved⟩ := (uniform k c).of_error read
    have refuses := refuses_of_error eq (moved.final.trans (Bool.eq_false_of_not_eq_true tentative))
    rw [readMany_ok.mpr (.inl ⟨refuses, rfl, rfl⟩)]
    exact .ok
  | case3 c n d read shorter refusal more ih =>
    rw [more] at ih
    obtain ⟨s, eq, moved⟩ := ih.of_error rfl
    rw [readMany_error.mpr (.inr ⟨_, _, (uniform k c).of_ok read, eq⟩)]
    exact .error moved
  | case4 c n d read shorter ns e more ih =>
    rw [more] at ih
    rw [readMany_ok.mpr (.inr ⟨_, _, _, (uniform k c).of_ok read, ih.of_ok rfl, rfl⟩)]
    exact .ok

/-- A chain is translated if the reading of its first operand is. -/
lemma chain_translated (first : Translated k (.moved k) (r.read c) (r.read d)) (uniform : r.Uniform)
    (joints : operator.Lenient) (same : ∀ span : Span, d.extract (span.moved k) = c.extract span) :
    Translated k (.moved k) ((chain rule r operator).read c) ((chain rule r operator).read d) := by
  have link : (Reader.node .link operator [r]).Uniform :=
    (joints.node (List.forall_mem_singleton.mpr uniform)).uniform
  rw [chain_bind, chain_bind]
  refine first.bind fun n e _ => (readMany_translated link k e).bind fun links f _ => ?_
  -- Without links the repetition covers nothing where the first part stops, and that moves too.
  let repetition := Node.compose c.extract .repetition links e.offset
  have inner := Node.compose_moved same .repetition
    (.inr rfl : links ≠ [] ∨ (e.moved k).offset = e.offset + k)
  have outer := Node.compose_moved same rule
    (.inr (congrArg Span.start n.moved_span) : [n, repetition] ≠ [] ∨ _ = n.span.start + k)
  rw [List.map_cons, List.map_singleton, ← inner] at outer
  rw [outer]
  exact .ok

/-- What is read inside an operand is translated with the operand. -/
lemma nested_translated
    (h : Translated k (.moved k) (r.read { c with depth := c.depth + 1 })
      (r.read { d with depth := d.depth + 1 })) (depth : d.depth = c.depth) :
    Translated k (.moved k) ((nested r).read c) ((nested r).read d) := by
  rw [nested_bind, nested_bind, depth]
  rw [depth] at h
  exact h.bind fun n e _ => .ok

/-- No spaces matter to an operand if none matter to what is inside it. -/
lemma Lenient.nested (h : r.Lenient) : (nested r).Lenient := by
  intro k c d same
  have inside := same.nest (c.depth + 1)
  refine nested_translated ?_ same.depth
  rw [same.depth]
  exact h inside

/-- An operand that is one too deep is reported as far on as it is moved. -/
lemma tooDeep_uniform : tooDeep.Uniform := fun _ _ => .error ⟨rfl, rfl, rfl⟩

end Reader

namespace Grammar

open Reader

variable {r : Reader} {k : Nat} {c d : Cursor}

/-- No spaces before a sign matter to it. -/
lemma plusOrMinus_lenient : plusOrMinus.Lenient := token_lenient.orElse token_lenient

/-- No spaces before `*` or `/` matter to it. -/
lemma timesOrOver_lenient : timesOrOver.Lenient := token_lenient.orElse token_lenient

/-- No spaces before a closing parenthesis matter to it. -/
lemma closeParen_lenient : closeParen.Lenient := token_lenient.labelled

/-- An expression is translated if the reading of its first operand is. -/
lemma expression_translated (first : Translated k (.moved k) (r.read c) (r.read d))
    (uniform : r.Uniform) (same : ∀ span : Span, d.extract (span.moved k) = c.extract span) :
    Translated k (.moved k) ((expression r).read c) ((expression r).read d) := by
  have product : (chain .term r timesOrOver).Uniform := fun k c =>
    chain_translated (uniform k c) uniform timesOrOver_lenient (c.translated_moved k).extract
  refine labelled_translated (chain_translated ?_ product plusOrMinus_lenient same) (by decide)
  exact chain_translated first uniform timesOrOver_lenient same

/-- An expression does not depend on the offset if its operands do not. -/
lemma expression_uniform (uniform : r.Uniform) : (expression r).Uniform := fun k c =>
  expression_translated (uniform k c) uniform (c.translated_moved k).extract

/-- No spaces before parentheses matter, whatever is read inside them. -/
lemma parenthesized_lenient (uniform : r.Uniform) : (parenthesized r).Lenient := by
  refine Lenient.node token_lenient.labelled (List.forall_mem_cons.mpr ⟨uniform, ?_⟩)
  exact List.forall_mem_singleton.mpr closeParen_lenient.uniform

/-- As long as an operand may be opened, spaces before it do not matter. -/
lemma operand_lenient {levels : Nat} (inner : (operand levels).Uniform) :
    (operand (levels + 1)).Lenient := by
  have group := parenthesized_lenient (expression_uniform inner)
  have called : (call (expression (operand levels))).Lenient :=
    Lenient.node token_lenient.labelled (List.forall_mem_singleton.mpr group.uniform)
  have sign : (signed (operand levels)).Lenient :=
    plusOrMinus_lenient.node (List.forall_mem_singleton.mpr inner)
  have numeral : number.Lenient := token_lenient.labelled
  have alternatives := called.orElse (sign.orElse (numeral.orElse group))
  exact Lenient.nested (Lenient.node alternatives.labelled (List.forall_mem_nil _))

/-- Where no operand may be opened the refusal stands at the cursor, before any spaces. -/
lemma operand_uniform : ∀ levels, (operand levels).Uniform
  | 0 => tooDeep_uniform
  | levels + 1 => (operand_lenient (operand_uniform levels)).uniform

/-- An expression is read alike wherever it stands and whatever spaces stand before it. -/
theorem expressionAt_lenient : (expressionAt 0).Lenient := fun _ _ _ h =>
  expression_translated (operand_lenient (operand_uniform (maxDepth - 1)) h)
    (operand_uniform maxDepth) h.extract

end Grammar

/-- The issue of a text that comes `k` bytes later.  Where nothing is recognized, nothing moves but
the end and the operand that is too deep. -/
def Issue.moved (i : Issue) (k : Nat) : Issue :=
  ⟨i.succeeded, if i.succeeded then i.consumed + k else i.consumed, i.total + k, i.expected,
    i.tooDeepAt.map (· + k)⟩

/-- The outcome of a text that comes `k` bytes later. -/
def Outcome.moved (outcome : Outcome) (k : Nat) : Outcome :=
  ⟨outcome.issue.moved k, outcome.root.map (.moved k)⟩

/-- Spaces before a text move the outcome of reading it. -/
theorem parse_blanks (w : Blanks) (t : Text) :
    parse (w.text ++ t) = (parse t).moved w.text.size := by
  have same := Grammar.expressionAt_lenient (Cursor.translated_start w t 0)
  cases read : (Grammar.expressionAt 0).read (.start t 0) with
  | ok result =>
    obtain ⟨n, d⟩ := result
    have skip := (d.translated_moved w.text.size).skip
    simp only [parse, read, same.of_ok read, skip, Text.size_append, Nat.add_comm w.text.size]
    rfl
  | error refusal =>
    obtain ⟨s, eq, moved⟩ := same.of_error read
    simp only [parse, read, eq, moved.expected, moved.deep, Text.size_append,
      Nat.add_comm w.text.size]
    rfl

end Reckoner
