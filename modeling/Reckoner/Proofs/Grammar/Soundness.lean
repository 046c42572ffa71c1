import Reckoner.Proofs.Grammar.Composition
import Reckoner.Proofs.Grammar.Reading

/-!
# What is read is derived

Every reader of the grammar passes a text with a derivation of its category, nested less deep than
the levels it may open, and builds that derivation's tree (`operand_sound`).
The induction is on the levels; within one level a chain follows the repetition of its links.
-/

namespace Reckoner

/-- The reader of a chain's operators. -/
def Chain.operator : Chain → Reader
  | sum => Grammar.plusOrMinus
  | product => Grammar.timesOrOver

namespace Grammar

open Reader

variable {k : Category} {l : Chain} {r : Reader} {levels : Nat}
variable {c d e : Cursor} {n : Node} {ns : List Node} {s : Text}

/-- `r` reads what `k` derives with less than `levels` around an operand. -/
def Sound (r : Reader) (k : Category) (levels : Nat) : Prop :=
  ∀ ⦃c n d⦄, r.read c = .ok (n, d) →
    ∃ x : Derivation k, x.nesting < levels ∧ c.Passes x.text d ∧ n = x.tree c.offset

/-- `r` reads the only part of a derived operand. -/
def PartSound (r : Reader) (levels : Nat) : Prop :=
  ∀ ⦃c n d⦄, r.read c = .ok (n, d) →
    ∃ x : Derivation .operand,
      x.nesting < levels ∧ c.Passes x.text d ∧ n = x.alternative c.offset

/-- What is read as an operator is an operator of the chain after spaces. -/
lemma operator_ok (h : l.operator.read c = .ok (n, d)) :
    ∃ (w : Blanks) (op : BinaryOp),
      op.chain = l ∧
      c.Passes (w.text ++ [op.symbol]) d ∧
      n = .leaf op.rule (c.offset + w.text.size) [op.symbol] := by
  cases l with
  | sum =>
    rcases orElse_ok h with h | h
    · obtain ⟨w, pass, rfl⟩ := symbol_ok h
      exact ⟨w, .add, rfl, pass, rfl⟩
    · obtain ⟨w, pass, rfl⟩ := symbol_ok h
      exact ⟨w, .sub, rfl, pass, rfl⟩
  | product =>
    rcases orElse_ok h with h | h
    · obtain ⟨w, pass, rfl⟩ := symbol_ok h
      exact ⟨w, .mul, rfl, pass, rfl⟩
    · obtain ⟨w, pass, rfl⟩ := symbol_ok h
      exact ⟨w, .div, rfl, pass, rfl⟩

/-- What is read as a sign is a sign after spaces. -/
lemma sign_ok (h : plusOrMinus.read c = .ok (n, d)) :
    ∃ (w : Blanks) (op : UnaryOp),
      c.Passes (w.text ++ [op.symbol]) d ∧
      n = .leaf op.rule (c.offset + w.text.size) [op.symbol] := by
  obtain ⟨w, op, joins, pass, rfl⟩ := operator_ok (l := .sum) h
  cases op with
  | add => exact ⟨w, .keep, pass, rfl⟩
  | sub => exact ⟨w, .negate, pass, rfl⟩
  | mul => cases joins
  | div => cases joins

/-- What is read as the links of a chain derives as such. -/
lemma links_sound (sound : Sound r l.operand levels) (pos : 0 < levels)
    (h : readMany (.node .link l.operator [r]) c = .ok (ns, d)) :
    ∃ x : Derivation (.links l), x.nesting < levels ∧ c.Passes x.text d ∧
      ns = (x.tree c.offset).children := by
  -- The repetition is no recursion on the reader, so the induction is on the links that it gave.
  induction ns generalizing c with
  | nil =>
    rcases readMany_ok.mp h with ⟨_, _, rfl⟩ | ⟨_, _, _, _, _, eq⟩
    · exact ⟨.nil, pos, .refl d, rfl⟩
    · cases eq
  | cons link links ih =>
    rcases readMany_ok.mp h with ⟨_, eq, _⟩ | ⟨_, m, _, one, more, eq⟩
    · cases eq
    cases eq
    obtain ⟨_, a, _, first, second, rfl⟩ := node_two.mp one
    obtain ⟨w, op, joins, h1, rfl⟩ := operator_ok first
    obtain ⟨x, nx, h2, rfl⟩ := sound second
    obtain ⟨y, ny, h3, rfl⟩ := ih more
    refine ⟨.cons w op joins x y, Nat.max_lt.mpr ⟨nx, ny⟩, ?_, ?_⟩
    · exact Derivation.passes_cons.mpr ⟨_, _, h1, h2, h3⟩
    · rw [Derivation.compose_link h1 h2, h2.offset, h1.offset_append]
      rfl

/-- A chain of what is derived is derived. -/
lemma chain_sound (sound : Sound r l.operand levels) :
    Sound (.chain l.rule r l.operator) (.chain l) levels := by
  intro c n e h
  obtain ⟨_, d, links, first, more, rfl⟩ := chain_ok.mp h
  obtain ⟨x, nx, h1, rfl⟩ := sound first
  obtain ⟨y, ny, h2, rfl⟩ := links_sound sound (Nat.zero_lt_of_lt nx) more
  exact ⟨.chain x y, Nat.max_lt.mpr ⟨nx, ny⟩, h1.trans h2, Derivation.compose_chain h1 h2⟩

/-- What is read as an expression is derived if its operands are. -/
lemma expression_sound (sound : Sound r .operand levels) :
    Sound (expression r) (.chain .sum) levels := by
  intro c n d h
  have product : Sound (.chain .term r timesOrOver) (.chain .product) levels :=
    chain_sound (l := .product) sound
  exact chain_sound (l := .sum) product (labelled_ok.mp h)

/-- A sum in parentheses is one level deeper. -/
lemma parenthesized_sound (sound : Sound r (.chain .sum) levels) :
    Sound (parenthesized r) .group (levels + 1) := by
  intro c n f h
  obtain ⟨_, d, _, e, _, first, second, third, rfl⟩ := node_three.mp h
  obtain ⟨w, h1, rfl⟩ := symbol_ok (labelled_ok.mp first)
  obtain ⟨x, nx, h2, rfl⟩ := sound second
  obtain ⟨v, h3, rfl⟩ := symbol_ok (labelled_ok.mp third)
  exact ⟨.group w x v, Nat.succ_lt_succ nx, Derivation.passes_group.mpr ⟨d, e, h1, h2, h3⟩,
    Derivation.compose_group h1 h2 h3⟩

/-- A sign is one level around its operand. -/
lemma signed_sound (sound : Sound r .operand levels) : PartSound (signed r) (levels + 1) := by
  intro c n e h
  obtain ⟨_, d, _, first, second, rfl⟩ := node_two.mp h
  obtain ⟨w, op, h1, rfl⟩ := sign_ok first
  obtain ⟨x, nx, h2, rfl⟩ := sound second
  exact ⟨.signed w op x, Nat.succ_lt_succ nx, Derivation.passes_signed.mpr ⟨d, h1, h2⟩,
    Derivation.compose_signed h1 h2⟩

/-- A call is as deep as its argument in parentheses. -/
lemma call_sound (sound : Sound (parenthesized r) .group levels) : PartSound (call r) levels := by
  intro c n e h
  obtain ⟨_, d, _, first, second, rfl⟩ := node_two.mp h
  obtain ⟨w, name, h1, rfl⟩ := run_ok (labelled_ok.mp first)
  obtain ⟨x, nx, h2, rfl⟩ := sound second
  exact ⟨.call w name x, nx, Derivation.passes_call.mpr ⟨d, h1, h2⟩,
    Derivation.compose_call h1 h2⟩

/-- What is read as a number is derived. -/
lemma number_sound : PartSound number (levels + 1) := by
  intro c n d h
  obtain ⟨w, lexeme, pass, rfl⟩ := run_ok (labelled_ok.mp h)
  exact ⟨.number w lexeme, Nat.succ_pos levels, pass, rfl⟩

/-- What is read in parentheses is derived as an operand. -/
lemma grouped_sound (sound : Sound r .group levels) : PartSound r levels := by
  intro c n d h
  obtain ⟨x, nx, pass, rfl⟩ := sound h
  exact ⟨.grouped x, nx, pass, rfl⟩

/-- What alternatives read is derived if what each of them reads is. -/
lemma PartSound.orElse {first second : Reader} (h1 : PartSound first levels)
    (h2 : PartSound second levels) : PartSound (first <|> second) levels := by
  intro c n d h
  cases orElse_ok h with
  | inl h => exact h1 h
  | inr h => exact h2 h

/-- What is read as an operand is derived, less deep than the levels that may be opened. -/
theorem operand_sound : ∀ levels, Sound (operand levels) .operand levels
  | 0 => by
    intro c n d h
    cases h
  | levels + 1 => by
    intro c n d h
    have inner := operand_sound levels
    have group := parenthesized_sound (expression_sound inner)
    have part := (call_sound group).orElse
      ((signed_sound inner).orElse (number_sound.orElse (grouped_sound group)))
    obtain ⟨e, read, rfl⟩ := nested_ok.mp h
    obtain ⟨m, only, rfl⟩ := node_one.mp read
    obtain ⟨x, nx, pass, rfl⟩ := part (labelled_ok.mp only)
    -- The operand is open while its parts are read, and closed again after it.
    exact ⟨x, nx, pass.nest c.depth, Derivation.compose_operand pass⟩

end Grammar

end Reckoner
