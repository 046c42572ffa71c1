import Reckoner.Proofs.Grammar.Damage
import Reckoner.Proofs.Grammar.Refused
import Reckoner.Proofs.Grammar.Unclosed

/-!
# The constructs that a refusal names

A refused text is reported with the constructs that were expected, each once and innermost first.
Every operand and every expression around the place adds its name, but only once, so there are four
lists in all (`expected_parse`): two where an operand is too deep, depending on the opener before
it, and two where none is, depending on whether parentheses are left open at the front.
-/

namespace Reckoner

/-- What may be expected inside an operand where the operand after an opener is too deep.  What a
parenthesis opens is an expression, and what a sign opens is not. -/
inductive AfterOpener : Char → List String → Prop where
  | paren : AfterOpener '(' ["nesting depth", "expression", "operand"]
  | sign (op : UnaryOp) : AfterOpener op.symbol ["nesting depth", "operand"]
  | within (op : UnaryOp) : AfterOpener op.symbol ["nesting depth", "operand", "expression"]

/-- An opener comes after `c`, and the operand after the opener is too deep. -/
inductive Deep (c : Cursor) (refusal : Refusal) : Prop where
  | after {u : Text} {ch : Char} {d : Cursor} (pass : c.Passes (u ++ [ch]) d)
    (deep : refusal.tooDeepAt? = some d.offset) (names : AfterOpener ch refusal.expected)

section Deep

variable {c d : Cursor} {refusal : Refusal} {s : Text} {ch : Char} {label : Label} {o k : Nat}

/-- Operands and expressions around the opener leave the list as it is, once both are named. -/
lemma AfterOpener.around (h : AfterOpener ch refusal.expected)
    (inside : label = .operand ∨ label = .expression) :
    AfterOpener ch (refusal.within o label).expected := by
  rw [Refusal.expected_within]
  generalize refusal.expected = names at h
  rcases inside with rfl | rfl
  · cases h with
    | paren => exact .paren
    | sign op => exact .sign op
    | within op => exact .within op
  · cases h with
    | paren => exact .paren
    | sign op => exact .within op
    | within op => exact .within op

/-- Inside an expression there is one list for each kind of opener. -/
lemma AfterOpener.expression (h : AfterOpener ch refusal.expected) :
    ch = '(' ∧
      (refusal.within o .expression).expected = ["nesting depth", "expression", "operand"] ∨
    (ch = '+' ∨ ch = '-') ∧
      (refusal.within o .expression).expected = ["nesting depth", "operand", "expression"] := by
  have sign (op : UnaryOp) : op.symbol = '+' ∨ op.symbol = '-' := by
    cases op with
    | keep => exact .inl rfl
    | negate => exact .inr rfl
  rw [Refusal.expected_within]
  generalize refusal.expected = names at h
  cases h with
  | paren => exact .inl ⟨rfl, rfl⟩
  | sign op => exact .inr ⟨sign op, rfl⟩
  | within op => exact .inr ⟨sign op, rfl⟩

/-- What is too deep after more text is so after that text and what stood before. -/
lemma Deep.later (h : Deep d refusal) (pass : c.Passes s d) : Deep c refusal := by
  cases h with
  | after more deep names =>
    have whole := pass.trans more
    rw [← List.append_assoc] at whole
    exact .after whole deep names

/-- What is too deep is so inside an operand or an expression around it. -/
lemma Deep.around (h : Deep c refusal) (inside : label = .operand ∨ label = .expression) :
    Deep c (refusal.within o label) := by
  have other : label ≠ .nestingDepth := by rcases inside with rfl | rfl <;> decide
  cases h with
  | after pass deep names =>
    exact .after pass ((Refusal.tooDeepAt?_within other).trans deep) (names.around inside)

/-- What is too deep is so inside an operand around it. -/
lemma Deep.operand (h : Deep c refusal) : Deep c (refusal.within o .operand) :=
  h.around (.inl rfl)

/-- What is too deep is so inside an expression around it. -/
lemma Deep.expression (h : Deep c refusal) : Deep c (refusal.within o .expression) :=
  h.around (.inr rfl)

/-- Which operand is too deep does not depend on how many are open at `c`. -/
lemma Deep.unnest (h : Deep { c with depth := k } refusal) : Deep c refusal := by
  cases h with
  | @after u ch d pass deep names =>
    have passed : c.Passes (u ++ [ch]) { d with depth := c.depth } := pass.nest c.depth
    exact .after passed deep names

end Deep

namespace Grammar

open Reader

variable {k : Category} {l : Chain} {r : Reader} {levels o : Nat} {c : Cursor} {refusal : Refusal}

/-- A refusal is final exactly if it is because of an operand that is too deep. -/
lemma Refused.isFinal_eq (h : Refused k levels c refusal) :
    refusal.isFinal = refusal.tooDeepAt?.isSome := by
  cases h with
  | yields yields =>
    rw [yields.tentative, yields.shallow]
    rfl
  | closed _ stops =>
    rw [stops.final, stops.deep]
    rfl
  | opened _ _ stops =>
    rw [stops.final, stops.deep]
    rfl

/-- Links are refused for the part of one of them. -/
lemma links_final (sound : Sound r l.operand levels)
    (error : readMany (.node .link l.operator [r]) c = .error refusal) :
    ∃ s d, c.Passes s d ∧ r.read d = .error refusal := by
  generalize eq : Reader.node .link l.operator [r] = link at error
  fun_induction readMany link c with
  | case1 c inner read final =>
    subst eq
    cases error
    -- an operator that is missing ends the links, so it is the part after one that is refused
    rcases node_two_error.mp read with error | ⟨_, d, joint, error⟩
    · cases (operator_yields error).tentative.symm.trans final
    · obtain ⟨w, op, _, pass, _⟩ := operator_ok joint
      exact ⟨_, d, pass, error⟩
  | case2 => cases error
  | case3 c n d read shorter inner more ih =>
    subst eq
    cases error
    obtain ⟨_, a, _, joint, second, _⟩ := node_two.mp read
    obtain ⟨w, op, _, h1, _⟩ := operator_ok joint
    obtain ⟨x, _, h2, _⟩ := sound second
    obtain ⟨s, e, h3, error⟩ := ih more
    exact ⟨_, e, h1.trans (h2.trans h3), error⟩
  | case4 => cases error

/-- A chain is refused for one of its parts. -/
lemma chain_final (sound : Sound r l.operand levels)
    (error : (chain l.rule r l.operator).read c = .error refusal) :
    ∃ s d, c.Passes s d ∧ r.read d = .error refusal := by
  rcases chain_error.mp error with error | ⟨_, d, first, error⟩
  · exact ⟨[], c, .refl c, error⟩
  · obtain ⟨x, _, h1, _⟩ := sound first
    obtain ⟨s, e, h2, error⟩ := links_final sound error
    exact ⟨_, e, h1.trans h2, error⟩

/-- An expression is refused for one of its operands. -/
lemma expression_final (sound : Sound r .operand levels)
    (error : (expression r).read c = .error refusal) :
    ∃ s d inner, c.Passes s d ∧ r.read d = .error inner ∧
      refusal = inner.within c.offset .expression := by
  obtain ⟨inner, sum, rfl⟩ := labelled_error.mp error
  have product : Sound (chain .term r timesOrOver) (.chain .product) levels :=
    chain_sound (l := .product) sound
  obtain ⟨s, d, h1, part⟩ := chain_final (l := .sum) product sum
  obtain ⟨u, e, h2, operand⟩ := chain_final (l := .product) sound part
  exact ⟨_, e, inner, h1.trans h2, operand, rfl⟩

/-- Where operands may be opened, one is refused for good because of an opener. -/
def FinalDeep (levels : Nat) : Prop :=
  ∀ ⦃c refusal⦄, 0 < levels → (operand levels).read c = .error refusal →
    refusal.isFinal = true → Deep c refusal

/-- A group is refused for good because of an opener in it, or because of the one it begins with. -/
lemma group_final (inner : FinalDeep levels)
    (error : (parenthesized (expression (operand levels))).read c = .error refusal)
    (final : refusal.isFinal = true) : Deep c (refusal.within o .operand) := by
  rcases node_three_error.mp error with missed | ⟨_, d, opening, missed | ⟨_, _, _, missed⟩⟩
  · cases (openParen_yields missed).tentative.symm.trans final
  · obtain ⟨w, pass, _⟩ := symbol_ok (labelled_ok.mp opening)
    cases levels with
    | zero =>
      cases (expression_error rfl).symm.trans missed
      exact .after pass rfl .paren
    | succ fewer =>
      obtain ⟨s, e, _, more, operand, rfl⟩ := expression_final (operand_sound _) missed
      have deep := inner (Nat.succ_pos fewer) operand final
      exact ((deep.later more).later pass).expression.operand
  · cases (closeParen_yields missed).tentative.symm.trans final

/-- A call is refused for good after an opener in its parentheses. -/
lemma call_final (inner : FinalDeep levels)
    (error : (call (expression (operand levels))).read c = .error refusal)
    (final : refusal.isFinal = true) : Deep c (refusal.within o .operand) := by
  rcases node_two_error.mp error with missed | ⟨_, d, called, missed⟩
  · cases (functionName_yields missed).tentative.symm.trans final
  · obtain ⟨w, name, pass, _⟩ := run_ok (labelled_ok.mp called)
    exact (group_final inner missed final).later pass

/-- A signed operand is refused for good after its sign or an opener behind that. -/
lemma signed_final (inner : FinalDeep levels)
    (error : (signed (operand levels)).read c = .error refusal)
    (final : refusal.isFinal = true) : Deep c (refusal.within o .operand) := by
  rcases node_two_error.mp error with missed | ⟨_, d, sign, missed⟩
  · cases (operator_yields (l := .sum) missed).tentative.symm.trans final
  · obtain ⟨w, op, pass, _⟩ := sign_ok sign
    cases levels with
    | zero =>
      cases missed
      exact .after pass rfl (.sign op)
    | succ fewer => exact ((inner (Nat.succ_pos fewer) missed final).later pass).operand

/-- Each operand around adds its name, and what is in a call or in parentheses adds the name of an
expression before that. -/
theorem operand_final : ∀ levels, FinalDeep levels
  | 0 => nofun
  | levels + 1 => by
    intro c refusal _ error final
    have inner := operand_final levels
    obtain ⟨part, missed, rfl⟩ := labelled_error.mp (node_one_error.mp (nested_error.mp error))
    apply Deep.unnest (k := c.depth + 1)
    rcases orElse_error.mp missed with ⟨missed, _⟩ | ⟨_, missed⟩
    · exact call_final inner missed final
    rcases orElse_error.mp missed with ⟨missed, _⟩ | ⟨_, missed⟩
    · exact signed_final inner missed final
    rcases orElse_error.mp missed with ⟨missed, _⟩ | ⟨_, missed⟩
    · cases (number_yields missed).tentative.symm.trans final
    · exact group_final inner missed final

end Grammar

open Grammar

/-- What is expected where reading is refused.  If no operand is too deep it is a parenthesis: one
that closes, if the text begins with parentheses that open and an expression after these, and
otherwise one that opens.  If an operand is too deep, it is what the opener before it calls for. -/
theorem expected_parse {t : Text} (refused : (parse t).issue.succeeded = false) :
    ((parse t).issue.tooDeepAt = none →
      (Unclosed t → (parse t).issue.expected = ["')'", "operand", "expression"]) ∧
      (¬ Unclosed t → (parse t).issue.expected = ["'('", "operand", "expression"])) ∧
    ∀ o, (parse t).issue.tooDeepAt = some o →
      ∃ (u : Text) (ch : Char) (r : Text), t = u ++ ch :: r ∧ Text.size (u ++ [ch]) = o ∧
        (ch = '(' ∧
            (parse t).issue.expected = ["nesting depth", "expression", "operand"] ∨
          (ch = '+' ∨ ch = '-') ∧
            (parse t).issue.expected = ["nesting depth", "operand", "expression"]) := by
  rcases parse_cases t with ⟨_, _, _, _, _, parsed⟩ | ⟨refusal, error, parsed⟩
  · rw [parsed] at refused
    cases refused
  have accounts := expression_accounts (operand_sound maxDepth) (operand_accounts maxDepth) error
  have final := accounts.isFinal_eq
  rw [parsed]
  refine ⟨fun shallow => ?_, fun o deep => ?_⟩
  · replace shallow : refusal.tooDeepAt? = none := shallow
    rw [shallow] at final
    rcases expected_tentative le_rfl error final with ⟨unclosed, eq⟩ | ⟨other, eq⟩
    · exact ⟨fun _ => eq, fun not => absurd unclosed not⟩
    · exact ⟨fun unclosed => absurd unclosed other, fun _ => eq⟩
  · replace deep : refusal.tooDeepAt? = some o := deep
    rw [deep] at final
    obtain ⟨s, d, inner, pass, operand, rfl⟩ := expression_final (operand_sound maxDepth) error
    rw [Refusal.tooDeepAt?_within (by decide)] at deep
    cases (operand_final maxDepth maxDepth_pos operand final).later pass with
    | @after u ch e whole found names =>
      cases found.symm.trans deep
      have offset := whole.offset
      rw [Cursor.start, Nat.zero_add] at offset
      have split := whole.rest.trans (List.append_assoc ..)
      exact ⟨u, ch, e.rest, split, offset.symm, names.expression⟩

/-- `((1*` is refused for want of the parenthesis that closes, although `1*` is no expression as
a whole.  After 31 signs what a parenthesis opens is too deep. -/
theorem expected_parse_unclosed :
    (parse ['(', '(', '1', '*']).issue.expected = ["')'", "operand", "expression"] ∧
    ∃ (u : Text) (ch : Char) (r : Text),
      List.replicate 31 '-' ++ ['(', '1'] = u ++ ch :: r ∧ Text.size (u ++ [ch]) = 32 ∧
        (ch = '(' ∧ (parse (List.replicate 31 '-' ++ ['(', '1'])).issue.expected =
            ["nesting depth", "expression", "operand"] ∨
          (ch = '+' ∨ ch = '-') ∧ (parse (List.replicate 31 '-' ++ ['(', '1'])).issue.expected =
            ["nesting depth", "operand", "expression"]) := by
  constructor
  · have other (v : Blanks) (r : Text) : ['1', '*'] ≠ v.text ++ '(' :: r := by
      intro eq
      have mem : '(' ∈ ['1', '*'] := eq ▸ List.mem_append_right _ List.mem_cons_self
      exact absurd mem (by decide)
    have openers : Openers ['(', '(', '1', '*'] ['1', '*'] :=
      .more (w := .nil) (.last (w := .nil) other)
    have unclosed : Unclosed ['(', '(', '1', '*'] := ⟨_, openers, by decide +kernel⟩
    exact ((expected_parse (by decide +kernel)).1 (by decide +kernel)).1 unclosed
  · exact (expected_parse (by decide +kernel)).2 32 (by decide +kernel)

end Reckoner
