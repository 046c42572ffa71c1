import Reckoner.Proofs.Grammar.Cut
import Reckoner.Proofs.Grammar.Translation

/-!
# Parentheses left open at the front

A refusal that is not final comes from the first operand, and it is the one of the operand's last
alternative, a group.  So an expression is missed for a parenthesis (`expected_tentative`): for one
that closes, if parentheses open at the front and an expression comes after the last of them, and
otherwise for one that opens.  How many operands are open there makes no difference, since the bound
on nesting changes nothing that it does not refuse.
-/

namespace Reckoner

namespace Refusal

variable {r : Refusal} {o : Nat} {label : Label}

/-- A construct around the others is named last, unless it has been named. -/
lemma expected_within : (r.within o label).expected =
    if label.name ∈ r.expected then r.expected else r.expected ++ [label.name] := by
  simp only [expected, within, List.map_append, List.map_cons, List.map_nil,
    List.eraseDups_append, List.mem_eraseDups]
  split
  case isTrue named => simp [List.removeAll, named]
  case isFalse new => simp [List.removeAll, new, List.eraseDups_cons]

end Refusal

/-- Spaces aside, `t` begins with parentheses that open, one or more, and `s` comes after the last of
them. -/
inductive Openers : Text → Text → Prop where
  | last {w : Blanks} {s : Text} (other : ∀ (v : Blanks) (r : Text), s ≠ v.text ++ '(' :: r) :
    Openers (w.text ++ '(' :: s) s
  | more {w : Blanks} {t s : Text} (h : Openers t s) : Openers (w.text ++ '(' :: t) s

/-- After the parentheses that open at the front of `t` an expression comes. -/
def Unclosed (t : Text) : Prop := ∃ s, Openers t s ∧ (parse s).issue.succeeded = true

section Openers

variable {t s r : Text} {w v : Blanks} {c d : Cursor}

/-- Openers begin with a parenthesis after blanks. -/
lemma Openers.exists_paren (h : Openers t s) :
    ∃ (w : Blanks) (r : Text), t = w.text ++ '(' :: r := by
  cases h with
  | last => exact ⟨_, _, rfl⟩
  | more => exact ⟨_, _, rfl⟩

/-- The spaces before a parenthesis are determined by the text. -/
lemma paren_inj (h : w.text ++ '(' :: r = v.text ++ '(' :: s) : r = s := by
  have stop {r : Text} : ∀ ch ∈ ('(' :: r).head?, isSpace ch = false := by
    rintro _ ⟨⟩
    rfl
  have same : w = v := by rw [← w.front_append stop, h, v.front_append stop]
  subst same
  exact (List.cons.inj (List.append_cancel_left h)).2

/-- After the first opener there are others, or none follows at once. -/
lemma Openers.inv (h : Openers (w.text ++ '(' :: t) s) :
    Openers t s ∨ s = t ∧ ∀ (v : Blanks) (r : Text), t ≠ v.text ++ '(' :: r := by
  generalize eq : w.text ++ '(' :: t = u at h
  cases h with
  | last other =>
    cases paren_inj eq
    exact .inr ⟨rfl, other⟩
  | more h =>
    cases paren_inj eq
    exact .inl h

/-- Where a parenthesis that opens is passed, another one comes, or else an expression. -/
lemma unclosed_iff (pass : c.Passes (w.text ++ ['(']) d) :
    Unclosed c.rest ↔
      Unclosed d.rest ∨ d.next? ≠ some '(' ∧ (parse d.rest).issue.succeeded = true := by
  have rest := pass.rest
  rw [List.append_assoc] at rest
  rw [rest]
  constructor
  · rintro ⟨s, openers, succeeded⟩
    rcases openers.inv with openers | ⟨rfl, other⟩
    · exact .inl ⟨s, openers, succeeded⟩
    · refine .inr ⟨fun next => ?_, succeeded⟩
      obtain ⟨v, e, pass⟩ := Cursor.exists_passes_of_next? next
      exact other v e.rest (pass.rest.trans (List.append_assoc ..))
  · rintro (⟨s, openers, succeeded⟩ | ⟨next, succeeded⟩)
    · exact ⟨s, .more openers, succeeded⟩
    · exact ⟨d.rest, .last fun v r eq => next (Cursor.next?_of_rest eq rfl), succeeded⟩

/-- Parentheses that open come first. -/
lemma Unclosed.next? (h : Unclosed c.rest) : c.next? = some '(' := by
  obtain ⟨s, openers, _⟩ := h
  obtain ⟨w, r, eq⟩ := openers.exists_paren
  exact Cursor.next?_of_rest eq rfl

end Openers

namespace Grammar

open Reader

variable {l : Chain} {r operator : Reader} {rule : Rule} {levels : Nat}
variable {c d : Cursor} {n : Node} {refusal : Refusal}

/-! What is read inside open operands, in terms of a text on its own. -/

/-- Unless it is refused for good, an expression is read where one begins what remains. -/
lemma read_iff_succeeded (le : levels ≤ maxDepth)
    (goesOn : ¬ EndsForGood ((expression (operand levels)).read c)) :
    (∃ n d, (expression (operand levels)).read c = .ok (n, d)) ↔
      (parse c.rest).issue.succeeded = true := by
  have parallel := expression_parallels (operand_parallels le)
  have cut := (parallel { c with depth := 0 } c.depth trivial).cut
  have moved := expression_uniform (operand_uniform maxDepth) c.offset (.start c.rest 0)
  have front : (Cursor.start c.rest 0).moved c.offset = { c with depth := 0 } := by
    simp [Cursor.start, Cursor.moved]
  rw [front] at moved
  change Translated _ _ ((expressionAt 0).read _) _ at moved
  rw [parse]
  generalize (expressionAt 0).read (.start c.rest 0) = x at moved
  generalize (expression (operand maxDepth)).read { c with depth := 0 } = y at moved cut
  change Cut y ((expression (operand levels)).read c) at cut
  generalize (expression (operand levels)).read c = z at cut goesOn
  cases cut with
  | off final => exact absurd ⟨_, rfl, final⟩ goesOn
  | error =>
    cases moved with
    | error =>
      refine iff_of_false ?_ Bool.false_ne_true
      rintro ⟨_, _, ⟨⟩⟩
  | ok =>
    cases moved with
    | ok => exact iff_of_true ⟨_, _, rfl⟩ rfl

/-- What is read inside open operands is read from where it begins, too. -/
lemma succeeded_of_read (le : levels ≤ maxDepth)
    (read : (expression (operand levels)).read c = .ok (n, d)) :
    (parse c.rest).issue.succeeded = true := by
  refine (read_iff_succeeded le ?_).mp ⟨n, d, read⟩
  rintro ⟨_, error, _⟩
  cases read.symm.trans error

/-- What is refused inside open operands, but not for good, is refused alone, too. -/
lemma not_succeeded_of_refused (le : levels ≤ maxDepth)
    (error : (expression (operand levels)).read c = .error refusal)
    (tentative : refusal.isFinal = false) : ¬ (parse c.rest).issue.succeeded = true := by
  rw [← read_iff_succeeded le]
  · rintro ⟨_, _, read⟩
    cases error.symm.trans read
  · rintro ⟨_, other, final⟩
    cases error.symm.trans other
    cases tentative.symm.trans final

/-! Refusals that are not final. -/

/-- Only the first part of a chain is missed. -/
lemma chain_tentative (error : (chain rule r operator).read c = .error refusal)
    (tentative : refusal.isFinal = false) : r.read c = .error refusal := by
  rcases chain_error.mp error with error | ⟨_, _, _, error⟩
  · exact error
  · cases tentative.symm.trans (final_of_readMany error)

/-- Of the alternatives of an operand the last one is missed. -/
lemma alternatives_tentative (error : (alternatives levels).read c = .error refusal)
    (tentative : refusal.isFinal = false) :
    (parenthesized (expression (operand levels))).read c = .error refusal := by
  have later {first second : Reader} (error : (first <|> second).read c = .error refusal) :
      second.read c = .error refusal := by
    rcases orElse_error.mp error with ⟨_, final⟩ | ⟨_, error⟩
    · cases tentative.symm.trans final
    · exact error
  exact later (later (later error))

/-- An expression is missed where a group is, inside an operand inside the expression. -/
lemma expression_tentative
    (error : (expression (operand (levels + 1))).read c = .error refusal)
    (tentative : refusal.isFinal = false) :
    ∃ inner,
      (parenthesized (expression (operand levels))).read { c with depth := c.depth + 1 } =
        .error inner ∧
      inner.isFinal = false ∧
      refusal = (inner.within c.offset .operand).within c.offset .expression := by
  obtain ⟨_, sum, rfl⟩ := labelled_error.mp error
  have operand := chain_tentative (chain_tentative sum tentative) tentative
  obtain ⟨inner, missed, rfl⟩ := labelled_error.mp (node_one_error.mp (nested_error.mp operand))
  exact ⟨inner, alternatives_tentative missed tentative, tentative, rfl⟩

/-- An expression that is read begins with an alternative of an operand. -/
lemma alternatives_of_read (read : (expression (operand levels)).read c = .ok (n, d)) :
    ∃ fewer m e,
      levels = fewer + 1 ∧
      (alternatives fewer).read { c with depth := c.depth + 1 } = .ok (m, e) := by
  obtain ⟨_, _, _, product, _, _⟩ := chain_ok.mp (labelled_ok.mp read)
  obtain ⟨_, _, _, first, _, _⟩ := chain_ok.mp product
  cases levels with
  | zero => cases first
  | succ fewer =>
    obtain ⟨e, inside, _⟩ := nested_ok.mp first
    obtain ⟨m, only, _⟩ := node_one.mp inside
    exact ⟨fewer, m, e, rfl, labelled_ok.mp only⟩

/-- Where an expression is read that begins with parentheses, one is read after these. -/
lemma unclosed_of_read (le : levels ≤ maxDepth)
    (read : (expression (operand levels)).read c = .ok (n, d)) (next : c.next? = some '(') :
    Unclosed c.rest := by
  induction levels generalizing c n d with
  | zero =>
    obtain ⟨_, _, _, none, _⟩ := alternatives_of_read read
    cases none
  | succ levels ih =>
    obtain ⟨_, _, _, ⟨⟩, part⟩ := alternatives_of_read read
    rw [alternatives_paren (c := { c with depth := c.depth + 1 }) next] at part
    obtain ⟨_, a, _, b, _, opening, inner, _, _⟩ := node_three.mp part
    obtain ⟨w, pass, _⟩ := symbol_ok (labelled_ok.mp opening)
    have fewer := Nat.le_of_succ_le le
    refine (unclosed_iff pass).mpr ?_
    by_cases more : a.next? = some '('
    · exact .inl (ih fewer inner more)
    · exact .inr ⟨more, succeeded_of_read fewer inner⟩

/-- What an expression is missed for: a parenthesis that closes the ones in front, if an expression
comes after these, and otherwise a parenthesis that opens. -/
lemma expected_tentative (le : levels ≤ maxDepth)
    (error : (expression (operand levels)).read c = .error refusal)
    (tentative : refusal.isFinal = false) :
    Unclosed c.rest ∧ refusal.expected = ["')'", "operand", "expression"] ∨
    ¬ Unclosed c.rest ∧ refusal.expected = ["'('", "operand", "expression"] := by
  induction levels generalizing c refusal with
  | zero =>
    obtain ⟨_, sum, rfl⟩ := labelled_error.mp error
    cases chain_tentative (chain_tentative sum tentative) tentative
    cases tentative
  | succ levels ih =>
    have fewer := Nat.le_of_succ_le le
    obtain ⟨inner, group, goesOn, rfl⟩ := expression_tentative error tentative
    rcases node_three_error.mp group with missed | ⟨_, d, opening, missed | ⟨_, e, read, missed⟩⟩
    -- no parenthesis opens here
    · right
      obtain ⟨_, symbol, rfl⟩ := labelled_error.mp missed
      cases token_error symbol
      refine ⟨fun unclosed => ?_, rfl⟩
      obtain ⟨w, d, pass⟩ := Cursor.exists_passes_of_next? unclosed.next?
      cases symbol.symm.trans (symbol_read (pass.nest (c.depth + 1)) rfl)
    -- one opens, and what is missed is missed for the same reason inside it
    · obtain ⟨w, pass, _⟩ := symbol_ok (labelled_ok.mp opening)
      have same : Unclosed c.rest ↔ Unclosed d.rest :=
        (unclosed_iff pass).trans <|
          or_iff_left fun other => not_succeeded_of_refused fewer missed goesOn other.2
      rw [same, Refusal.expected_within, Refusal.expected_within]
      rcases ih fewer missed goesOn with ⟨unclosed, eq⟩ | ⟨other, eq⟩
      · exact .inl ⟨unclosed, by rw [eq]; rfl⟩
      · exact .inr ⟨other, by rw [eq]; rfl⟩
    -- one opens, and after the expression inside it none closes
    · left
      obtain ⟨_, symbol, rfl⟩ := labelled_error.mp missed
      cases token_error symbol
      obtain ⟨w, pass, _⟩ := symbol_ok (labelled_ok.mp opening)
      refine ⟨(unclosed_iff pass).mpr ?_, rfl⟩
      by_cases more : d.next? = some '('
      · exact .inl (unclosed_of_read fewer read more)
      · exact .inr ⟨more, succeeded_of_read fewer read⟩

end Grammar

end Reckoner
