import Reckoner.Analysis
import Reckoner.Proofs.Expr.Meaning
import Reckoner.Proofs.Grammar.Recognition
import Reckoner.Proofs.Structure.Scan

/-!
# The checks on raw text agree with the grammar

A derived text is balanced and supplies its operators (`balanced`, `supplies`), so the checks find
nothing in what is recognized, however the text goes on.  A text that is an expression as a whole
therefore passes them and is evaluated.
-/

namespace Reckoner

open Grammar Structure

namespace Structure

variable {p : Char → Bool} {c : Char} {s : Text}

/-- Blanks do not change whether an operand starts what follows. -/
lemma startsOperand_blanks (w : Blanks) : startsOperand (w.text ++ s) = startsOperand s := by
  have blank : ∀ c ∈ w.text, isBlank c = true := fun c mem => isBlank_of_isSpace (w.all c mem)
  rw [startsOperand, startsOperand, List.dropWhile_append_of_pos blank]

/-- A visible character other than `)`, `*` and `/` starts an operand. -/
lemma startsOperand_cons (visible : isBlank c = false)
    (fits : (c = ')' || c = '*' || c = '/') = false) : startsOperand (c :: s) = true := by
  rw [startsOperand, List.dropWhile_cons, visible, if_neg Bool.false_ne_true]
  exact congrArg (!·) fits

/-- A token starts an operand. -/
lemma startsOperand_lexeme (solid : ∀ c, p c = true → Solid c) (closes : p ')' = false)
    (w : Lexeme p) : startsOperand (w.text ++ s) = true := by
  obtain ⟨⟨t, all⟩, nonempty⟩ := w
  obtain ⟨c, t, rfl⟩ := List.exists_cons_of_ne_nil nonempty
  have here := all c List.mem_cons_self
  have joins := (solid c here).joins
  refine startsOperand_cons (solid c here).visible ?_
  simp only [isBinaryOperator, Bool.or_eq_false_iff] at joins
  simp only [joins, Bool.or_false, decide_eq_false_iff_not]
  rintro rfl
  cases closes.symm.trans here

end Structure

/-- Where a text of a category may stand: links after an operand, the others not. -/
def Grammar.Category.Follows : Category → Option Char → Prop
  | links _, before => before.any endsOperand = true
  | group, _ => True
  | _, before => before.any endsOperand = false

namespace Grammar.Derivation

variable {k : Category} {l : Chain} {before : Option Char}

/-- A derived text closes the parentheses that it opens, and no others. -/
lemma balanced (x : Derivation k) : Balanced x.text := by
  induction x with
  | number before lexeme =>
    exact (balanced_run before rfl rfl).append (balanced_run lexeme.toRun rfl rfl)
  | signed before op operand ih =>
    refine (balanced_run before rfl rfl).append (.cons ?_ ?_ ih)
    all_goals cases op <;> decide
  | call before name argument ih =>
    exact (balanced_run before rfl rfl).append ((balanced_run name.toRun rfl rfl).append ih)
  | grouped inner ih => exact ih
  | group opening inner closing ih =>
    have inside := (ih.append (balanced_run closing rfl rfl)).parens
    rw [List.append_assoc] at inside
    exact (balanced_run opening rfl rfl).append inside
  | chain first others ih1 ih2 => exact ih1.append ih2
  | nil => exact .nil
  | cons before op joins operand others ih1 ih2 =>
    refine (balanced_run before rfl rfl).append (.cons ?_ ?_ (ih1.append ih2))
    all_goals cases op <;> decide

/-- A derived text, links apart, starts an operand. -/
lemma starts (x : Derivation k) (other : ∀ l, k ≠ .links l) (r : Text) :
    startsOperand (x.text ++ r) = true := by
  induction x generalizing r with
  | number before lexeme =>
    rw [text, List.append_assoc, startsOperand_blanks]
    exact startsOperand_lexeme (fun _ => solid_of_isNumeric) rfl lexeme
  | signed before op operand =>
    rw [text, List.append_assoc, startsOperand_blanks]
    exact startsOperand_cons (by cases op <;> rfl) (by cases op <;> rfl)
  | call before name argument =>
    rw [text, List.append_assoc, startsOperand_blanks, List.append_assoc]
    exact startsOperand_lexeme (fun _ => solid_of_isLetter) rfl name
  | grouped inner ih => exact ih (by simp) r
  | group opening inner closing =>
    rw [text, List.append_assoc, startsOperand_blanks]
    exact startsOperand_cons rfl rfl
  | @chain l first others ih =>
    rw [text, List.append_assoc]
    exact ih (by cases l <;> simp [Chain.operand]) _
  | nil => exact absurd rfl (other _)
  | cons => exact absurd rfl (other _)

/-- A derived text gives its operators what they need and ends an operand. -/
lemma supplies (x : Derivation k) (follows : k.Follows before) :
    ∃ c, endsOperand c = true ∧ Supplies before x.text (some c) := by
  induction x generalizing before with
  | number w lexeme =>
    obtain ⟨c, ends, h⟩ := supplies_lexeme (fun _ => solid_of_isNumeric) lexeme
    exact ⟨c, ends, (supplies_blanks w).append h⟩
  | signed w op operand ih =>
    have follows1 : Category.operand.Follows (some op.symbol) := by cases op <;> rfl
    obtain ⟨c, ends, h⟩ := ih follows1
    have visible : isBlank op.symbol = false := by cases op <;> rfl
    refine ⟨c, ends, (supplies_blanks w).append (.visible visible ?_ h)⟩
    -- Nothing before a sign ends an operand, so the check passes over it.
    intro _ left
    cases follows.symm.trans left
  | call w name argument ih =>
    obtain ⟨c1, _, h1⟩ := supplies_lexeme (fun _ => solid_of_isLetter) name
    obtain ⟨c2, ends, h2⟩ := ih trivial
    exact ⟨c2, ends, (supplies_blanks w).append (h1.append h2)⟩
  | grouped inner ih => exact ih trivial
  | group opening inner closing ih =>
    have follows1 : (Category.chain .sum).Follows (some '(') := rfl
    obtain ⟨c, _, h⟩ := ih follows1
    have closed : Supplies (some c) [')'] (some ')') := .visible rfl nofun .nil
    have inside := h.append ((supplies_blanks closing).append closed)
    exact ⟨')', rfl, (supplies_blanks opening).append (.visible rfl nofun inside)⟩
  | @chain l first others ih1 ih2 =>
    have follows1 : l.operand.Follows before := by cases l <;> exact follows
    obtain ⟨c1, ends1, h1⟩ := ih1 follows1
    have follows2 : (Category.links l).Follows (some c1) := ends1
    obtain ⟨c2, ends2, h2⟩ := ih2 follows2
    exact ⟨c2, ends2, h1.append h2⟩
  | nil =>
    cases before with
    | none => cases follows
    | some c => exact ⟨c, follows, .nil⟩
  | @cons l w op joins operand others ih1 ih2 =>
    have follows1 : l.operand.Follows (some op.symbol) := by cases l <;> cases op <;> rfl
    obtain ⟨c1, ends1, h1⟩ := ih1 follows1
    have follows2 : (Category.links l).Follows (some c1) := ends1
    obtain ⟨c2, ends2, h2⟩ := ih2 follows2
    have visible : isBlank op.symbol = false := by cases op <;> rfl
    refine ⟨c2, ends2, (supplies_blanks w).append (.visible visible ?_ (h1.append h2))⟩
    -- The operand after the operator is in the text, whatever follows it.
    intro _ _ r
    rw [List.append_assoc]
    exact operand.starts (by cases l <;> simp [Chain.operand]) _

end Grammar.Derivation

namespace Structure

/-- Nothing is found in a derived text and in the spaces after it; it ends an operand. -/
lemma findings_derived {k : Category} {x : Derivation k} (follows : k.Follows none) (w : Blanks)
    (r : Text) :
    ∃ before, endsOperand before = true ∧ findings (x.text ++ w.text ++ r) =
      unmatchedFrom [] (x.text ++ w.text).size r ++
        danglingFrom (some before) (x.text ++ w.text).size r := by
  obtain ⟨c, ends, supplies⟩ := x.supplies follows
  have balanced := x.balanced.append (balanced_run w rfl rfl)
  have passed := supplies.append (supplies_blanks w)
  refine ⟨c, ends, ?_⟩
  rw [findings, unmatchedParentheses, danglingOperators, balanced, passed, Nat.zero_add]

/-- Nothing is found in what is recognized of a text. -/
lemma findings_recognized (t : Text) :
    ∃ (s r : Text) (before : Option Char), t = s ++ r ∧ s.size = (parse t).issue.consumed ∧
      findings t = unmatchedFrom [] s.size r ++ danglingFrom before s.size r := by
  rcases parse_cases t with ⟨x, w, r, _, eq, parsed⟩ | ⟨_, _, parsed⟩
  · obtain ⟨before, _, found⟩ := findings_derived (x := x) rfl w r
    rw [← List.append_assoc] at eq
    rw [← eq] at found
    exact ⟨x.text ++ w.text, r, some before, eq, by rw [parsed, Text.size_append], found⟩
  · exact ⟨[], t, none, rfl, by rw [parsed]; rfl, rfl⟩

end Structure

variable {t : Text}

/-- A derived text passes the checks and is evaluated as what the derivation means. -/
theorem analyze_derived {x : Derivation (.chain .sum)} {w : Blanks} (nx : x.nesting < maxDepth)
    (eq : t = x.text ++ w.text) (left : Expr) :
    let e := x.meaning left 0
    findings t = [] ∧ (x.tree 0).toExpr = .ok e ∧
      analyze t = ⟨(e.eval t []).2.map (·.diagnostic t), some e,
        if (e.eval t []).2.isEmpty then (e.eval t []).1 else none⟩ := by
  have mapped := x.toExpr_tree left 0
  obtain ⟨before, _, found⟩ := findings_derived (x := x) rfl w []
  rw [List.append_nil, ← eq] at found
  refine ⟨found, mapped, ?_⟩
  have complete : analyze t = .ofTree t (x.tree 0) := by
    simp only [analyze, Analysis.ofOutcome, Analysis.preliminary, parse_derived nx eq, found]
    simp [Issue.isComplete, unmatchedFrom, danglingFrom]
  rw [complete, Analysis.ofTree, show (x.tree 0).toExpr = _ from mapped]

/-- A text that is no expression as a whole is not evaluated. -/
lemma analyze_incomplete (incomplete : (parse t).issue.isComplete = false) :
    analyze t = ⟨(Analysis.preliminary t (parse t).issue).map (·.diagnostic t), none, none⟩ := by
  rw [analyze, Analysis.ofOutcome, incomplete]
  split <;> rfl

/-- Every finding of the checks on raw text is on a character that is not recognized.  A text that
is an expression as a whole has none: its tree has an expression, and the analysis evaluates it. -/
theorem findings_rejected (t : Text) :
    (∀ f ∈ findings t, ∃ (before : Text) (c : Char) (after : Text),
      t = before ++ c :: after ∧
      (parse t).issue.consumed ≤ before.size ∧
      f.span = .ofChar before.size c) ∧
    ((parse t).issue.isComplete = true → findings t = [] ∧
      ∃ root e, (parse t).root = some root ∧ root.toExpr = .ok e ∧
        analyze t = ⟨(e.eval t []).2.map (·.diagnostic t), some e,
          if (e.eval t []).2.isEmpty then (e.eval t []).1 else none⟩) := by
  constructor
  · intro f mem
    obtain ⟨s, r, last, rfl, consumed, found⟩ := findings_recognized t
    have on : f.On s.size r := by
      rw [found, List.mem_append] at mem
      cases mem with
      | inr dangling => exact mem_danglingFrom dangling
      | inl unmatched =>
        cases mem_unmatchedFrom unmatched with
        | inr on => exact on
        | inl opened => obtain ⟨k, none, _⟩ := opened; cases none
    obtain ⟨before, c, after, rfl, span⟩ := on
    refine ⟨s ++ before, c, after, ?_, ?_, ?_⟩
    · rw [List.append_assoc]
    · rw [← consumed, Text.size_append]
      exact Nat.le_add_right ..
    · rw [span, Text.size_append]
  · intro complete
    obtain ⟨x, w, nx, eq⟩ := derived_of_isComplete complete
    obtain ⟨none, mapped, analyzed⟩ := analyze_derived nx eq default
    exact ⟨none, x.tree 0, _, by rw [parse_derived nx eq], mapped, analyzed⟩

/-- In `1)` the closing parenthesis is found and lies behind what is recognized; `-(2)` is an
expression as a whole, and nothing is found in it. -/
theorem findings_rejected_closing :
    (∃ (before : Text) (c : Char) (after : Text), ['1', ')'] = before ++ c :: after ∧
      (parse ['1', ')']).issue.consumed ≤ before.size ∧
      Span.ofChar 1 ')' = .ofChar before.size c) ∧
    findings ['-', '(', '2', ')'] = [] := by
  have found : ⟨.orphanClosing, .ofChar 1 ')'⟩ ∈ findings ['1', ')'] := by decide
  have complete : (parse ['-', '(', '2', ')']).issue.isComplete = true := by decide +kernel
  exact ⟨(findings_rejected _).1 _ found, ((findings_rejected _).2 complete).1⟩

end Reckoner
