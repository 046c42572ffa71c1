import Reckoner.Analysis
import Reckoner.Proofs.Expr.Faults
import Reckoner.Proofs.Tree.Defective

/-!
# The gate of the analysis

An outcome need not come from reading the text it is analyzed with: its issue may contradict itself
or the text, and its tree may be missing or malformed.  `gated_ofOutcome` says what any outcome at
all comes to: its tree is withheld, or it is blamed for one defect, or its expression is evaluated.
-/

namespace Reckoner

/-- Nothing stands against evaluating the tree `root` over a text. -/
structure Admits (t : Text) (outcome : Outcome) (root : Node) : Prop where
  complete : outcome.issue.isComplete = true
  silent : Structure.findings t = []
  shallow : outcome.issue.tooDeepAt = none
  root : outcome.root = some root

namespace Analysis

variable {t : Text} {outcome : Outcome} {root : Node} {e : Expr} {err : TreeError}

/-- What an outcome comes to: what was found before, a defect of its tree, or the value of the
expression that its tree reads as. -/
inductive Gated (t : Text) (outcome : Outcome) : Analysis → Prop where
  | withheld (shut : ∀ root, ¬Admits t outcome root) :
    Gated t outcome ⟨(preliminary t outcome.issue).map (·.diagnostic t), none, none⟩
  | blamed {root : Node} {err : TreeError} (admits : Admits t outcome root)
    (fails : root.toExpr = .error err) :
    Gated t outcome ⟨[.ofSpan t err.span err.defect.message], none, none⟩
  | evaluated {root : Node} {e : Expr} (admits : Admits t outcome root)
    (reads : root.toExpr = .ok e) :
    Gated t outcome ⟨(e.eval t []).2.map (·.diagnostic t), some e, (e.eval t []).1⟩

/-- Nothing is found before the evaluation if the raw text is sound and no operand is too deep. -/
lemma preliminary_eq_nil_iff {issue : Issue} :
    preliminary t issue = [] ↔ Structure.findings t = [] ∧ issue.tooDeepAt = none := by
  simp [preliminary]

/-- An outcome that the gate admits is analyzed through its tree. -/
lemma ofOutcome_of_admits (admits : Admits t outcome root) :
    ofOutcome t outcome = ofTree t root := by
  have nothing : preliminary t outcome.issue = [] :=
    preliminary_eq_nil_iff.mpr ⟨admits.silent, admits.shallow⟩
  simp [ofOutcome, admits.root, admits.complete, nothing]

/-- Where the gate is shut only what was found before is reported. -/
lemma ofOutcome_of_shut (shut : ∀ root, ¬Admits t outcome root) :
    ofOutcome t outcome = ⟨(preliminary t outcome.issue).map (·.diagnostic t), none, none⟩ := by
  rw [ofOutcome]
  cases eq : outcome.root with
  | none => rfl
  | some root =>
    refine if_neg fun opened => shut root ?_
    rw [Bool.and_eq_true, List.isEmpty_iff, preliminary_eq_nil_iff] at opened
    obtain ⟨complete, silent, shallow⟩ := opened
    exact ⟨complete, silent, shallow, eq⟩

/-- A value is not withheld on account of findings: where there are any, there is none. -/
lemma ofTree_ok (reads : root.toExpr = .ok e) :
    ofTree t root = ⟨(e.eval t []).2.map (·.diagnostic t), some e, (e.eval t []).1⟩ := by
  have settled := e.eval_settled t []
  rw [ofTree, reads]
  simp only
  generalize e.eval t [] = r at settled
  cases settled with
  | value x => rfl
  | fault some => simp [some]

/-- A tree without an expression is reported by its defect and has no value. -/
lemma ofTree_error (fails : root.toExpr = .error err) :
    ofTree t root = ⟨[.ofSpan t err.span err.defect.message], none, none⟩ := by
  rw [ofTree, fails]
  rfl

/-- Every outcome passes the gate or does not, and what comes out is one of three things. -/
lemma gated_ofOutcome (t : Text) (outcome : Outcome) : Gated t outcome (ofOutcome t outcome) := by
  by_cases opened : ∃ root, Admits t outcome root
  · obtain ⟨root, admits⟩ := opened
    rw [ofOutcome_of_admits admits]
    cases read : root.toExpr with
    | ok e => exact ofTree_ok read ▸ .evaluated admits read
    | error err => exact ofTree_error read ▸ .blamed admits read
  · have shut : ∀ root, ¬Admits t outcome root := not_exists.mp opened
    exact ofOutcome_of_shut shut ▸ .withheld shut

/-- There is a value exactly where there is an expression in which nothing was found. -/
lemma Gated.isSome_value_iff {a : Analysis} (h : Gated t outcome a) :
    a.value.isSome = true ↔ a.ast.isSome = true ∧ a.errors = [] := by
  cases h with
  | withheld => simp
  | blamed => simp
  | @evaluated _ e =>
    have settled := e.eval_settled t []
    generalize e.eval t [] = r at settled
    cases settled with
    | value x => simp
    | fault some => simp [some]

/-- An expression was read from an admitted tree, and it was evaluated. -/
lemma Gated.of_ast {a : Analysis} (h : Gated t outcome a) (read : a.ast = some e) :
    (∃ root, Admits t outcome root ∧ root.toExpr = .ok e) ∧
      a.value = (e.eval t []).1 ∧ a.errors = (e.eval t []).2.map (·.diagnostic t) := by
  cases h with
  | withheld => cases read
  | blamed => cases read
  | evaluated admits reads =>
    cases read
    exact ⟨⟨_, admits, reads⟩, rfl, rfl⟩

/-- Whatever the outcome, a text has a value exactly when it has an expression and no diagnostic.  It
has an expression only if its tree is admitted and reads as that expression, and its value is then
the one that the expression evaluates to.  A tree that is admitted but reads as no expression leaves
one diagnostic, on a node that has a defect, and neither expression nor value. -/
theorem ofOutcome_value_or_report (t : Text) (outcome : Outcome) :
    ((ofOutcome t outcome).value.isSome = true ↔
      (ofOutcome t outcome).ast.isSome = true ∧ (ofOutcome t outcome).errors = []) ∧
    (∀ e, (ofOutcome t outcome).ast = some e ↔
      ∃ root, Admits t outcome root ∧ root.toExpr = .ok e) ∧
    (∀ e, (ofOutcome t outcome).ast = some e →
      (ofOutcome t outcome).value = (e.eval t []).1 ∧
      (ofOutcome t outcome).errors = (e.eval t []).2.map (·.diagnostic t)) ∧
    ∀ root err, Admits t outcome root → root.toExpr = .error err →
      ∃ n, root.Defective n err.defect ∧ n.span = err.span ∧
        ofOutcome t outcome = ⟨[.ofSpan t n.span err.defect.message], none, none⟩ := by
  have gated := gated_ofOutcome t outcome
  refine ⟨gated.isSome_value_iff, fun e => ⟨fun read => (gated.of_ast read).1, ?_⟩,
    fun e read => (gated.of_ast read).2, ?_⟩
  · rintro ⟨root, admits, reads⟩
    rw [ofOutcome_of_admits admits, ofTree_ok reads]
  · intro root err admits fails
    obtain ⟨n, defective, span⟩ := Node.blames_toExpr fails
    refine ⟨n, defective, span, ?_⟩
    rw [ofOutcome_of_admits admits, ofTree_error fails, span]

/-- Two trees that no text reads as: a number beyond the text is an expression without value, and a
link without parts is reported where it stands. -/
theorem ofOutcome_value_or_report_by_hand :
    let beyond : Node := ⟨.number, ⟨5, 9⟩, ['2'], []⟩
    let factor : Node := ⟨.factor, ⟨0, 1⟩, ['1'], [⟨.number, ⟨0, 1⟩, ['1'], []⟩]⟩
    let link : Node := ⟨.link, ⟨1, 2⟩, ['2'], []⟩
    let broken : Node := ⟨.expr, ⟨0, 2⟩, ['1', '2'],
      [⟨.term, ⟨0, 1⟩, ['1'], [factor]⟩, ⟨.repetition, ⟨1, 2⟩, ['2'], [link]⟩]⟩
    (ofOutcome ['2'] ⟨⟨true, 1, 1, [], none⟩, some beyond⟩).value = none ∧
    ofOutcome ['1', '2'] ⟨⟨true, 2, 2, [], none⟩, some broken⟩ =
      ⟨[.ofSpan ['1', '2'] ⟨1, 2⟩ "incomplete parse tree: Maillon without operator"],
        none, none⟩ := by
  intro beyond factor link broken
  obtain ⟨_, reads, evaluates, _⟩ :=
    ofOutcome_value_or_report ['2'] ⟨⟨true, 1, 1, [], none⟩, some beyond⟩
  obtain ⟨_, _, _, reports⟩ :=
    ofOutcome_value_or_report ['1', '2'] ⟨⟨true, 2, 2, [], none⟩, some broken⟩
  constructor
  · have read : beyond.toExpr = .ok (.number ⟨5, 9⟩) := by decide +kernel
    have ast := (reads _).mpr ⟨beyond, ⟨rfl, by decide, rfl, rfl⟩, read⟩
    rw [(evaluates _ ast).1]
    rfl
  · have fails : broken.toExpr = .error (link.lacks .operator) := by decide +kernel
    obtain ⟨n, _, span, reported⟩ := reports broken _ ⟨rfl, by decide, rfl, rfl⟩ fails
    rw [reported, span]
    rfl

end Analysis

end Reckoner
