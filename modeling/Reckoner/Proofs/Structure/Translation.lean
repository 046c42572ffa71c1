import Reckoner.Proofs.Expr.Translation
import Reckoner.Proofs.Structure.Agreement

/-!
# Analysis later in a text

Spaces before a text move all that is known about it and change nothing else (`analyze_blanks`).
The checks on raw text pass over the spaces, the parser skips them (`parse_blanks`), and evaluation
does not meet them.
-/

namespace Reckoner

open Grammar Structure

variable {u t : Text} {k : Nat} {w : Blanks}

namespace Structure

/-- In a text that comes later the same parentheses are unmatched. -/
lemma unmatchedFrom_moved (opened : List Nat) (o : Nat) (t : Text) :
    unmatchedFrom (opened.map (· + k)) (o + k) t =
      (unmatchedFrom opened o t).map (·.moved k) := by
  induction t generalizing opened o with
  | nil => simp [unmatchedFrom, Finding.moved, Span.ofChar_moved]
  | cons c t ih =>
    simp only [unmatchedFrom, Nat.add_right_comm o k]
    split
    · exact ih (o :: opened) (o + c.utf8Size)
    split
    · cases opened with
      | nil =>
        rw [List.map_cons, Finding.moved, Span.ofChar_moved]
        exact congrArg (List.cons _) (ih [] (o + c.utf8Size))
      | cons top outer => exact ih outer (o + c.utf8Size)
    · exact ih opened (o + c.utf8Size)

/-- In a text that comes later the same operators are incomplete. -/
lemma danglingFrom_moved (before : Option Char) (o : Nat) (t : Text) :
    danglingFrom before (o + k) t = (danglingFrom before o t).map (·.moved k) := by
  induction t generalizing before o with
  | nil => rfl
  | cons c t ih =>
    simp only [danglingFrom, Nat.add_right_comm o k, ih]
    split
    · rw [List.map_cons, Finding.moved, Span.ofChar_moved]
    · rfl

/-- The checks pass over spaces at the front. -/
lemma findings_blanks (w : Blanks) (t : Text) :
    findings (w.text ++ t) = (findings t).map (·.moved w.text.size) := by
  have balanced : Balanced w.text := balanced_run w rfl rfl
  have supplies : Supplies none w.text none := supplies_blanks w
  have unmatched := unmatchedFrom_moved (k := w.text.size) [] 0 t
  rw [findings, unmatchedParentheses, danglingOperators, balanced, supplies, danglingFrom_moved]
  rw [List.map_nil] at unmatched
  rw [unmatched, findings, List.map_append, unmatchedParentheses, danglingOperators]

end Structure

/-- After other text the same operand is too deep. -/
lemma tooDeepFinding_moved (o : Nat) :
    tooDeepFinding (u ++ t) (o + u.size) = (tooDeepFinding t o).moved u.size := by
  have same : (u ++ t).dropBytes? (o + u.size) = t.dropBytes? o := by
    rw [Nat.add_comm, Text.dropBytes?_append]
  rw [tooDeepFinding, tooDeepFinding, same]
  rcases t.dropBytes? o with _ | _ | ⟨c, r⟩
  · rfl
  · rfl
  · rw [Finding.moved, Span.ofChar_moved]

/-- A text that comes later is as complete as it was. -/
lemma Issue.isComplete_moved (i : Issue) : (i.moved k).isComplete = i.isComplete := by
  obtain ⟨succeeded, consumed, total, expected, tooDeepAt⟩ := i
  cases succeeded <;> simp [Issue.moved, Issue.isComplete]

namespace Analysis

/-- The analysis of a text that comes after `u`. -/
def moved (a : Analysis) (u : Text) : Analysis :=
  ⟨a.errors.map (·.moved u), a.ast.map (.moved u.size), a.value⟩

/-- Blanks in front move what was found before the evaluation. -/
lemma preliminary_blanks (w : Blanks) (t : Text) (issue : Issue) :
    preliminary (w.text ++ t) (issue.moved w.text.size) =
      (preliminary t issue).map (·.moved w.text.size) := by
  have deep : ((issue.moved w.text.size).tooDeepAt.map (tooDeepFinding (w.text ++ t))).toList =
      (issue.tooDeepAt.map (tooDeepFinding t)).toList.map (·.moved w.text.size) := by
    rw [Issue.moved]
    cases issue.tooDeepAt with
    | none => rfl
    | some o => exact congrArg (fun f => [f]) (tooDeepFinding_moved o)
  rw [preliminary, findings_blanks, deep, preliminary, List.map_append]

/-- Findings before evaluation are reported as they are, moved. -/
lemma unevaluated_moved (u t : Text) (found : List Finding) :
    (⟨(found.map (·.moved u.size)).map (·.diagnostic (u ++ t)), none, none⟩ : Analysis) =
      moved ⟨found.map (·.diagnostic t), none, none⟩ u := by
  simp [moved, Finding.diagnostic_moved]

/-- The tree of a derivation is analyzed alike wherever its text stands. -/
lemma ofTree_moved (x : Derivation (.chain .sum)) (u t : Text) :
    ofTree (u ++ t) (x.tree u.size) = (ofTree t (x.tree 0)).moved u := by
  let e := x.meaning default 0
  have before : (x.tree 0).toExpr = .ok e := x.toExpr_tree default 0
  have after : (x.tree u.size).toExpr = .ok (e.moved u.size) := by
    have mapped := x.toExpr_tree (.moved u.size default) (0 + u.size)
    rwa [x.meaning_moved, Nat.zero_add] at mapped
  have evaluated := e.eval_moved (u := u) (t := t) []
  rw [List.map_nil] at evaluated
  simp only [ofTree, before, after, evaluated]
  simp [moved, Finding.diagnostic_moved]

end Analysis

/-- Spaces before a text move its parse and its analysis: the same is recognized or expected, the
expression is the same with its tokens later in the text, it is written and evaluated alike, and
the same diagnostics are on the same characters. -/
theorem analyze_blanks (w : Blanks) (t : Text) :
    parse (w.text ++ t) = (parse t).moved w.text.size ∧
    analyze (w.text ++ t) = (analyze t).moved w.text ∧
    (analyze (w.text ++ t)).ast.map (·.polish (w.text ++ t)) =
      (analyze t).ast.map (·.polish t) := by
  have parsed := parse_blanks w t
  have analyzed : analyze (w.text ++ t) = (analyze t).moved w.text := by
    rw [analyze, analyze, parsed]
    rcases parse_cases t with ⟨x, v, r, _, _, read⟩ | ⟨refusal, _, read⟩
    · simp only [read, Outcome.moved, Option.map_some, x.tree_moved, Nat.zero_add,
        Analysis.ofOutcome, Analysis.preliminary_blanks, Issue.isComplete_moved, List.isEmpty_map]
      split
      · exact Analysis.ofTree_moved x w.text t
      · exact Analysis.unevaluated_moved ..
    · rw [read, Outcome.moved, Analysis.ofOutcome, Analysis.preliminary_blanks]
      exact Analysis.unevaluated_moved ..
  refine ⟨parsed, analyzed, ?_⟩
  rw [analyzed, Analysis.moved, Option.map_map]
  exact congrArg (Option.map · _) (funext fun e => e.polish_moved)

end Reckoner
