import Mathlib.Data.List.Perm.Subperm
import Reckoner.Expr.Eval
import Reckoner.Proofs.Expr.Tokens

/-!
# What evaluation finds

Evaluation only adds findings, and every one that it adds is on a token of its own
(`Expr.exists_found`).  The tokens of an expression stand apart, so no two findings are on the same
span.
-/

namespace Reckoner

variable {t : Text}

/-- A token adds one finding, which is on it, or none. -/
lemma settle_found (span : Span) (found : List Finding) (result : Except Fault Float) :
    ∃ more, (settle span found result).2 = found ++ more ∧
      (more.map (·.span)).Sublist [span] := by
  cases result with
  | ok x => exact ⟨[], (List.append_nil _).symm, List.nil_sublist _⟩
  | error fault => exact ⟨[⟨fault, span⟩], rfl, .refl _⟩

/-- What a token adds to the findings in its operand is on the token. -/
lemma settle_found_after {spans : List Span} {more : List Finding}
    (sub : (more.map (·.span)).Subperm spans) (span : Span) (found : List Finding)
    (result : Except Fault Float) :
    ∃ all, (settle span (found ++ more) result).2 = found ++ all ∧
      (all.map (·.span)).Subperm (span :: spans) := by
  obtain ⟨last, eq, own⟩ := settle_found span (found ++ more) result
  refine ⟨more ++ last, by rw [eq, List.append_assoc], ?_⟩
  rw [List.map_append]
  exact (sub.append own.subperm).trans (List.perm_append_singleton span spans).subperm

namespace Expr

/-- Evaluation adds findings on tokens of the expression, at most one on each. -/
theorem exists_found (e : Expr) (t : Text) (found : List Finding) :
    ∃ more, (e.eval t found).2 = found ++ more ∧
      (more.map (·.span)).Subperm ((e.tokens t).map (·.span)) := by
  induction e generalizing found with
  | number span =>
    obtain ⟨more, eq, own⟩ := settle_found span found (readNumber (t.slice span))
    exact ⟨more, eq, own.subperm⟩
  | unary op span operand ih =>
    obtain ⟨more, eq, sub⟩ := ih found
    refine ⟨more, ?_, sub.trans (List.sublist_cons_self ..).subperm⟩
    rw [← eq, eval]
    obtain ⟨_ | x, _⟩ := operand.eval t found <;> rfl
  | call name span argument ih =>
    obtain ⟨more, eq, sub⟩ := ih found
    simp only [eval, tokens, List.map_cons]
    generalize argument.eval t found = r at eq
    obtain ⟨value, _⟩ := r
    subst eq
    cases value with
    | some x => exact settle_found_after sub span found _
    | none => exact ⟨more, rfl, sub.trans (List.sublist_cons_self ..).subperm⟩
  | binary op span left right ih1 ih2 =>
    obtain ⟨before, eq1, sub1⟩ := ih1 found
    obtain ⟨after, eq2, sub2⟩ := ih2 (found ++ before)
    have both := sub1.append sub2
    rw [← List.map_append] at both
    -- The operator stands between the tokens of its sides; what it adds comes after both.
    have skip := both.trans ((List.sublist_cons_self span _).append_left _).subperm
    simp only [eval, tokens, List.map_append, List.map_cons]
    generalize left.eval t found = r1 at eq1
    obtain ⟨a, _⟩ := r1
    subst eq1
    generalize right.eval t (found ++ before) = r2 at eq2
    obtain ⟨b, _⟩ := r2
    subst eq2
    rw [List.append_assoc]
    cases a with
    | none => exact ⟨_, rfl, skip⟩
    | some a =>
      cases b with
      | none => exact ⟨_, rfl, skip⟩
      | some b =>
        obtain ⟨all, eq, own⟩ := settle_found_after both span found (op.apply a b)
        exact ⟨all, eq, own.trans List.perm_middle.symm.subperm⟩

end Expr

/-- Nodes that follow each other have different spans. -/
lemma Successive.nodup_spans {start stop : Nat} {ns : List Node} (h : Successive start ns stop) :
    (ns.map (·.span)).Nodup := by
  induction h with
  | nil => exact .nil
  | @cons _ _ n _ _ lt more ih =>
    refine List.nodup_cons.mpr ⟨fun again => ?_, ih⟩
    obtain ⟨m, mem, same⟩ := List.mem_map.mp again
    have after := (more.mem m mem).1
    rw [same] at after
    exact absurd lt (Nat.not_lt.mpr after)

namespace Grammar.Derivation

variable {x : Derivation (.chain .sum)} {w : Blanks}

/-- The expression of a text points at the tokens of its tree. -/
lemma tokens_text (eq : t = x.text ++ w.text) :
    (x.meaning default 0).tokens t = (x.tree 0).marks :=
  x.tokens_meaning (u := []) (v := w.text) default rfl eq

/-- What is found in the expression of a text is found on different spans. -/
theorem nodup_eval (eq : t = x.text ++ w.text) :
    (((x.meaning default 0).eval t []).2.map (·.span)).Nodup := by
  obtain ⟨more, found, all, perm, sub⟩ := (x.meaning default 0).exists_found t []
  have apart : ((x.tree 0).marks.map (·.span)).Nodup := (x.successive_marks le_rfl).nodup_spans
  rw [tokens_text eq] at sub
  rw [found, List.nil_append]
  exact perm.nodup_iff.mp (apart.sublist sub)

end Grammar.Derivation

end Reckoner
