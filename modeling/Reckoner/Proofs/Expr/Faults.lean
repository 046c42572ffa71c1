import Mathlib.Tactic.Lemma
import Reckoner.Expr.Eval

/-!
# Values and faults

Evaluation comes to a value or to a fault, never to both or neither (`eval_settled`): it only adds
to what was found before, and it adds something exactly where it gives no value.
-/

namespace Reckoner

variable {span : Span} {found more : List Finding} {r : Option Float × List Finding}

/-- The outcome of an evaluation after `found`: a value and nothing new, or no value and something
new. -/
inductive Settled (found : List Finding) : Option Float × List Finding → Prop where
  | value (x : Float) : Settled found (some x, found)
  | fault {others : List Finding} : others ≠ [] → Settled found (none, found ++ others)

/-- Without a value, more findings before the outcome leave it without one. -/
lemma Settled.after_fault (some_more : more ≠ []) (h : Settled (found ++ more) r) :
    Settled found (none, r.2) := by
  cases h with
  | value => exact .fault some_more
  | fault _ =>
    rw [List.append_assoc]
    exact .fault (List.append_ne_nil_of_left_ne_nil some_more _)

/-- A result settles as a value with nothing new, or as a fault and no value. -/
lemma settle_settled (result : Except Fault Float) : Settled found (settle span found result) := by
  cases result with
  | ok x => exact .value x
  | error fault => exact .fault (List.cons_ne_nil _ _)

/-- Evaluation settles every expression. -/
theorem Expr.eval_settled (e : Expr) (t : Text) (found : List Finding) :
    Settled found (e.eval t found) := by
  induction e generalizing found with
  | number span => exact settle_settled _
  | unary op span operand ih =>
    have h := ih found
    simp only [eval]
    generalize operand.eval t found = r at h
    cases h with
    | value x => exact .value _
    | fault some_more => exact .fault some_more
  | call name span argument ih =>
    have h := ih found
    simp only [eval]
    generalize argument.eval t found = r at h
    cases h with
    | value x => exact settle_settled _
    | fault some_more => exact .fault some_more
  | binary op span left right ih1 ih2 =>
    have h1 := ih1 found
    simp only [eval]
    generalize left.eval t found = r1 at h1
    cases h1 with
    | value a =>
      have h2 := ih2 found
      generalize right.eval t found = r2 at h2
      cases h2 with
      | value b => exact settle_settled _
      | fault some_more => exact .fault some_more
    -- The right side is evaluated all the same, for what is wrong with it.
    | fault some_more => exact (ih2 _).after_fault some_more

end Reckoner
