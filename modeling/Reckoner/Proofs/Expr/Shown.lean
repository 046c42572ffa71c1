import Mathlib.Tactic.Lemma
import Reckoner.Proofs.Expr.Evaluation
import Reckoner.Proofs.Expr.Written
import Reckoner.Proofs.Number.Positional
import Reckoner.Proofs.Number.Sign

/-!
# Shown values

What a finite double is shown as can be typed again: it is a literal, or a minus sign and a
literal, and its analysis has that double as its value and nothing to report (`analyze_shown`).
Only the sign of negative zero, which is not shown, is lost.
-/

namespace Reckoner

open Grammar

section

variable {s : Text} {e : Expr} {x : Float} {lexeme : Lexeme isNumeric}

/-- What is written and has a value is analyzed to that value, and nothing is reported. -/
lemma value_analyze_written (h : Written (.chain .sum) (maxDepth - 1) 0 s e)
    (value : Evaluates s e x) :
    (analyze s).errors = [] ∧ (analyze s).value = some x := by
  obtain ⟨y, rfl, ny, meaning⟩ := h.derived
  have less : y.nesting < maxDepth := Nat.lt_of_le_sub_one maxDepth_pos ny
  have eq : y.text = y.text ++ (Run.nil : Blanks).text := (List.append_nil _).symm
  obtain ⟨_, _, analyzed⟩ := analyze_derived less eq e
  rw [analyzed, meaning, value.eval]
  exact ⟨rfl, rfl⟩

/-- A literal that can be read is analyzed to what it is read as. -/
lemma analyze_literal (read : Numeral.read? lexeme.text = some x) :
    (analyze lexeme.text).errors = [] ∧ (analyze lexeme.text).value = some x := by
  have operand := Written.number (n := maxDepth - 1) (o := 0) Run.nil lexeme
  apply value_analyze_written (.tighter .sum (.tighter .product operand))
  apply Evaluates.number
  rw [← read]
  apply congrArg
  apply Text.slice_middle (u := []) (r := []) rfl
  exact (List.append_nil _).symm

/-- With a minus sign before it, it is analyzed to the negative of that. -/
lemma analyze_negated_literal (read : Numeral.read? lexeme.text = some x) :
    (analyze ('-' :: lexeme.text)).errors = [] ∧
      (analyze ('-' :: lexeme.text)).value = some (-x) := by
  have operand := Written.number (n := maxDepth - 2) (o := 1) Run.nil lexeme
  have signed := Written.signed (o := 0) Run.nil .negate operand
  apply value_analyze_written (.tighter .sum (.tighter .product signed))
  apply Evaluates.negate
  apply Evaluates.number
  rw [← read]
  apply congrArg
  apply Text.slice_middle (u := ['-']) (r := []) rfl
  exact congrArg ('-' :: ·) (List.append_nil _).symm

end

namespace Numeral

variable {x : Float}

/-- The literal that a finite magnitude is shown as. -/
def literal (n : Nat) : Lexeme isNumeric :=
  ⟨⟨_, Decimal.isNumeric_positional (Decimal.shortest n)⟩, Decimal.positional_ne_nil _⟩

/-- A finite magnitude is shown as a literal. -/
lemma toList_ofMagnitude {n : Nat} (finite : n < Magnitude.infinity) :
    (ofMagnitude n).toList = (literal n).text := by
  rw [ofMagnitude, if_pos finite, String.toList_ofList]
  rfl

/-- A finite double that is negative and not zero is shown with a minus sign. -/
lemma toList_ofFloat_of_minus (finite : x.isFinite = true) (minus : Magnitude.isNegative x = true)
    (some : Magnitude.ofFloat x ≠ 0) :
    (ofFloat x).toList = '-' :: (literal (Magnitude.ofFloat x)).text := by
  have small := (Magnitude.isFinite_iff x).mp finite
  have signed : (Magnitude.isNegative x && Magnitude.ofFloat x != 0 &&
      Magnitude.ofFloat x ≤ Magnitude.infinity) = true := by
    simp [minus, some, Nat.le_of_lt small]
  rw [ofFloat, if_pos signed, String.toList_append, toList_ofMagnitude small]
  rfl

/-- Any other finite double is shown as its magnitude. -/
lemma toList_ofFloat (finite : x.isFinite = true)
    (plain : Magnitude.isNegative x = false ∨ Magnitude.ofFloat x = 0) :
    (ofFloat x).toList = (literal (Magnitude.ofFloat x)).text := by
  have small := (Magnitude.isFinite_iff x).mp finite
  have unsigned : (Magnitude.isNegative x && Magnitude.ofFloat x != 0 &&
      Magnitude.ofFloat x ≤ Magnitude.infinity) = false := by
    rcases plain with plus | zero
    · simp [plus]
    · simp [zero]
  rw [ofFloat, if_neg (Bool.eq_false_iff.mp unsigned), toList_ofMagnitude small]

end Numeral

/-- The analysis of what a finite double is shown as. -/
lemma value_analyze_shown {v : Float} (finite : v.isFinite = true) :
    (analyze (Numeral.ofFloat v).toList).errors = [] ∧
      (analyze (Numeral.ofFloat v).toList).value = some (if v = -0 then 0 else v) := by
  have read : Numeral.read? (Numeral.literal (Magnitude.ofFloat v)).text =
      some (Magnitude.toFloat (Magnitude.ofFloat v)) :=
    Decimal.read?_positional_shortest ((Magnitude.isFinite_iff v).mp finite)
  cases sign : Magnitude.isNegative v with
  | false =>
    have other : v ≠ -0 := by
      intro minus
      cases (congrArg Magnitude.isNegative minus).symm.trans sign
    rw [Magnitude.toFloat_ofFloat sign] at read
    rw [Numeral.toList_ofFloat finite (.inl sign), if_neg other]
    exact analyze_literal read
  | true =>
    have back := Magnitude.neg_toFloat_ofFloat finite sign
    by_cases zero : Magnitude.ofFloat v = 0
    · -- The sign of zero is not shown, so what is read back has none.
      rw [zero] at read back
      have minus : v = -0 := back.symm
      rw [Numeral.toList_ofFloat finite (.inr zero), zero, if_pos minus]
      exact analyze_literal read
    · have other : v ≠ -0 := by
        intro minus
        exact zero (congrArg Magnitude.ofFloat minus)
      have analyzed := analyze_negated_literal read
      rw [back] at analyzed
      rw [Numeral.toList_ofFloat_of_minus finite sign zero, if_neg other]
      exact analyzed

/-- What a finite double is shown as is analyzed to a value that equals the double, and nothing is
reported.  The value is the double itself, only negative zero has become zero. -/
theorem analyze_shown (v : Float) (finite : v.isFinite = true) :
    (analyze (Numeral.ofFloat v).toList).errors = [] ∧
      ∃ w, (analyze (Numeral.ofFloat v).toList).value = some w ∧ (w == v) = true ∧
        w = if v = -0 then 0 else v := by
  obtain ⟨errors, value⟩ := value_analyze_shown finite
  refine ⟨errors, _, value, ?_, rfl⟩
  split
  case isTrue zero =>
    rw [zero]
    rfl
  case isFalse =>
    apply Float.beq_self_iff.mpr
    intro undefined
    rw [undefined] at finite
    cases finite

/-- The double nearest to minus one tenth is shown by four characters, and they mean it. -/
theorem analyze_shown_tenth :
    Numeral.ofFloat (.ofBits 0xbfb999999999999a) = "-0.1" ∧
      (analyze ['-', '0', '.', '1']).value = some (.ofBits 0xbfb999999999999a) := by
  have shown : Numeral.ofFloat (.ofBits 0xbfb999999999999a) = "-0.1" := by decide +kernel
  obtain ⟨_, w, value, _, same⟩ := analyze_shown (.ofBits 0xbfb999999999999a) rfl
  have other : Float.ofBits 0xbfb999999999999a ≠ -0 := by decide +kernel
  rw [if_neg other] at same
  rw [shown, same] at value
  exact ⟨shown, value⟩

end Reckoner
