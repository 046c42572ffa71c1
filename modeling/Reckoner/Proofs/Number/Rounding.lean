import Mathlib.Tactic.Lemma
import Reckoner.Number.Decimal

/-!
# Rounding

The magnitude nearest to a ratio depends on nothing but the ratio (`nearest_mul_mul`), so a decimal
may be extended by a power of ten.  The decimal that is found for a finite magnitude stands for it,
whether the search hits a grid or the exact value is taken (`magnitude_shortest`).
-/

namespace Reckoner

-- Powers are those of the core library, whatever else is in scope.
attribute [local instance(high)] instPowNat

namespace Magnitude

variable {num den k n : Nat}

/-- A factor of both numbers does not change their rounded quotient. -/
lemma divHalfEven_mul_mul (pos : 0 < k) :
    divHalfEven (num * k) (den * k) = divHalfEven num den := by
  have quotient : num * k / (den * k) = num / den := Nat.mul_div_mul_right _ _ pos
  have remainder : num * k % (den * k) = num % den * k := Nat.mul_mod_mul_right ..
  have less : 2 * (num % den * k) < den * k ↔ 2 * (num % den) < den := by
    rw [← Nat.mul_assoc]
    exact Nat.mul_lt_mul_right pos
  have half : 2 * (num % den * k) = den * k ↔ 2 * (num % den) = den := by
    rw [← Nat.mul_assoc]
    exact Nat.mul_right_cancel_iff pos
  simp only [divHalfEven, quotient, remainder, less, half]

/-- The nearest magnitude depends on the ratio alone. -/
lemma nearest_mul_mul (pos : 0 < k) : nearest (num * k) (den * k) = nearest num den := by
  have total : num * k * unitsPerOne = num * unitsPerOne * k := Nat.mul_right_comm ..
  have quotient : num * unitsPerOne * k / (den * k) = num * unitsPerOne / den :=
    Nat.mul_div_mul_right _ _ pos
  simp only [nearest, total, quotient]
  rw [Nat.mul_right_comm den k, divHalfEven_mul_mul pos]

/-- Every magnitude but zero has units. -/
lemma units_ne_zero (some : n ≠ 0) : units n ≠ 0 := by
  have significand : significand n ≠ 0 := by
    have parts := significand_add_scale n
    obtain ⟨_, normal | unscaled⟩ := significand_bounds n
    · omega
    · rw [unscaled] at parts
      omega
  exact Nat.mul_ne_zero significand (Nat.ne_of_gt (Nat.two_pow_pos _))

end Magnitude

namespace Decimal

variable {n : Nat}

/-- A decimal that is not tiny is rounded as the fraction that it writes. -/
lemma magnitude_fraction {c k : Nat} (some : c ≠ 0) (large : ¬ -(k : Int) + c.log2 + 1 < -330) :
    magnitude ⟨c, -k⟩ = Magnitude.nearest c (10 ^ k) := by
  have small : ¬ 310 ≤ -(k : Int) := by omega
  rw [magnitude, if_neg some, if_neg small, if_neg large]
  cases k with
  | zero => exact congrArg (Magnitude.nearest · 1) (Nat.mul_one c)
  | succ k => rfl

/-- A decimal of a finite magnitude without places after the point is rounded as the whole number
that it writes. -/
lemma magnitude_whole {c e : Nat} (some : c ≠ 0) (finite : magnitude ⟨c, e⟩ < Magnitude.infinity) :
    magnitude ⟨c, e⟩ = Magnitude.nearest (c * 10 ^ e) 1 := by
  rw [magnitude, if_neg some] at finite ⊢
  by_cases huge : 310 ≤ (e : Int)
  · rw [if_pos huge] at finite
    exact absurd finite (Nat.lt_irrefl _)
  · have large : ¬ (e : Int) + c.log2 + 1 < -330 := by omega
    rw [if_neg huge, if_neg large]

/-- The exact value of a finite magnitude stands for it. -/
lemma magnitude_exact (finite : n < Magnitude.infinity) (some : n ≠ 0) :
    (exact n).magnitude = n := by
  have positive : 0 < Magnitude.units n := Nat.pos_of_ne_zero (Magnitude.units_ne_zero some)
  have fives : 0 < 5 ^ Magnitude.places := Nat.pow_pos (Nat.succ_pos 4)
  have coefficient : Magnitude.units n * 5 ^ Magnitude.places ≠ 0 :=
    Nat.ne_of_gt (Nat.mul_pos positive fives)
  -- Five is more than two times two, so the coefficient makes up for the negative exponent.
  have log : 2 * Magnitude.places ≤ (Magnitude.units n * 5 ^ Magnitude.places).log2 := by
    rw [Nat.le_log2 coefficient, Nat.pow_mul]
    have powers : (2 ^ (2 : Nat)) ^ Magnitude.places ≤ 5 ^ Magnitude.places :=
      Nat.pow_le_pow_left (by decide) _
    exact Nat.le_trans powers (Nat.le_mul_of_pos_left _ positive)
  have tens (k : Nat) : 10 ^ k = 2 ^ k * 5 ^ k := Nat.mul_pow 2 5 k
  have nearest : Magnitude.nearest (Magnitude.units n * 5 ^ Magnitude.places)
      (10 ^ Magnitude.places) = n := by
    rw [tens, ← Magnitude.unitsPerOne, Magnitude.nearest_mul_mul fives,
      Magnitude.nearest_units finite]
  have large : ¬ -(Magnitude.places : Int) + (Magnitude.units n * 5 ^ Magnitude.places).log2 + 1 <
      -330 := by
    have places : 330 ≤ Magnitude.places := by decide
    omega
  rw [exact, magnitude_fraction coefficient large, nearest]

/-- The decimal that is found for a finite magnitude stands for it. -/
theorem magnitude_shortest (finite : n < Magnitude.infinity) : (shortest n).magnitude = n := by
  rw [shortest]
  split
  case isTrue zero =>
    rw [zero]
    rfl
  case isFalse some =>
    dsimp only
    generalize grids : List.findSome? _ _ = found
    cases found with
    | none => exact magnitude_exact finite some
    | some d =>
      obtain ⟨i, _, hit⟩ := List.exists_of_findSome?_eq_some grids
      exact magnitude_of_onGrid? hit

end Decimal

end Reckoner
