/-!
# Magnitudes

The non-negative doubles numbered in increasing order from zero, so that magnitude `n` is the one
with bit pattern `n`; `infinity` is the first that is not finite.  Every finite magnitude is a whole
number of units of `2 ^ -1074`.  Main statement: rounding a ratio that is a magnitude gives that
magnitude back (`nearest_units`).
-/

namespace Reckoner.Magnitude

-- Powers are those of the core library, whatever else is in scope.
attribute [local instance(high)] instPowNat

/-- The least magnitude that is not finite. -/
def infinity : Nat := 0x7ff * 2 ^ (52 : Nat)

/-- The binary places after the point that the least magnitude above zero needs. -/
def places : Nat := 1074

/-- How many units make one. -/
def unitsPerOne : Nat := 2 ^ places

/-- The exponent of two that a magnitude's significand is scaled by. -/
def scale (n : Nat) : Nat := n / 2 ^ (52 : Nat) - 1

/-- The significand of a magnitude, at most 53 bits wide. -/
def significand (n : Nat) : Nat := n - scale n * 2 ^ (52 : Nat)

/-- The value of a finite magnitude in units. -/
def units (n : Nat) : Nat := significand n * 2 ^ scale n

/-- A quotient rounded to the nearest whole number, halves to the even one. -/
def divHalfEven (num den : Nat) : Nat :=
  let quotient := num / den
  let remainder := num % den
  if 2 * remainder < den ∨ (2 * remainder = den ∧ quotient % 2 = 0) then quotient else quotient + 1

/-- The magnitude nearest to `num / den`, halves to the even significand. -/
def nearest (num den : Nat) : Nat :=
  let total := num * unitsPerOne
  let scale := (total / den).log2 - 52
  min infinity (scale * 2 ^ (52 : Nat) + divHalfEven total (den * 2 ^ scale))

/-- The double of a magnitude. -/
def toFloat (n : Nat) : Float := Float.ofBits n.toUInt64

/-- The magnitude of a double. -/
def ofFloat (x : Float) : Nat := x.toBits.toNat % 2 ^ (63 : Nat)

/-- The sign bit of a double. -/
def isNegative (x : Float) : Bool := 2 ^ (63 : Nat) ≤ x.toBits.toNat

/-- One has units. -/
theorem unitsPerOne_pos : 0 < unitsPerOne := Nat.pow_pos Nat.zero_lt_two

/-- A magnitude is its scale and its significand. -/
theorem significand_add_scale (n : Nat) : scale n * 2 ^ (52 : Nat) + significand n = n := by
  unfold significand scale
  omega

/-- A significand has 53 bits, or fewer if it is not scaled. -/
theorem significand_bounds (n : Nat) :
    significand n < 2 ^ (53 : Nat) ∧ (2 ^ (52 : Nat) ≤ significand n ∨ scale n = 0) := by
  unfold significand scale
  omega

/-- A quotient without remainder is not rounded. -/
theorem divHalfEven_mul_right (k : Nat) {den : Nat} (pos : 0 < den) :
    divHalfEven (k * den) den = k := by
  simp [divHalfEven, Nat.mul_div_cancel k pos, pos]

/-- Every doubling adds one to the logarithm. -/
theorem log2_mul_two_pow {m : Nat} (pos : m ≠ 0) (k : Nat) : (m * 2 ^ k).log2 = m.log2 + k := by
  induction k with
  | zero => simp
  | succ k ih =>
    have ne : m * 2 ^ k ≠ 0 := Nat.mul_ne_zero pos (Nat.pos_iff_ne_zero.1 (Nat.two_pow_pos k))
    rw [Nat.pow_succ, ← Nat.mul_assoc, Nat.mul_comm _ 2, Nat.log2_two_mul ne, ih, Nat.add_assoc]

/-- The scale of a magnitude can be read off its value. -/
theorem log2_units_sub (n : Nat) : (units n).log2 - 52 = scale n := by
  obtain ⟨small, large⟩ := significand_bounds n
  unfold units
  rcases large with large | unscaled
  · have ne : significand n ≠ 0 := by omega
    have log : (significand n).log2 = 52 := by
      rw [Nat.log2_eq_iff ne]
      omega
    rw [log2_mul_two_pow ne, log]
    omega
  · rw [unscaled, Nat.pow_zero, Nat.mul_one]
    by_cases zero : significand n = 0
    · simp [zero]
    · have := (Nat.log2_lt zero).2 small
      omega

/-- A value that is a magnitude is rounded to it. -/
theorem nearest_units {n : Nat} (finite : n < infinity) : nearest (units n) unitsPerOne = n := by
  have whole : units n * unitsPerOne / unitsPerOne = units n := Nat.mul_div_cancel _ unitsPerOne_pos
  have exact : divHalfEven (units n * unitsPerOne) (unitsPerOne * 2 ^ scale n) = significand n := by
    have : units n * unitsPerOne = significand n * (unitsPerOne * 2 ^ scale n) := by
      unfold units
      rw [Nat.mul_assoc, Nat.mul_comm (2 ^ scale n)]
    rw [this, divHalfEven_mul_right _ (Nat.mul_pos unitsPerOne_pos (Nat.two_pow_pos _))]
  simp only [nearest, whole, log2_units_sub, exact, significand_add_scale]
  omega

end Reckoner.Magnitude
