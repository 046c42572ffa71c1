import Mathlib.Tactic.Lemma
import Reckoner.Grammar.Expression
import Reckoner.Structure

/-!
# Character classes

The classes of characters that the grammar and the checks on raw text use, as sets of code points,
and how they exclude each other.
-/

namespace Reckoner

open Grammar Structure

variable {c : Char}

/-- The grammar's blanks are the space, the tab and the two characters that end lines. -/
lemma isSpace_iff :
    isSpace c = true ↔ c.toNat = 32 ∨ c.toNat = 9 ∨ c.toNat = 13 ∨ c.toNat = 10 := by
  simp [isSpace, ← Char.toNat_inj, or_assoc]

/-- Numbers are written with digits and points. -/
lemma isNumeric_iff :
    isNumeric c = true ↔ (48 ≤ c.toNat ∧ c.toNat ≤ 57) ∨ c.toNat = 46 := by
  simp [isNumeric, Char.le_def, UInt32.le_iff_toNat_le, ← Char.toNat_inj]

/-- Names are written with the letters of ASCII, of either case. -/
lemma isLetter_iff :
    isLetter c = true ↔ (97 ≤ c.toNat ∧ c.toNat ≤ 122) ∨ (65 ≤ c.toNat ∧ c.toNat ≤ 90) := by
  simp [isLetter, Char.le_def, UInt32.le_iff_toNat_le]

/-- The blanks of ASCII are the characters from tab to carriage return, and the space. -/
lemma isBlank_iff_of_ascii (ascii : c.toNat < 128) :
    isBlank c = true ↔ (9 ≤ c.toNat ∧ c.toNat ≤ 13) ∨ c.toNat = 32 := by
  simp [isBlank, blankRanges]
  omega

/-- Only `+`, `-`, `*` and `/` may join two operands. -/
lemma isBinaryOperator_iff :
    isBinaryOperator c = true ↔
      c.toNat = 43 ∨ c.toNat = 45 ∨ c.toNat = 42 ∨ c.toNat = 47 := by
  simp [isBinaryOperator, ← Char.toNat_inj, or_assoc]

/-- What the grammar takes for a letter is one for the checks on raw text too. -/
lemma isAlphabetic_of_isLetter (h : isLetter c = true) : isAlphabetic c = true := by
  have ascii : c.toNat < 128 := by
    rw [isLetter_iff] at h
    omega
  have lower : c.isLower = (decide ('a' ≤ c) && decide (c ≤ 'z')) := rfl
  have upper : c.isUpper = (decide ('A' ≤ c) && decide (c ≤ 'Z')) := Bool.decide_and ..
  rw [isAlphabetic_of_ascii ascii]
  change (c.isUpper || c.isLower) = true
  rw [upper, lower, Bool.or_comm]
  exact h

/-- No part of a number is one of the grammar's blanks. -/
lemma not_isSpace_of_isNumeric (h : isNumeric c = true) : isSpace c = false := by
  rw [isNumeric_iff] at h
  rw [Bool.eq_false_iff, ne_eq, isSpace_iff]
  omega

/-- No letter of a name is one of the grammar's blanks. -/
lemma not_isSpace_of_isLetter (h : isLetter c = true) : isSpace c = false := by
  rw [isLetter_iff] at h
  rw [Bool.eq_false_iff, ne_eq, isSpace_iff]
  omega

/-- No part of a number is a blank of any kind. -/
lemma not_isBlank_of_isNumeric (h : isNumeric c = true) : isBlank c = false := by
  rw [isNumeric_iff] at h
  rw [Bool.eq_false_iff, ne_eq, isBlank_iff_of_ascii (by omega)]
  omega

/-- No letter of a name is a blank of any kind. -/
lemma not_isBlank_of_isLetter (h : isLetter c = true) : isBlank c = false := by
  rw [isLetter_iff] at h
  rw [Bool.eq_false_iff, ne_eq, isBlank_iff_of_ascii (by omega)]
  omega

/-- No part of a number is a letter. -/
lemma not_isLetter_of_isNumeric (h : isNumeric c = true) : isLetter c = false := by
  rw [isNumeric_iff] at h
  rw [Bool.eq_false_iff, ne_eq, isLetter_iff]
  omega

/-- No letter of a name belongs to a number. -/
lemma not_isNumeric_of_isLetter (h : isLetter c = true) : isNumeric c = false := by
  rw [isLetter_iff] at h
  rw [Bool.eq_false_iff, ne_eq, isNumeric_iff]
  omega

/-- No blank belongs to a number. -/
lemma not_isNumeric_of_isSpace (h : isSpace c = true) : isNumeric c = false := by
  rw [isSpace_iff] at h
  rw [Bool.eq_false_iff, ne_eq, isNumeric_iff]
  omega

/-- No blank belongs to a name. -/
lemma not_isLetter_of_isSpace (h : isSpace c = true) : isLetter c = false := by
  rw [isSpace_iff] at h
  rw [Bool.eq_false_iff, ne_eq, isLetter_iff]
  omega

end Reckoner
