import Mathlib.Tactic.Lemma
import Reckoner.Proofs.Number.Readable
import Reckoner.Proofs.Number.Rounding

/-!
# Positional forms

A decimal in positional form is a run of digits, with a point somewhere behind the first one if
digits are needed there (`positional_cases`).  Read back it is the same number, only without a
positive exponent (`readDecimal?_positional`), so the form in which a finite magnitude is shown is
read as that magnitude (`read?_positional_shortest`).
-/

namespace Reckoner

open Grammar

-- Powers are those of the core library, whatever else is in scope.
attribute [local instance(high)] instPowNat

namespace Decimal

variable {s : Text} {c : Char} {d : Decimal}

/-! The digits of a number and the number that digits write. -/

/-- The characters of the ten digits follow `0` in order. -/
lemma toNat_digitChar : ∀ d < 10, (digitChar d).toNat = '0'.toNat + d := by
  decide

/-- The characters of the ten digits are digits. -/
lemma isDigit_digitChar : ∀ d < 10, Numeral.isDigit (digitChar d) = true := by
  decide

/-- A digit at the end counts once, and those before it ten times as much. -/
lemma ofDigits_concat : ofDigits (s ++ [c]) = 10 * ofDigits s + (c.toNat - '0'.toNat) := by
  simp [ofDigits]

/-- The digits of a number stand for the number. -/
lemma ofDigits_digits (n : Nat) : ofDigits (digits n) = n := by
  fun_induction digits n with
  | case1 n small =>
    have digit := toNat_digitChar n small
    simp only [ofDigits, List.foldl_cons, List.foldl_nil]
    omega
  | case2 n _ ih =>
    have digit := toNat_digitChar (n % 10) (Nat.mod_lt n (Nat.succ_pos 9))
    rw [ofDigits_concat, ih]
    omega

/-- A number is written in digits. -/
lemma isDigit_digits (n : Nat) : ∀ c ∈ digits n, Numeral.isDigit c = true := by
  fun_induction digits n with
  | case1 n small => exact List.forall_mem_singleton.mpr (isDigit_digitChar n small)
  | case2 n _ ih =>
    have digit := isDigit_digitChar (n % 10) (Nat.mod_lt n (Nat.succ_pos 9))
    exact List.forall_mem_append.mpr ⟨ih, List.forall_mem_singleton.mpr digit⟩

/-- Every number is written with at least one digit. -/
lemma digits_ne_nil (n : Nat) : digits n ≠ [] := by
  rw [digits]
  split
  · exact List.cons_ne_nil _ _
  · exact List.append_ne_nil_of_right_ne_nil _ (List.cons_ne_nil _ _)

/-- Zeros are digits. -/
lemma isDigit_zeros (k : Nat) : ∀ c ∈ List.replicate k '0', Numeral.isDigit c = true := by
  intro c mem
  rw [List.eq_of_mem_replicate mem]
  rfl

/-- Zeros behind the digits multiply by a power of ten. -/
lemma ofDigits_append_zeros (k : Nat) :
    ofDigits (s ++ List.replicate k '0') = ofDigits s * 10 ^ k := by
  induction k with
  | zero => simp
  | succ k ih =>
    rw [List.replicate_succ', ← List.append_assoc, ofDigits_concat, ih, Nat.pow_succ,
      Nat.mul_left_comm, Nat.mul_comm 10]
    rfl

/-- Zeros before the digits say nothing. -/
lemma ofDigits_zeros_append (k : Nat) : ofDigits (List.replicate k '0' ++ s) = ofDigits s := by
  induction k with
  | zero => rfl
  | succ k ih => exact ih

/-! A decimal in positional form and what it is read as. -/

/-- The same number without a positive exponent. -/
def plain (d : Decimal) : Decimal := ⟨d.coefficient * 10 ^ d.exponent.toNat, min d.exponent 0⟩

/-- A whole number is written out with its zeros. -/
lemma plain_whole (c e : Nat) : plain ⟨c, e⟩ = ⟨c * 10 ^ e, 0⟩ := by
  rw [plain, Int.min_eq_right (Int.natCast_nonneg e)]
  rfl

/-- A number with decimal places is written as it is. -/
lemma plain_fraction (c k : Nat) : plain ⟨c, .negSucc k⟩ = ⟨c, .negSucc k⟩ :=
  congrArg (Decimal.mk · _) (Nat.mul_one c)

/-- The digits of a number, with so many zeros before them that one digit at least stands before
the last `places` ones. -/
def padded (c places : Nat) : Text :=
  List.replicate (places + 1 - (digits c).length) '0' ++ digits c

/-- The point stands before the last decimal places. -/
lemma positional_fraction (c k : Nat) :
    positional ⟨c, .negSucc k⟩ =
      (padded c (k + 1)).take ((padded c (k + 1)).length - (k + 1)) ++
        '.' :: (padded c (k + 1)).drop ((padded c (k + 1)).length - (k + 1)) := rfl

/-- With zeros in front a number is still written in digits. -/
lemma isDigit_padded (c places : Nat) : ∀ d ∈ padded c places, Numeral.isDigit d = true :=
  List.forall_mem_append.mpr ⟨isDigit_zeros _, isDigit_digits c⟩

/-- There are more digits than decimal places. -/
lemma lt_length_padded (c places : Nat) : places < (padded c places).length := by
  rw [padded, List.length_append, List.length_replicate]
  omega

/-- Zeros in front do not count. -/
lemma ofDigits_padded (c places : Nat) : ofDigits (padded c places) = c := by
  rw [padded, ofDigits_zeros_append, ofDigits_digits]

/-- A decimal in positional form is a run of digits, or two of them around a point. -/
lemma positional_cases (d : Decimal) :
    (∃ whole : Lexeme Numeral.isDigit,
      d.positional = whole.text ∧ d.plain = ⟨ofDigits whole.text, 0⟩) ∨
    ∃ (whole : Lexeme Numeral.isDigit) (fraction : Run Numeral.isDigit),
      d.positional = whole.text ++ '.' :: fraction.text ∧
        d.plain = ⟨ofDigits (whole.text ++ fraction.text), -fraction.text.length⟩ := by
  obtain ⟨c, zeros | k⟩ := d
  · have all := List.forall_mem_append.mpr ⟨isDigit_digits c, isDigit_zeros zeros⟩
    have some := List.append_ne_nil_of_left_ne_nil (digits_ne_nil c) (List.replicate zeros '0')
    refine .inl ⟨⟨⟨_, all⟩, some⟩, rfl, ?_⟩
    rw [ofDigits_append_zeros, ofDigits_digits]
    exact plain_whole c zeros
  · have all := isDigit_padded c (k + 1)
    have long := lt_length_padded c (k + 1)
    have some : (padded c (k + 1)).take ((padded c (k + 1)).length - (k + 1)) ≠ [] := by
      apply List.ne_nil_of_length_pos
      rw [List.length_take]
      omega
    have places : ((padded c (k + 1)).drop ((padded c (k + 1)).length - (k + 1))).length =
        k + 1 := by
      rw [List.length_drop]
      omega
    refine .inr ⟨⟨⟨_, fun d mem => all d (List.mem_of_mem_take mem)⟩, some⟩,
      ⟨_, fun d mem => all d (List.mem_of_mem_drop mem)⟩, positional_fraction c k, ?_⟩
    rw [List.take_append_drop, ofDigits_padded, places]
    exact plain_fraction c k

/-- What is read back is the same number. -/
lemma readDecimal?_positional (d : Decimal) : Numeral.readDecimal? d.positional = some d.plain := by
  rcases d.positional_cases with ⟨whole, form, value⟩ | ⟨whole, fraction, form, value⟩
  · have taken := whole.takeWhile_append (r := []) nofun
    have left := whole.dropWhile_append (r := []) nofun
    rw [List.append_nil] at taken left
    simp [form, value, Numeral.readDecimal?, Numeral.readExponent?, taken, left, whole.nonempty]
  · have taken := fraction.takeWhile_append (r := []) nofun
    have left := fraction.dropWhile_append (r := []) nofun
    rw [List.append_nil] at taken left
    simp [form, value, Numeral.readDecimal?, Numeral.readExponent?, taken, left, whole.nonempty,
      whole.takeWhile_append Numeral.point_stops, whole.dropWhile_append Numeral.point_stops]

/-- A digit may stand in a number. -/
lemma isNumeric_of_isDigit (digit : Numeral.isDigit c = true) : isNumeric c = true := by
  have bounds : ('0' ≤ c && c ≤ '9') = true := digit
  rw [isNumeric, bounds]
  rfl

/-- The positional form is a literal of the grammar. -/
lemma isNumeric_positional (d : Decimal) : ∀ c ∈ d.positional, isNumeric c = true := by
  rcases d.positional_cases with ⟨whole, form, _⟩ | ⟨whole, fraction, form, _⟩
  · rw [form]
    exact fun c mem => isNumeric_of_isDigit (whole.all c mem)
  · rw [form, List.forall_mem_append, List.forall_mem_cons]
    exact ⟨fun c mem => isNumeric_of_isDigit (whole.all c mem), rfl,
      fun c mem => isNumeric_of_isDigit (fraction.all c mem)⟩

/-- Every number is written with some character. -/
lemma positional_ne_nil (d : Decimal) : d.positional ≠ [] := by
  rcases d.positional_cases with ⟨whole, form, _⟩ | ⟨whole, fraction, form, _⟩
  · rw [form]
    exact whole.nonempty
  · rw [form]
    exact List.append_ne_nil_of_left_ne_nil whole.nonempty _

/-- A number that stands for a finite magnitude stands for it without a positive exponent, too. -/
lemma magnitude_plain (finite : d.magnitude < Magnitude.infinity) :
    d.plain.magnitude = d.magnitude := by
  obtain ⟨coefficient, zeros | k⟩ := d
  · rw [Int.ofNat_eq_natCast] at finite ⊢
    rw [plain_whole]
    by_cases zero : coefficient = 0
    · rw [zero, Nat.zero_mul]
      exact (if_pos rfl).trans (if_pos rfl).symm
    · have some : coefficient * 10 ^ zeros ≠ 0 :=
        Nat.mul_ne_zero zero (Nat.ne_of_gt (Nat.pow_pos (Nat.succ_pos 9)))
      have large : ¬ -(0 : Nat) + ((coefficient * 10 ^ zeros).log2 : Int) + 1 < -330 := by omega
      rw [magnitude_whole zero finite]
      exact magnitude_fraction some large
  · rw [plain_fraction]

/-- The form in which a finite magnitude is shown is read as that magnitude. -/
theorem read?_positional_shortest {n : Nat} (finite : n < Magnitude.infinity) :
    Numeral.read? (shortest n).positional = some (Magnitude.toFloat n) := by
  have stands := magnitude_shortest finite
  have same : (shortest n).plain.magnitude = n :=
    (magnitude_plain (stands.trans_lt finite)).trans stands
  rw [Numeral.read?_eq_decimal (isNumeric_positional _), readDecimal?_positional, Option.map_some,
    same]

end Decimal

end Reckoner
