import Mathlib.Data.List.TakeWhile
import Reckoner.Number.Numeral
import Reckoner.Proofs.Grammar.Token
import Reckoner.Proofs.Text.Classes

/-!
# Readable literals

The literals of the grammar are runs of digits and points, and not all of them write a number.  A
point splits such a run in two, and what stands before it are digits (`numeric_cases`), so one or
two points settle how it is read: as a number if there is at most one point and some digit, and
not at all otherwise (`read?_numeric`).
-/

namespace Reckoner

open Grammar

namespace Numeral

variable {s r : Text} {c : Char} {ds whole : Run isDigit}

/-- What may stand in a number is a digit or a point. -/
lemma isDigit_or_point (numeric : isNumeric c = true) : isDigit c = true ∨ c = '.' := by
  simpa [isNumeric, isDigit] using numeric

/-- A run of digits and points has a first point, or there is none in it. -/
lemma numeric_split (numeric : ∀ c ∈ s, isNumeric c = true) :
    ∃ ds : Run isDigit, s = ds.text ∨ ∃ r, s = ds.text ++ '.' :: r := by
  refine ⟨.front isDigit s, ?_⟩
  have parts : s = (Run.front isDigit s).text ++ s.dropWhile isDigit :=
    List.takeWhile_append_dropWhile.symm
  have other := s.head?_dropWhile_not isDigit
  cases rest : s.dropWhile isDigit with
  | nil =>
    rw [rest, List.append_nil] at parts
    exact .inl parts
  | cons c r =>
    rw [rest] at parts other
    have mem : c ∈ s := by
      rw [parts]
      exact List.mem_append_right _ List.mem_cons_self
    rcases isDigit_or_point (numeric c mem) with digit | rfl
    · cases digit.symm.trans other
    · exact .inr ⟨r, parts⟩

/-- What a run of digits and points looks like: without a point, with one, or with two at least. -/
lemma numeric_cases (numeric : ∀ c ∈ s, isNumeric c = true) :
    (∃ whole : Run isDigit, s = whole.text) ∨
    (∃ whole fraction : Run isDigit, s = whole.text ++ '.' :: fraction.text) ∨
    ∃ (whole fraction : Run isDigit) (r : Text),
      s = whole.text ++ '.' :: (fraction.text ++ '.' :: r) := by
  obtain ⟨whole, rfl | ⟨r, rfl⟩⟩ := numeric_split numeric
  · exact .inl ⟨whole, rfl⟩
  · have behind : ∀ c ∈ r, isNumeric c = true := fun c mem =>
      numeric c (List.mem_append_right _ (List.mem_cons_of_mem _ mem))
    obtain ⟨fraction, rfl | ⟨r, rfl⟩⟩ := numeric_split behind
    · exact .inr (.inl ⟨whole, fraction, rfl⟩)
    · exact .inr (.inr ⟨whole, fraction, r, rfl⟩)

/-! How the three shapes are read. -/

/-- A point is no digit. -/
lemma point_stops : ∀ c ∈ ('.' :: r : Text).head?, isDigit c = false := by
  rintro _ ⟨⟩
  rfl

/-- Digits are read as a number unless there are none. -/
lemma readDecimal?_digits : readDecimal? whole.text = none ↔ whole.text = [] := by
  have taken := whole.takeWhile_append (r := []) nofun
  have left := whole.dropWhile_append (r := []) nofun
  rw [List.append_nil] at taken left
  simp [readDecimal?, readExponent?, taken, left]

/-- Digits around a point are a decimal if there are any, and if what follows is an exponent. -/
lemma readDecimal?_point (whole fraction : Run isDigit) (stop : ∀ c ∈ r.head?, isDigit c = false) :
    readDecimal? (whole.text ++ '.' :: (fraction.text ++ r)) = none ↔
      whole.text = [] ∧ fraction.text = [] ∨ readExponent? r = none := by
  simp only [readDecimal?, whole.takeWhile_append point_stops, whole.dropWhile_append point_stops,
    fraction.takeWhile_append stop, fraction.dropWhile_append stop]
  simp [or_iff_not_imp_left]

/-- No digit is a point. -/
lemma count_point (ds : Run isDigit) : ds.text.count '.' = 0 := by
  rw [List.count_eq_zero]
  intro mem
  cases ds.all _ mem

/-- Digits are without a digit if there are none. -/
lemma any_digit_iff : ds.text.any isDigit = false ↔ ds.text = [] := by
  rw [List.any_eq_false, List.eq_nil_iff_forall_not_mem]
  exact ⟨fun none c mem => none c mem (ds.all c mem), fun empty c mem => absurd mem (empty c)⟩

/-- Digits and points are no number if there are two points or no digit. -/
lemma readDecimal?_numeric (numeric : ∀ c ∈ s, isNumeric c = true) :
    readDecimal? s = none ↔ 2 ≤ s.count '.' ∨ s.any isDigit = false := by
  rcases numeric_cases numeric with
    ⟨whole, rfl⟩ | ⟨whole, fraction, rfl⟩ | ⟨whole, fraction, r, rfl⟩
  · rw [readDecimal?_digits, count_point, any_digit_iff]
    simp
  · have read := readDecimal?_point whole fraction (r := []) nofun
    rw [List.append_nil] at read
    rw [read, List.count_append, List.count_cons_self, count_point, count_point, List.any_append,
      List.any_cons, Bool.or_eq_false_iff, Bool.or_eq_false_iff, any_digit_iff, any_digit_iff]
    simp [readExponent?, isDigit]
  · rw [readDecimal?_point whole fraction point_stops]
    have points : 2 ≤ (whole.text ++ '.' :: (fraction.text ++ '.' :: r)).count '.' := by
      simp [List.count_append, count_point]
    exact iff_of_true (.inr rfl) (.inl points)

/-- What may stand in a number has no case. -/
lemma toLower_numeric (numeric : isNumeric c = true) : c.toLower = c := by
  apply dif_neg
  rintro ⟨least, _⟩
  have code := isNumeric_iff.mp numeric
  have letter : 65 ≤ c.toNat := UInt32.le_iff_toNat_le.mp least
  omega

/-- A run of digits and points writes none of the words. -/
lemma readWord?_numeric (numeric : ∀ c ∈ s, isNumeric c = true) : readWord? s = none := by
  have lower : s.map Char.toLower = s :=
    (List.map_congr_left fun c mem => toLower_numeric (numeric c mem)).trans s.map_id
  have other {c : Char} {word : Text} (h : isNumeric c = false) : s ≠ c :: word := by
    rintro rfl
    cases h.symm.trans (numeric c List.mem_cons_self)
  have i (word : Text) : s ≠ 'i' :: word := other (by decide)
  have n (word : Text) : s ≠ 'n' :: word := other (by decide)
  simp [readWord?, lower, i, n]

/-- A run of digits and points is read as a decimal. -/
lemma read?_eq_decimal (numeric : ∀ c ∈ s, isNumeric c = true) :
    read? s = (readDecimal? s).map fun d => Magnitude.toFloat d.magnitude := by
  have unsigned : read? s = readUnsigned? s := by
    unfold read?
    split
    · cases numeric _ List.mem_cons_self
    · cases numeric _ List.mem_cons_self
    · rfl
  rw [unsigned, readUnsigned?, readWord?_numeric numeric, Option.or_none]

/-- A run of digits and points is not read as a number if it has two points at least, or no digit,
and otherwise it is. -/
lemma read?_numeric (numeric : ∀ c ∈ s, isNumeric c = true) :
    read? s = none ↔ 2 ≤ s.count '.' ∨ s.any isDigit = false := by
  rw [read?_eq_decimal numeric, Option.map_eq_none_iff]
  exact readDecimal?_numeric numeric

end Numeral

end Reckoner
