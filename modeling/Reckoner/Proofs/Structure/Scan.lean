import Mathlib.Tactic.Cases
import Reckoner.Proofs.Grammar.Token
import Reckoner.Proofs.Text.Classes
import Reckoner.Structure

/-!
# What the checks on raw text pass over

Both checks scan a text from the left.  A *balanced* text leaves the stack of open parentheses as
it is, and a text *supplies* its operators if it gives each of them what it needs; a scan reports
nothing in such a text, whatever follows it.  Every finding is on a character of the text.
-/

namespace Reckoner

/-- The finding is on a single character of a text that begins at an offset. -/
def Finding.On (f : Finding) (offset : Nat) (t : Text) : Prop :=
  ∃ (before : Text) (c : Char) (after : Text),
    t = before ++ c :: after ∧ f.span = .ofChar (offset + before.size) c

namespace Structure

variable {p : Char → Bool} {c : Char} {s t r : Text} {f : Finding} {opened : List Nat} {o : Nat}
variable {before last : Option Char}

/-- A finding that spans the first character is on the text. -/
lemma on_head (h : f.span = .ofChar o c) : f.On o (c :: t) := ⟨[], c, t, rfl, h⟩

/-- What is on the rest of a text is on the text. -/
lemma on_tail (h : f.On (o + c.utf8Size) t) : f.On o (c :: t) := by
  obtain ⟨before, d, after, rfl, span⟩ := h
  refine ⟨c :: before, d, after, rfl, ?_⟩
  rw [span, Text.size_cons, Nat.add_assoc]

/-- A parenthesis without partner is one that was open before, or it is in the text. -/
lemma mem_unmatchedFrom (h : f ∈ unmatchedFrom opened o t) :
    (∃ k ∈ opened, f = ⟨.neverClosed, .ofChar k '('⟩) ∨ f.On o t := by
  induction t generalizing opened o with
  | nil =>
    obtain ⟨k, mem, rfl⟩ := List.mem_map.mp h
    exact .inl ⟨k, mem, rfl⟩
  | cons c t ih =>
    simp only [unmatchedFrom] at h
    split at h
    case isTrue opening =>
      subst opening
      -- What stays open is either this parenthesis or one that was open before.
      cases ih h with
      | inr on => exact .inr (on_tail on)
      | inl found =>
        obtain ⟨k, mem, rfl⟩ := found
        cases mem with
        | head => exact .inr (on_head rfl)
        | tail _ mem => exact .inl ⟨k, mem, rfl⟩
    case isFalse =>
      split at h
      case isTrue closing =>
        cases opened with
        | nil =>
          cases h with
          | head => exact .inr (on_head rfl)
          | tail _ h =>
            cases ih h with
            | inl found => obtain ⟨k, mem, _⟩ := found; cases mem
            | inr on => exact .inr (on_tail on)
        | cons top outer =>
          cases ih h with
          | inl found =>
            obtain ⟨k, mem, rfl⟩ := found
            exact .inl ⟨k, List.mem_cons_of_mem _ mem, rfl⟩
          | inr on => exact .inr (on_tail on)
      case isFalse => exact (ih h).imp_right on_tail

/-- An operator that lacks its operand is in the text. -/
lemma mem_danglingFrom (h : f ∈ danglingFrom before o t) : f.On o t := by
  induction t generalizing before o with
  | nil => cases h
  | cons c t ih =>
    simp only [danglingFrom] at h
    split at h
    · cases h with
      | head => exact on_head rfl
      | tail _ h => exact on_tail (ih h)
    · exact on_tail (ih h)

/-! The faults that the checks report. -/

/-- A parenthesis without partner was never closed or never opened. -/
lemma fault_unmatchedFrom (h : f ∈ unmatchedFrom opened o t) :
    f.fault = .neverClosed ∨ f.fault = .orphanClosing := by
  induction t generalizing opened o with
  | nil =>
    obtain ⟨k, _, rfl⟩ := List.mem_map.mp h
    exact .inl rfl
  | cons c t ih =>
    simp only [unmatchedFrom] at h
    split at h
    · exact ih h
    · split at h
      · cases opened with
        | cons => exact ih h
        | nil =>
          cases h with
          | head => exact .inr rfl
          | tail _ h => exact ih h
      · exact ih h

/-- An incomplete operator is reported with its symbol. -/
lemma fault_danglingFrom (h : f ∈ danglingFrom before o t) :
    ∃ c, isBinaryOperator c = true ∧ f.fault = .missingOperand c := by
  induction t generalizing before o with
  | nil => cases h
  | cons c t ih =>
    simp only [danglingFrom] at h
    split at h
    case isTrue dangling =>
      cases h with
      | head =>
        simp only [Bool.and_eq_true] at dangling
        exact ⟨c, dangling.1.1, rfl⟩
      | tail _ h => exact ih h
    case isFalse => exact ih h

/-- What the checks report is longer than a report on nesting. -/
lemma length_message (h : f ∈ findings t) :
    Fault.tooDeep.message.length < f.fault.message.length := by
  rw [findings, List.mem_append] at h
  rcases h with h | h
  · rcases fault_unmatchedFrom h with eq | eq <;> rw [eq] <;> decide +kernel
  · obtain ⟨c, _, eq⟩ := fault_danglingFrom h
    rw [eq]
    change _ < ("binary operator with no right-hand operand: " ++ String.singleton c).length
    rw [String.length_append]
    exact Nat.lt_add_right _ (by decide +kernel)

/-! Blank characters are passed over. -/

/-- No operator is a blank. -/
lemma not_isBlank_of_isBinaryOperator (h : isBinaryOperator c = true) : isBlank c = false := by
  simp only [isBinaryOperator, Bool.or_eq_true, decide_eq_true_eq] at h
  obtain ((rfl | rfl) | rfl) | rfl := h <;> decide

/-- The scan for parentheses passes over a blank. -/
lemma unmatchedFrom_blank (blank : isBlank c = true) (opened : List Nat) (o : Nat) (t : Text) :
    unmatchedFrom opened o (c :: t) = unmatchedFrom opened (o + c.utf8Size) t := by
  have other {a : Char} (visible : isBlank a = false) : c ≠ a := by
    rintro rfl
    cases visible.symm.trans blank
  simp only [unmatchedFrom, if_neg (other (a := '(') (by decide)),
    if_neg (other (a := ')') (by decide))]

/-- The scan for operators passes over a blank. -/
lemma danglingFrom_blank (blank : isBlank c = true) (before : Option Char) (o : Nat) (t : Text) :
    danglingFrom before o (c :: t) = danglingFrom before (o + c.utf8Size) t := by
  have joins : isBinaryOperator c = false := by
    rw [Bool.eq_false_iff]
    intro joins
    cases (not_isBlank_of_isBinaryOperator joins).symm.trans blank
  rw [danglingFrom, if_pos blank, joins]
  rfl

/-- The text closes the parentheses that it opens, and no others. -/
def Balanced (s : Text) : Prop :=
  ∀ opened o r, unmatchedFrom opened o (s ++ r) = unmatchedFrom opened (o + s.size) r

/-- A balanced text has no parenthesis without partner. -/
lemma Balanced.unmatchedFrom_eq_nil (h : Balanced s) : unmatchedFrom [] o s = [] := by
  have passed := h [] o []
  rwa [List.append_nil] at passed

/-- The empty text is balanced. -/
lemma Balanced.nil : Balanced [] := fun _ _ _ => rfl

/-- Balanced texts one after the other are balanced. -/
lemma Balanced.append (h1 : Balanced s) (h2 : Balanced t) : Balanced (s ++ t) := by
  intro opened o r
  rw [List.append_assoc, h1, h2, Text.size_append, Nat.add_assoc]

/-- A character that is no parenthesis does not change the balance. -/
lemma Balanced.cons (opens : c ≠ '(') (closes : c ≠ ')') (h : Balanced s) :
    Balanced (c :: s) := by
  intro opened o r
  have skip : unmatchedFrom opened o (c :: (s ++ r)) =
      unmatchedFrom opened (o + c.utf8Size) (s ++ r) := by
    simp [unmatchedFrom, opens, closes]
  rw [List.cons_append, skip, h, Text.size_cons, Nat.add_assoc]

/-- A balanced text in parentheses is balanced. -/
lemma Balanced.parens (h : Balanced s) : Balanced ('(' :: (s ++ [')'])) := by
  intro opened o r
  have opening : unmatchedFrom opened o ('(' :: (s ++ (')' :: r))) =
      unmatchedFrom (o :: opened) (o + Char.utf8Size '(') (s ++ (')' :: r)) := by
    simp [unmatchedFrom]
  rw [List.cons_append, List.append_assoc, List.singleton_append, opening, h]
  simp [unmatchedFrom, Nat.add_assoc]

/-- A run of characters that are no parentheses is balanced. -/
lemma balanced_run (w : Run p) (opens : p '(' = false) (closes : p ')' = false) :
    Balanced w.text := by
  obtain ⟨s, all⟩ := w
  induction s with
  | nil => exact .nil
  | cons c s ih =>
    have here := all c List.mem_cons_self
    refine .cons ?_ ?_ (ih fun d mem => all d (List.mem_cons_of_mem c mem))
    · rintro rfl; cases opens.symm.trans here
    · rintro rfl; cases closes.symm.trans here

/-- After the non-blank character `before` the text gives each of its operators what it needs; its
own last non-blank character is `last` then. -/
def Supplies (before : Option Char) (s : Text) (last : Option Char) : Prop :=
  ∀ o r, danglingFrom before o (s ++ r) = danglingFrom last (o + s.size) r

/-- A text that supplies its operators has none without operand. -/
lemma Supplies.danglingFrom_eq_nil (h : Supplies before s last) : danglingFrom before o s = [] := by
  have passed := h o []
  rwa [List.append_nil] at passed

/-- The empty text supplies its operators, of which it has none. -/
lemma Supplies.nil : Supplies before [] before := fun _ _ => rfl

/-- Texts that supply their operators do so one after the other. -/
lemma Supplies.append {between : Option Char} (h1 : Supplies before s between)
    (h2 : Supplies between t last) : Supplies before (s ++ t) last := by
  intro o r
  rw [List.append_assoc, h1, h2, Text.size_append, Nat.add_assoc]

/-- A blank before a text takes nothing from its operators. -/
lemma Supplies.blank (blank : isBlank c = true) (h : Supplies before s last) :
    Supplies before (c :: s) last := by
  intro o r
  rw [List.cons_append, danglingFrom_blank blank, h, Text.size_cons, Nat.add_assoc]

/-- An operator needs a right operand only where a left one may have ended. -/
lemma Supplies.visible (visible : isBlank c = false)
    (supplied : isBinaryOperator c = true → before.any endsOperand = true →
      ∀ r, startsOperand (s ++ r) = true)
    (h : Supplies (some c) s last) : Supplies before (c :: s) last := by
  intro o r
  have none :
      (isBinaryOperator c && before.any endsOperand && !startsOperand (s ++ r)) = false := by
    cases joins : isBinaryOperator c with
    | false => rfl
    | true =>
      cases ends : before.any endsOperand with
      | false => rfl
      | true => rw [supplied joins ends r]; rfl
  rw [List.cons_append, danglingFrom, none, visible, if_neg Bool.false_ne_true,
    if_neg Bool.false_ne_true, h, Text.size_cons, Nat.add_assoc]

/-- Blanks leave what stands before them. -/
lemma supplies_run (w : Run isBlank) : Supplies before w.text before := by
  obtain ⟨s, all⟩ := w
  induction s with
  | nil => exact .nil
  | cons c s ih =>
    exact .blank (all c List.mem_cons_self) (ih fun d mem => all d (List.mem_cons_of_mem c mem))

/-- Blanks between tokens leave what stands before them. -/
lemma supplies_blanks (w : Blanks) : Supplies before w.text before :=
  supplies_run ⟨w.text, fun c mem => isBlank_of_isSpace (w.all c mem)⟩

/-- What the checks take for a part of an operand. -/
structure Solid (c : Char) : Prop where
  visible : isBlank c = false
  joins : isBinaryOperator c = false
  ends : endsOperand c = true

/-- The characters of numbers are solid. -/
lemma solid_of_isNumeric (h : Grammar.isNumeric c = true) : Solid c := by
  have code := isNumeric_iff.mp h
  refine ⟨not_isBlank_of_isNumeric h, ?_, ?_⟩
  · rw [Bool.eq_false_iff, ne_eq, isBinaryOperator_iff]
    omega
  · simp only [Grammar.isNumeric, Bool.or_eq_true] at h
    cases h with
    | inl digit => simp [endsOperand, digit]
    | inr point => simp [endsOperand, point]

/-- The letters of names are solid. -/
lemma solid_of_isLetter (h : Grammar.isLetter c = true) : Solid c := by
  have code := isLetter_iff.mp h
  refine ⟨not_isBlank_of_isLetter h, ?_, ?_⟩
  · rw [Bool.eq_false_iff, ne_eq, isBinaryOperator_iff]
    omega
  · simp [endsOperand, isAlphabetic_of_isLetter h]

/-- A solid token supplies its operators and leaves the end of an operand. -/
lemma supplies_lexeme (solid : ∀ c, p c = true → Solid c) (w : Lexeme p) :
    ∃ c, endsOperand c = true ∧ Supplies before w.text (some c) := by
  obtain ⟨⟨s, all⟩, nonempty⟩ := w
  induction s generalizing before with
  | nil => exact absurd rfl nonempty
  | cons c s ih =>
    have here := solid c (all c List.mem_cons_self)
    have join (h : isBinaryOperator c = true) : False := by rw [here.joins] at h; cases h
    cases s with
    | nil => exact ⟨c, here.ends, .visible here.visible (fun h => (join h).elim) .nil⟩
    | cons d s =>
      obtain ⟨last, ends, rest⟩ :=
        @ih (some c) (fun e mem => all e (List.mem_cons_of_mem c mem)) (List.cons_ne_nil d s)
      exact ⟨last, ends, .visible here.visible (fun h => (join h).elim) rest⟩

end Structure

end Reckoner
