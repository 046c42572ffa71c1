import Mathlib.Data.List.Forall2
import Reckoner.Proofs.Structure.Scan

/-!
# Blank characters make no difference to the checks on raw text

Two texts are *respaced* if one becomes the other when blank characters are put in and taken out,
which is to say that they have the same visible characters.  The checks run over both texts at once
with corresponding parentheses open, so they find the same faults on corresponding characters
(`findings_respaced`).
-/

namespace Reckoner

/-- The second text is the first one with blank characters put in and taken out. -/
inductive Respaced : Text → Text → Prop where
  | nil : Respaced [] []
  | keep {c : Char} {t t' : Text} (h : Respaced t t') : Respaced (c :: t) (c :: t')
  | insert {c : Char} {t t' : Text} (blank : isBlank c = true) (h : Respaced t t') :
    Respaced t (c :: t')
  | delete {c : Char} {t t' : Text} (blank : isBlank c = true) (h : Respaced t t') :
    Respaced (c :: t) t'

namespace Respaced

variable {s s' t t' : Text}

/-- Texts one after the other may both be respaced. -/
lemma append (h1 : Respaced s s') (h2 : Respaced t t') : Respaced (s ++ t) (s' ++ t') := by
  induction h1 with
  | nil => exact h2
  | keep _ ih => exact .keep ih
  | insert blank _ ih => exact .insert blank ih
  | delete blank _ ih => exact .delete blank ih

/-- Blanks may be inserted. -/
lemma of_blanks (w : Run isBlank) : Respaced [] w.text := by
  obtain ⟨s, all⟩ := w
  induction s with
  | nil => exact .nil
  | cons c s ih =>
    exact .insert (all c List.mem_cons_self) (ih fun d mem => all d (List.mem_cons_of_mem c mem))

/-- Respaced texts are those with the same visible characters. -/
lemma iff_filter : Respaced t t' ↔ t.filter (!isBlank ·) = t'.filter (!isBlank ·) := by
  constructor
  · intro h
    induction h with
    | nil => rfl
    | @keep c t t' _ ih => rw [List.filter_cons, List.filter_cons, ih]
    | insert blank _ ih => rw [List.filter_cons_of_neg (by simp [blank]), ih]
    | delete blank _ ih => rw [List.filter_cons_of_neg (by simp [blank]), ih]
  · intro same
    induction t generalizing t' with
    | nil =>
      have all : ∀ c ∈ t', isBlank c = true := by simpa using same.symm
      exact of_blanks ⟨t', all⟩
    | cons c t ih =>
      cases blank : isBlank c with
      | true =>
        rw [List.filter_cons_of_neg (by simp [blank])] at same
        exact .delete blank (ih same)
      | false =>
        rw [List.filter_cons_of_pos (by simp [blank])] at same
        -- the second text has the same character too, after blank ones that are put in
        obtain ⟨w, r, rfl, all, _, rest⟩ := List.filter_eq_cons_iff.mp same.symm
        have blanks : ∀ d ∈ w, isBlank d = true := by simpa using all
        exact (of_blanks ⟨w, blanks⟩).append (.keep (ih rest.symm))

end Respaced

/-- At two offsets of the two texts stands the same visible character, with the same visible
characters before it and after it. -/
inductive Corresponds (t t' : Text) (c : Char) : Nat → Nat → Prop where
  | here {u v u' v' : Text} (visible : isBlank c = false) (eq : t = u ++ c :: v)
    (eq' : t' = u' ++ c :: v') (front : Respaced u u') (back : Respaced v v') :
    Corresponds t t' c u.size u'.size

/-- The diagnostics say the same of corresponding characters. -/
def Diagnostic.Corresponds (t t' : Text) (d d' : Diagnostic) : Prop :=
  d.message = d'.message ∧
  ∃ c k k', Reckoner.Corresponds t t' c k k' ∧
    d.range = t.rangeOf (.ofChar k c) ∧ d'.range = t'.rangeOf (.ofChar k' c)

/-- The findings are the same fault on corresponding characters. -/
inductive Finding.Corresponds (t t' : Text) : Finding → Finding → Prop where
  | on {fault : Fault} {c : Char} {k k' : Nat} (h : Reckoner.Corresponds t t' c k k') :
    Corresponds t t' ⟨fault, .ofChar k c⟩ ⟨fault, .ofChar k' c⟩

/-- Findings on corresponding characters are reported there. -/
lemma Finding.Corresponds.diagnostic {t t' : Text} {f f' : Finding} (h : f.Corresponds t t' f') :
    (f.diagnostic t).Corresponds t t' (f'.diagnostic t') := by
  cases h with
  | on h => exact ⟨rfl, _, _, _, h, rfl, rfl⟩

/-- Up to two offsets the two texts have the same visible characters; they go on with `r` and
`r'`. -/
inductive Reached (t t' r r' : Text) : Nat → Nat → Prop where
  | past {u u' : Text} (eq : t = u ++ r) (eq' : t' = u' ++ r') (front : Respaced u u') :
    Reached t t' r r' u.size u'.size

namespace Reached

variable {t t' r r' s s' : Text} {o o' : Nat} {c : Char}

/-- Before both texts nothing has been passed. -/
lemma start (t t' : Text) : Reached t t' t t' 0 0 := .past (u := []) rfl rfl .nil

/-- Both texts go on past parts with the same visible characters. -/
lemma after (more : Respaced s s') (h : Reached t t' (s ++ r) (s' ++ r') o o') :
    Reached t t' r r' (o + s.size) (o' + s'.size) := by
  cases h with
  | past eq eq' front =>
    rw [← Text.size_append, ← Text.size_append]
    rw [← List.append_assoc] at eq eq'
    exact .past eq eq' (front.append more)

/-- A character that is kept is passed in both texts. -/
lemma keep (h : Reached t t' (c :: r) (c :: r') o o') :
    Reached t t' r r' (o + c.utf8Size) (o' + c.utf8Size) :=
  after (.keep .nil : Respaced [c] [c]) h

/-- A blank that is inserted is passed in the second text. -/
lemma insert (blank : isBlank c = true) (h : Reached t t' r (c :: r') o o') :
    Reached t t' r r' o (o' + c.utf8Size) :=
  after (.insert blank .nil : Respaced [] [c]) h

/-- A blank that is deleted is passed in the first text. -/
lemma delete (blank : isBlank c = true) (h : Reached t t' (c :: r) r' o o') :
    Reached t t' r r' (o + c.utf8Size) o' :=
  after (.delete blank .nil : Respaced [c] []) h

/-- Visible characters that are reached in both texts correspond. -/
lemma corresponds (h : Reached t t' (c :: r) (c :: r') o o') (more : Respaced r r')
    (visible : isBlank c = false) : Corresponds t t' c o o' := by
  cases h with
  | past eq eq' front => exact .here visible eq eq' front more

end Reached

namespace Structure

variable {t t' r r' : Text} {c : Char} {o o' : Nat}

/-- A blank before a text does not change whether an operand starts it. -/
lemma startsOperand_blank (blank : isBlank c = true) (t : Text) :
    startsOperand (c :: t) = startsOperand t := by
  rw [startsOperand, List.dropWhile_cons_of_pos blank, startsOperand]

/-- Whether an operand may start depends on the first visible character. -/
lemma startsOperand_respaced (h : Respaced t t') : startsOperand t = startsOperand t' := by
  induction h with
  | nil => rfl
  | @keep c t t' _ ih =>
    cases blank : isBlank c with
    | true => rw [startsOperand_blank blank, startsOperand_blank blank, ih]
    | false => simp [startsOperand, blank]
  | insert blank _ ih => rw [startsOperand_blank blank, ih]
  | delete blank _ ih => rw [startsOperand_blank blank, ih]

/-- Corresponding parentheses are open in both texts up to here, so the same ones stay unmatched. -/
lemma unmatchedFrom_respaced (h : Respaced r r') (here : Reached t t' r r' o o')
    {opened opened' : List Nat} (stack : List.Forall₂ (Corresponds t t' '(') opened opened') :
    List.Forall₂ (Finding.Corresponds t t') (unmatchedFrom opened o r)
      (unmatchedFrom opened' o' r') := by
  induction h generalizing o o' opened opened' with
  | nil =>
    rw [unmatchedFrom, unmatchedFrom, List.forall₂_map_left_iff, List.forall₂_map_right_iff]
    exact stack.imp fun _ _ h => .on h
  | @keep c r r' more ih =>
    simp only [unmatchedFrom]
    by_cases opens : c = '('
    · subst opens
      exact ih here.keep (.cons (here.corresponds more (by decide)) stack)
    by_cases closes : c = ')'
    · subst closes
      cases stack with
      | nil => exact .cons (.on (here.corresponds more (by decide))) (ih here.keep .nil)
      | cons _ outer => exact ih here.keep outer
    · rw [if_neg opens, if_neg opens, if_neg closes, if_neg closes]
      exact ih here.keep stack
  | insert blank _ ih =>
    rw [unmatchedFrom_blank blank]
    exact ih (here.insert blank) stack
  | delete blank _ ih =>
    rw [unmatchedFrom_blank blank]
    exact ih (here.delete blank) stack

/-- The visible character before is the same in both texts, and so is the one after. -/
lemma danglingFrom_respaced (h : Respaced r r') (here : Reached t t' r r' o o')
    (before : Option Char) :
    List.Forall₂ (Finding.Corresponds t t') (danglingFrom before o r)
      (danglingFrom before o' r') := by
  induction h generalizing o o' before with
  | nil => exact .nil
  | @keep c r r' more ih =>
    rw [danglingFrom, danglingFrom, startsOperand_respaced more]
    split
    case isTrue dangles =>
      simp only [Bool.and_eq_true] at dangles
      have visible := not_isBlank_of_isBinaryOperator dangles.1.1
      exact .cons (.on (here.corresponds more visible)) (ih here.keep _)
    case isFalse => exact ih here.keep _
  | insert blank _ ih =>
    rw [danglingFrom_blank blank]
    exact ih (here.insert blank) before
  | delete blank _ ih =>
    rw [danglingFrom_blank blank]
    exact ih (here.delete blank) before

/-- Blank characters put in or taken out anywhere leave the checks on raw text with as many
diagnostics, in the same order, each with the same message on the corresponding character. -/
theorem findings_respaced (h : Respaced t t') :
    ((findings t).map (·.diagnostic t)).length = ((findings t').map (·.diagnostic t')).length ∧
    List.Forall₂ (Diagnostic.Corresponds t t')
      ((findings t).map (·.diagnostic t)) ((findings t').map (·.diagnostic t')) := by
  have unmatched := unmatchedFrom_respaced h (.start t t') .nil
  have dangling := danglingFrom_respaced h (.start t t') none
  have found : List.Forall₂ (Finding.Corresponds t t') (findings t) (findings t') :=
    List.rel_append unmatched dangling
  have diagnosed : List.Forall₂ (Diagnostic.Corresponds t t')
      ((findings t).map (·.diagnostic t)) ((findings t').map (·.diagnostic t')) := by
    rw [List.forall₂_map_left_iff, List.forall₂_map_right_iff]
    exact found.imp fun _ _ h => h.diagnostic
  exact ⟨diagnosed.length_eq, diagnosed⟩

/-- The operator and the parenthesis of `1+)` are found behind any blanks. -/
theorem findings_respaced_sum :
    ((findings ['1', ' ', '+', '\u00a0', '\n', ')']).map
      (·.diagnostic ['1', ' ', '+', '\u00a0', '\n', ')'])).length = 2 ∧
    List.Forall₂ (Diagnostic.Corresponds ['1', '+', ')'] ['1', ' ', '+', '\u00a0', '\n', ')'])
      ((findings ['1', '+', ')']).map (·.diagnostic ['1', '+', ')']))
      ((findings ['1', ' ', '+', '\u00a0', '\n', ')']).map
        (·.diagnostic ['1', ' ', '+', '\u00a0', '\n', ')'])) := by
  have h : Respaced ['1', '+', ')'] ['1', ' ', '+', '\u00a0', '\n', ')'] :=
    Respaced.iff_filter.mpr (by decide)
  obtain ⟨length, diagnosed⟩ := findings_respaced h
  exact ⟨length.symm, diagnosed⟩

end Structure

end Reckoner
