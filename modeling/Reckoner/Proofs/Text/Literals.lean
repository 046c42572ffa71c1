import Mathlib.Data.List.Basic
import Reckoner.Proofs.Grammar.Token

/-!
# The literals of a text

A literal of a text is a longest run of digits and points in it, whatever else stands in the text.
Cutting a text where neither side shares a run with the other cuts no literal
(`Text.Literal.append_iff`), so the literals of the parts are those of the whole
(`Literals.append`).
-/

namespace Reckoner

open Grammar

/-- Between `before` and `after` the literal `written` stands in a text: digits and points, and none
next to them. -/
structure Text.Literal (t before written after : Text) : Prop where
  split : t = before ++ (written ++ after)
  nonempty : written ≠ []
  numeric : ∀ c ∈ written, isNumeric c = true
  starts : ∀ c ∈ before.getLast?, isNumeric c = false
  stops : ∀ c ∈ after.head?, isNumeric c = false

/-- No run goes on from the one text to the other. -/
def Apart (s t : Text) : Prop :=
  ∀ a ∈ s.getLast?, ∀ b ∈ t.head?, isNumeric a = true → isNumeric b = false

/-- Where a text begins at offset `o`, its literals take up the spans of a list. -/
def Literals (o : Nat) (t : Text) (spans : List Span) : Prop :=
  ∀ span, span ∈ spans ↔ ∃ before written after, t.Literal before written after ∧
    span = ⟨o + before.size, o + before.size + written.size⟩

variable {s t before written after : Text} {o : Nat} {as bs : List Span}

/-- A text without parts of numbers keeps what follows it apart. -/
lemma apart_of_last (other : ∀ c ∈ s, isNumeric c = false) : Apart s t := by
  intro a last b _ numeric
  cases numeric.symm.trans (other a (List.mem_of_getLast? last))

/-- A text that does not begin as a number is kept apart from what is before. -/
lemma apart_of_head (other : ∀ c ∈ t.head?, isNumeric c = false) : Apart s t :=
  fun _ _ b head _ => other b head

namespace Text.Literal

/-- A literal is the slice of its span. -/
lemma slice (h : t.Literal before written after) :
    t.slice ⟨before.size, before.size + written.size⟩ = written := by
  rw [h.split]
  exact slice_append before written after

/-- A literal at the end of a text ends it with a part of a number. -/
lemma last_numeric (h : t.Literal before written []) : ∃ a ∈ t.getLast?, isNumeric a = true := by
  obtain ⟨rfl, nonempty, numeric, _, _⟩ := h
  have last := List.getLast?_eq_some_getLast nonempty
  refine ⟨_, ?_, numeric _ (List.mem_of_getLast? last)⟩
  rw [List.append_nil]
  exact List.mem_getLast?_append_of_mem_getLast? last

/-- A literal at the start of a text begins it with a part of a number. -/
lemma head_numeric (h : t.Literal [] written after) : ∃ b ∈ t.head?, isNumeric b = true := by
  obtain ⟨rfl, nonempty, numeric, _, _⟩ := h
  have head := List.head?_eq_some_head nonempty
  refine ⟨_, ?_, numeric _ (List.mem_of_head? head)⟩
  exact List.mem_head?_append_of_mem_head? (s := written) head

/-- A literal of the left part is one of the whole. -/
lemma append_right (apart : Apart s t) (h : s.Literal before written after) :
    (s ++ t).Literal before written (after ++ t) where
  split := by simp [h.split]
  nonempty := h.nonempty
  numeric := h.numeric
  starts := h.starts
  stops := by
    cases after with
    | cons c rest => exact h.stops
    | nil =>
      obtain ⟨a, last, numeric⟩ := h.last_numeric
      exact fun b head => apart a last b head numeric

/-- A literal of the right part is one of the whole. -/
lemma append_left (apart : Apart s t) (h : t.Literal before written after) :
    (s ++ t).Literal (s ++ before) written after where
  split := by simp [h.split]
  nonempty := h.nonempty
  numeric := h.numeric
  starts := by
    cases before with
    | cons c rest =>
      rw [List.getLast?_append_of_ne_nil s (List.cons_ne_nil _ _)]
      exact h.starts
    | nil =>
      obtain ⟨b, head, numeric⟩ := h.head_numeric
      intro a last
      rw [List.append_nil] at last
      rw [Bool.eq_false_iff]
      intro more
      cases numeric.symm.trans (apart a last b head more)
  stops := h.stops

/-- Where no run goes on, the literals of the whole are those of the parts. -/
lemma append_iff (apart : Apart s t) :
    (s ++ t).Literal before written after ↔
      (∃ rest, after = rest ++ t ∧ s.Literal before written rest) ∨
      ∃ rest, before = s ++ rest ∧ t.Literal rest written after := by
  constructor
  · rintro ⟨split, nonempty, numeric, starts, stops⟩
    rcases List.append_eq_append_iff.mp split with ⟨rest, rfl, eq⟩ | ⟨k, rfl, eq⟩
    · refine .inr ⟨rest, rfl, eq, nonempty, numeric, fun c last => starts c ?_, stops⟩
      exact List.mem_getLast?_append_of_mem_getLast? last
    · rcases List.append_eq_append_iff.mp eq with ⟨rest, rfl, rfl⟩ | ⟨m, rfl, rfl⟩
      · refine .inl ⟨rest, rfl, rfl, nonempty, numeric, starts, fun c head => stops c ?_⟩
        exact List.mem_head?_append_of_mem_head? head
      · -- The literal would go over the boundary, unless one of its sides is empty.
        obtain ⟨left, right⟩ := List.forall_mem_append.mp numeric
        rcases List.eq_nil_or_concat' k with rfl | ⟨u, a, rfl⟩
        · exact .inr ⟨[], by simp, rfl, nonempty, numeric, nofun, stops⟩
        · cases m with
          | nil => exact .inl ⟨[], rfl, by simp, nonempty, numeric, starts, nofun⟩
          | cons b v =>
            have crosses := apart a (by simp) b rfl (left a (by simp))
            cases (right b List.mem_cons_self).symm.trans crosses
  · rintro (⟨rest, rfl, h⟩ | ⟨rest, rfl, h⟩)
    · exact h.append_right apart
    · exact h.append_left apart

end Text.Literal

namespace Literals

/-- Where no run goes on, the literals of a text are listed part by part. -/
lemma append (apart : Apart s t) (h1 : Literals o s as) (h2 : Literals (o + s.size) t bs) :
    Literals o (s ++ t) (as ++ bs) := by
  intro span
  rw [List.mem_append, h1 span, h2 span]
  constructor
  · rintro (⟨before, written, after, h, rfl⟩ | ⟨before, written, after, h, rfl⟩)
    · exact ⟨before, written, after ++ t, h.append_right apart, rfl⟩
    · exact ⟨s ++ before, written, after, h.append_left apart, by simp [Nat.add_assoc]⟩
  · rintro ⟨before, written, after, whole, rfl⟩
    rcases (Text.Literal.append_iff apart).mp whole with ⟨rest, rfl, h⟩ | ⟨rest, rfl, h⟩
    · exact .inl ⟨before, written, rest, h, rfl⟩
    · exact .inr ⟨rest, written, after, h, by simp [Nat.add_assoc]⟩

/-- There is no literal without digits and points. -/
lemma none (other : ∀ c ∈ t, isNumeric c = false) : Literals o t [] := by
  refine fun span => iff_of_false List.not_mem_nil ?_
  rintro ⟨before, written, after, ⟨rfl, nonempty, numeric, _, _⟩, _⟩
  obtain ⟨c, mem⟩ := List.exists_mem_of_ne_nil written nonempty
  have inside : c ∈ before ++ (written ++ after) := by simp [mem]
  cases (numeric c mem).symm.trans (other c inside)

/-- A text of digits and points only is one literal. -/
lemma lexeme (s : Lexeme isNumeric) : Literals o s.text [⟨o, o + s.text.size⟩] := by
  intro span
  rw [List.mem_singleton]
  constructor
  · rintro rfl
    exact ⟨[], s.text, [], ⟨by simp, s.nonempty, s.all, nofun, nofun⟩, rfl⟩
  · rintro ⟨before, written, after, ⟨split, _, _, starts, stops⟩, rfl⟩
    have numeric := s.all
    rw [split, List.forall_mem_append, List.forall_mem_append] at numeric
    obtain ⟨numeric1, _, numeric2⟩ := numeric
    have first : before = [] := by
      rw [← List.getLast?_eq_none_iff, Option.eq_none_iff_forall_not_mem]
      intro c last
      cases (numeric1 c (List.mem_of_getLast? last)).symm.trans (starts c last)
    have last : after = [] := by
      rw [← List.head?_eq_none_iff, Option.eq_none_iff_forall_not_mem]
      intro c head
      cases (numeric2 c (List.mem_of_head? head)).symm.trans (stops c head)
    rw [split, first, last]
    simp

/-- What has no digits and points adds no literal to what follows it. -/
lemma skip (other : ∀ c ∈ s, isNumeric c = false) (h : Literals (o + s.size) t bs) :
    Literals o (s ++ t) bs :=
  (none other).append (apart_of_last other) h

/-- More text without parts of numbers adds no literal. -/
lemma before_other (h : Literals o s as) (other : ∀ c ∈ t, isNumeric c = false) :
    Literals o (s ++ t) as := by
  have all := h.append (apart_of_head fun c head => other c (List.mem_of_head? head)) (none other)
  rwa [List.append_nil] at all

end Literals

end Reckoner
