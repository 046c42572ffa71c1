import Mathlib.Data.Prod.Lex
import Mathlib.Tactic.Lemma
import Reckoner.Text.Position

/-!
# Places and offsets

Places are ordered as they are read, by line and then by column, and every character of a text moves
its place forward (`lt_after`).  So the place of a boundary between two characters has an offset
again, and that is the boundary (`offsetOf?_positionAt`): different boundaries have different places.
-/

namespace Reckoner

namespace Position

/-- Places are read line by line. -/
instance : LinearOrder Position :=
  LinearOrder.lift' (fun p => toLex (p.line, p.column)) fun p q same => by
    obtain ⟨line, column⟩ := Prod.mk.inj (toLex.injective same)
    cases p; cases q
    cases line; cases column
    rfl

/-- A position is before another on an earlier line, or further left on the same one. -/
lemma lt_iff {p q : Position} :
    p < q ↔ p.line < q.line ∨ p.line = q.line ∧ p.column < q.column :=
  Prod.Lex.toLex_lt_toLex

/-- Every character leads on. -/
lemma lt_advance (p : Position) (c : Char) : p < p.advance c := by
  rw [lt_iff, advance]
  split
  · exact .inl (Nat.lt_succ_self _)
  · exact .inr ⟨rfl, Nat.lt_succ_self _⟩

/-- No text leads back. -/
lemma le_after (p : Position) (s : Text) : p ≤ p.after s := by
  induction s generalizing p with
  | nil => exact le_rfl
  | cons c s ih => exact (p.lt_advance c).le.trans (ih _)

/-- A place moves forward over a text. -/
lemma lt_after (p : Position) {s : Text} (some : s ≠ []) : p < p.after s := by
  cases s with
  | nil => exact absurd rfl some
  | cons c s => exact (p.lt_advance c).trans_le (le_after _ s)

end Position

namespace Text

variable {t u m v : Text} {a b k : Nat}

/-- A character of the text starts at an offset, or the text ends there. -/
def IsBoundary (t : Text) (k : Nat) : Prop := ∃ s : Text, s <+: t ∧ s.size = k

/-- Two parts of a text meet at a boundary. -/
lemma isBoundary_append (u v : Text) : IsBoundary (u ++ v) u.size := ⟨u, List.prefix_append .., rfl⟩

/-- What starts before an offset behind `u` is `u` and what starts before the offset from there. -/
lemma startingBefore_append (u t : Text) (k : Nat) :
    startingBefore (u.size + k) (u ++ t) = u ++ startingBefore k t := by
  induction u with
  | nil => rw [size_nil, Nat.zero_add]; rfl
  | cons c u ih =>
    obtain ⟨j, hj⟩ := Nat.exists_eq_succ_of_ne_zero (Nat.ne_of_gt c.utf8Size_pos)
    have succ : size (c :: u) + k = (j + (size u + k)) + 1 := by rw [size_cons]; omega
    have left : j + (size u + k) + 1 - c.utf8Size = size u + k := by omega
    rw [succ, List.cons_append, startingBefore, left, ih, List.cons_append]

/-- Positions in a second part are counted on from the end of the first. -/
lemma positionAt_append (u t : Text) (k : Nat) :
    (u ++ t).positionAt (u.size + k) = (Position.origin.after u).after (startingBefore k t) := by
  rw [positionAt, startingBefore_append, Position.after_append]

/-- A second part begins where the first one leads. -/
lemma positionAt_size_append (u t : Text) :
    (u ++ t).positionAt u.size = Position.origin.after u := by
  have none : startingBefore 0 t = [] := by cases t <;> rfl
  have place := positionAt_append u t 0
  rwa [none] at place

/-- A span in the middle of a text ranges from where the middle begins to where it ends. -/
lemma rangeOf_append (u m v : Text) :
    (u ++ (m ++ v)).rangeOf ⟨u.size, u.size + m.size⟩ =
      ⟨Position.origin.after u, (Position.origin.after u).after m⟩ := by
  have stop := positionAt_size_append (u ++ m) v
  rw [List.append_assoc, size_append, Position.after_append] at stop
  rw [rangeOf, positionAt_size_append, stop]

/-- The place after a text is not met before. -/
lemma offsetFrom_after (p : Position) (o : Nat) (s r : Text) :
    offsetFrom p o (p.after s) (s ++ r) = some (o + s.size) := by
  induction s generalizing p o with
  | nil => cases r <;> exact if_pos rfl
  | cons c s ih =>
    have later : p ≠ p.after (c :: s) := (p.lt_after (List.cons_ne_nil c s)).ne
    rw [List.cons_append, offsetFrom, if_neg later, Position.after_cons, ih, size_cons,
      Nat.add_assoc]

/-- The offset of a boundary's place is the boundary. -/
lemma offsetOf?_positionAt (h : t.IsBoundary k) : t.offsetOf? (t.positionAt k) = some k := by
  obtain ⟨u, ⟨v, rfl⟩, rfl⟩ := h
  rw [positionAt_size_append, offsetOf?, offsetFrom_after, Nat.zero_add]

/-- Boundaries of one place are the same. -/
lemma positionAt_injective (ha : t.IsBoundary a) (hb : t.IsBoundary b)
    (same : t.positionAt a = t.positionAt b) : a = b := by
  have offset := offsetOf?_positionAt ha
  rw [same, offsetOf?_positionAt hb] at offset
  exact (Option.some.inj offset).symm

end Text

end Reckoner
