import Mathlib.Data.List.DropRight
import Reckoner.Proofs.Text.Place

/-!
# Later in a text

What the spans and the places of a text become when another text is put before it.  Spans move by
the bytes of that text and cover the same (`slice_moved`).  Places move by its lines, those of the
first line also by its last columns (`positionAt_moved`).
-/

namespace Reckoner

/-- A span in a text that comes `k` bytes later. -/
def Span.moved (span : Span) (k : Nat) : Span := ⟨span.start + k, span.stop + k⟩

/-- The span of a character is moved with it. -/
lemma Span.ofChar_moved {c : Char} {o k : Nat} : (ofChar o c).moved k = .ofChar (o + k) c := by
  rw [ofChar, moved, Nat.add_right_comm]
  rfl

/-- A place in a text that comes after `u`: what stands on its first line stands on the last line
of `u` now. -/
def Position.moved (p : Position) (u : Text) : Position :=
  ⟨p.line + u.count '\n',
    if p.line = 0 then p.column + (u.rtakeWhile (· ≠ '\n')).length else p.column⟩

/-- The places in a text that comes after `u`. -/
def Range.moved (r : Range) (u : Text) : Range := ⟨r.start.moved u, r.stop.moved u⟩

namespace Position

/-- A text ends in the last of its lines, after the characters there. -/
lemma after_origin (u : Text) :
    origin.after u = ⟨u.count '\n', (u.rtakeWhile (· ≠ '\n')).length⟩ := by
  induction u using List.reverseRecOn with
  | nil => rfl
  | append_singleton u c ih =>
    rw [after_append, ih, after_cons, after_nil, advance, List.rtakeWhile_concat,
      List.count_append]
    by_cases feed : c = '\n'
    · simp [feed]
    · simp [feed]

/-- The place after two texts is the place after the second one, moved by the first. -/
lemma after_after (u s : Text) : (origin.after u).after s = (origin.after s).moved u := by
  induction s using List.reverseRecOn with
  | nil =>
    rw [after_nil, after_nil, after_origin]
    simp [moved, origin]
  | append_singleton s c ih =>
    rw [after_append, after_append, ih, after_cons, after_nil, after_cons, after_nil]
    by_cases feed : c = '\n'
    · simp [advance, moved, feed, Nat.add_right_comm]
    · simp only [advance, moved, feed, if_false]
      split
      · rw [Nat.add_right_comm]
      · rfl

end Position

namespace Text

variable {u t : Text} {k : Nat} {span : Span}

/-- A cut in a second part leaves what the same cut leaves of that part alone. -/
lemma dropBytes?_append (u t : Text) (k : Nat) :
    dropBytes? (u.size + k) (u ++ t) = dropBytes? k t := by
  induction u with
  | nil => rw [size_nil, Nat.zero_add]; rfl
  | cons c u ih =>
    obtain ⟨j, hj⟩ := Nat.exists_eq_succ_of_ne_zero (Nat.ne_of_gt c.utf8Size_pos)
    have succ : size (c :: u) + k = (j + (size u + k)) + 1 := by rw [size_cons]; omega
    have left : j + (size u + k) + 1 - c.utf8Size = size u + k := by omega
    rw [succ, List.cons_append, dropBytes?, if_pos (by omega), left, ih]

/-- A span covers the same when it moves with its text. -/
lemma slice_moved : (u ++ t).slice (span.moved u.size) = t.slice span := by
  simp only [slice, Span.moved, Nat.add_le_add_iff_right, Nat.add_sub_add_right]
  rw [Nat.add_comm, dropBytes?_append]

/-- After other text the same offset has the position moved by that text. -/
lemma positionAt_moved : (u ++ t).positionAt (k + u.size) = (t.positionAt k).moved u := by
  rw [Nat.add_comm, positionAt_append, Position.after_after, positionAt]

example : (⟨0, 2⟩ : Position).moved [' ', '\n', '\t'] = ⟨1, 3⟩ := by decide

/-- After other text the same span has the range moved by that text. -/
lemma rangeOf_moved : (u ++ t).rangeOf (span.moved u.size) = (t.rangeOf span).moved u := by
  rw [rangeOf, Span.moved, positionAt_moved, positionAt_moved]
  rfl

end Text

end Reckoner
