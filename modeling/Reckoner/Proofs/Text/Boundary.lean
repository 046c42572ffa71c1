import Mathlib.Order.Bounds.Basic
import Mathlib.Order.Hom.Basic
import Reckoner.Proofs.Text.Translation

/-!
# Boundaries and their places

The boundaries between the characters of a text and the places where they are on the page are two
forms of one ordered set: the place of an offset and the offset of a place lead from one to the
other (`placeIso`).  An offset that is no boundary has the place of the next one, and behind the end
that of the end.
-/

namespace Reckoner

namespace Text

variable {t s u v r : Text} {p q : Position} {k l o : Nat}

/-- A part of a text that begins with it and reaches up to an offset: it consists of the characters
that start before the offset. -/
structure ReachesUpTo (t : Text) (k : Nat) (s : Text) : Prop where
  isPrefix : s <+: t
  starts : ∀ (u : Text) (c : Char) (v : Text), t = u ++ c :: v → (u.size < k ↔ u ++ [c] <+: s)

/-- The characters that start before an offset reach up to it. -/
lemma reachesUpTo_startingBefore (t : Text) (k : Nat) :
    t.ReachesUpTo k (startingBefore k t) := by
  induction t generalizing k with
  | nil => exact ⟨by cases k <;> exact List.prefix_rfl, by simp⟩
  | cons c t ih =>
    cases k with
    | zero => exact ⟨List.nil_prefix, by simp [startingBefore]⟩
    | succ k =>
      have rest := ih (k + 1 - c.utf8Size)
      refine ⟨List.cons_prefix_cons.mpr ⟨rfl, rest.isPrefix⟩, ?_⟩
      intro u d v eq
      cases u with
      | nil =>
        cases eq
        simp [startingBefore]
      | cons e u =>
        obtain ⟨rfl, rest_eq⟩ := List.cons.inj eq
        have less : size (c :: u) < k + 1 ↔ size u < k + 1 - c.utf8Size := by
          rw [size_cons]
          omega
        rw [less, rest.starts u d v rest_eq, startingBefore, List.cons_append,
          List.cons_prefix_cons]
        exact (and_iff_right rfl).symm

/-- No text begins with itself and more. -/
lemma concat_not_isPrefix (s : Text) (c : Char) : ¬ s ++ [c] <+: s :=
  fun more => absurd more.length_le (by simp)

/-- Of two parts that begin a text one is longer by some characters, or they are the same. -/
lemma prefix_or_longer (h1 : s <+: t) (h2 : u <+: t) :
    s <+: u ∨ ∃ c w, s = u ++ c :: w := by
  rcases List.prefix_or_prefix_of_prefix h1 h2 with short | ⟨w, rfl⟩
  · exact .inl short
  · cases w with
    | nil => exact .inl ⟨[], by simp⟩
    | cons c w => exact .inr ⟨c, w, rfl⟩

/-- What reaches up to a later offset is longer. -/
lemma ReachesUpTo.mono (h1 : t.ReachesUpTo k s) (h2 : t.ReachesUpTo l u) (le : k ≤ l) :
    s <+: u := by
  rcases prefix_or_longer h1.isPrefix h2.isPrefix with short | ⟨c, w, rfl⟩
  · exact short
  · obtain ⟨r, rfl⟩ := h1.isPrefix
    have eq : u ++ c :: w ++ r = u ++ c :: (w ++ r) := by simp
    have less : u.size < k := (h1.starts u c _ eq).mpr ⟨w, by simp⟩
    have more := (h2.starts u c _ eq).mp (less.trans_le le)
    exact absurd more (concat_not_isPrefix u c)

/-- What reaches up to an offset ends at the first boundary that is not before it, or at the end of
the text. -/
lemma ReachesUpTo.isLeast (h : t.ReachesUpTo k s) :
    IsLeast {b | t.IsBoundary b ∧ min k t.size ≤ b} s.size := by
  refine ⟨⟨⟨s, h.isPrefix, rfl⟩, ?_⟩, ?_⟩
  · obtain ⟨r, rfl⟩ := h.isPrefix
    cases r with
    | nil => simp
    | cons c r =>
      have stops : ¬ s.size < k :=
        fun less => concat_not_isPrefix s c ((h.starts s c r rfl).mp less)
      exact (Nat.min_le_left ..).trans (Nat.le_of_not_lt stops)
  · rintro b ⟨⟨u, front, rfl⟩, le⟩
    rcases prefix_or_longer h.isPrefix front with ⟨w, rfl⟩ | ⟨c, w, rfl⟩
    · simp
    · -- the character after `u` starts before the offset, so `u` stops before the offset
      obtain ⟨r, rfl⟩ := h.isPrefix
      have less : u.size < k := (h.starts u c (w ++ r) (by simp)).mpr ⟨w, by simp⟩
      have inside := c.utf8Size_pos
      simp only [size_append, size_cons] at le ⊢
      omega

/-- An offset has the place where the characters that start before it end. -/
lemma exists_reachesUpTo (t : Text) (k : Nat) :
    ∃ s, t.ReachesUpTo k s ∧ t.positionAt k = Position.origin.after s ∧
      t.positionAt k = t.positionAt s.size := by
  have reaches := reachesUpTo_startingBefore t k
  refine ⟨_, reaches, rfl, ?_⟩
  obtain ⟨r, eq⟩ := reaches.isPrefix
  have place := positionAt_size_append (startingBefore k t) r
  rw [eq] at place
  exact place.symm

/-- Later offsets have later positions. -/
lemma positionAt_mono (t : Text) : Monotone t.positionAt := by
  intro k l le
  obtain ⟨r, more⟩ := (reachesUpTo_startingBefore t k).mono (reachesUpTo_startingBefore t l) le
  rw [positionAt, positionAt, ← more, Position.after_append]
  exact Position.le_after _ r

/-- On boundaries different offsets have different positions. -/
lemma positionAt_strictMonoOn (t : Text) : StrictMonoOn t.positionAt {k | t.IsBoundary k} :=
  fun _ ha _ hb less => lt_of_le_of_ne (t.positionAt_mono less.le)
    fun same => less.ne (positionAt_injective ha hb same)

/-- An offset that is found for a place is a boundary there. -/
lemma exists_of_offsetFrom (h : offsetFrom p o q t = some k) :
    ∃ s : Text, s <+: t ∧ p.after s = q ∧ k = o + s.size := by
  induction t generalizing p o with
  | nil =>
    rw [offsetFrom] at h
    split at h
    case isTrue here =>
      cases h
      exact ⟨[], List.prefix_rfl, here, rfl⟩
    case isFalse => cases h
  | cons c t ih =>
    rw [offsetFrom] at h
    split at h
    case isTrue here =>
      cases h
      exact ⟨[], List.nil_prefix, here, rfl⟩
    case isFalse =>
      obtain ⟨s, front, place, rfl⟩ := ih h
      refine ⟨c :: s, List.cons_prefix_cons.mpr ⟨rfl, front⟩, place, ?_⟩
      rw [size_cons, Nat.add_assoc]

/-- The offset of a place is the boundary that is there. -/
lemma offsetOf?_eq_some_iff : t.offsetOf? p = some k ↔ t.IsBoundary k ∧ t.positionAt k = p := by
  constructor
  · intro h
    obtain ⟨s, ⟨r, rfl⟩, place, offset⟩ := exists_of_offsetFrom h
    rw [Nat.zero_add] at offset
    subst offset
    rw [positionAt_size_append]
    exact ⟨isBoundary_append s r, place⟩
  · rintro ⟨boundary, rfl⟩
    exact offsetOf?_positionAt boundary

/-- A position has no offset if no boundary is there. -/
lemma offsetOf?_eq_none_iff :
    t.offsetOf? p = none ↔ ∀ k, t.IsBoundary k → t.positionAt k ≠ p := by
  rw [Option.eq_none_iff_forall_ne_some]
  exact forall_congr' fun k => (not_congr offsetOf?_eq_some_iff).trans not_and

/-- The boundaries of a text and the places that have an offset, in the same order. -/
def placeIso (t : Text) : {k // t.IsBoundary k} ≃o {p // (t.offsetOf? p).isSome} where
  toFun k := ⟨t.positionAt k, by rw [offsetOf?_positionAt k.2]; rfl⟩
  invFun p := ⟨(t.offsetOf? p).get p.2, (offsetOf?_eq_some_iff.mp (Option.some_get p.2).symm).1⟩
  left_inv k := Subtype.ext (Option.get_of_eq_some _ (offsetOf?_positionAt k.2))
  right_inv p := Subtype.ext (offsetOf?_eq_some_iff.mp (Option.some_get p.2).symm).2
  map_rel_iff' {a b} := t.positionAt_strictMonoOn.le_iff_le a.2 b.2

/-- Places are in the order of offsets, strictly so at boundaries; a place counts the line feeds
before its offset and the characters after the last of them.  A place has an offset exactly where a
boundary is, and has that boundary: boundaries and their places are the same in the same order.  The
offset of the place of any offset is the first boundary from there on, or the end. -/
theorem places_of_offsets (t : Text) :
    Monotone t.positionAt ∧
    StrictMonoOn t.positionAt {k | t.IsBoundary k} ∧
    (∀ k, ∃ s, t.ReachesUpTo k s ∧
      t.positionAt k = ⟨s.count '\n', (s.rtakeWhile (· ≠ '\n')).length⟩) ∧
    (∀ p k, t.offsetOf? p = some k ↔ t.IsBoundary k ∧ t.positionAt k = p) ∧
    (∀ p, t.offsetOf? p = none ↔ ¬ ∃ k, t.IsBoundary k ∧ t.positionAt k = p) ∧
    (∃ e : {k // t.IsBoundary k} ≃o {p // (t.offsetOf? p).isSome},
      (∀ k, (e k : Position) = t.positionAt k) ∧
      ∀ p : {p // (t.offsetOf? p).isSome}, t.offsetOf? p = some (e.symm p : Nat)) ∧
    ∀ k, ∃ b, t.offsetOf? (t.positionAt k) = some b ∧
      IsLeast {b | t.IsBoundary b ∧ min k t.size ≤ b} b := by
  refine ⟨t.positionAt_mono, t.positionAt_strictMonoOn, fun k => ?_,
    fun _ _ => offsetOf?_eq_some_iff, fun p => ?_, ⟨t.placeIso, fun _ => rfl, fun p => ?_⟩,
    fun k => ?_⟩
  · obtain ⟨s, reaches, place, _⟩ := t.exists_reachesUpTo k
    rw [place, Position.after_origin]
    exact ⟨s, reaches, rfl⟩
  · rw [offsetOf?_eq_none_iff, not_exists]
    exact forall_congr' fun k => not_and.symm
  · exact (Option.some_get p.2).symm
  · obtain ⟨s, reaches, _, same⟩ := t.exists_reachesUpTo k
    rw [same]
    exact ⟨s.size, offsetOf?_positionAt ⟨s, reaches.isPrefix, rfl⟩, reaches.isLeast⟩

end Text

end Reckoner
