import Mathlib.Data.List.Induction
import Reckoner.Proofs.Structure.Scan

/-!
# Matching parentheses

Two parentheses are partners when the text between them is `Matched`, which is said without a stack.
The parentheses of every text that have no partner cut it into matched pieces: first the closing
ones, then the opening ones (`Scanned`).  The check goes through the pieces one by one and finds
what stands between them.
-/

namespace Reckoner

/-- A character stands at an offset of a text. -/
def Text.HasAt (t : Text) (c : Char) (k : Nat) : Prop := ∃ u v : Text, t = u ++ c :: v ∧ u.size = k

/-- What stands in a text stands in every longer one. -/
lemma Text.HasAt.append {t : Text} {c : Char} {k : Nat} (h : t.HasAt c k) (r : Text) :
    HasAt (t ++ r) c k := by
  obtain ⟨u, v, rfl, size⟩ := h
  exact ⟨u, v ++ r, by simp, size⟩

/-- A text with more after it is shorter than the whole. -/
lemma Text.size_lt_append_cons (u : Text) (c : Char) (m : Text) :
    u.size < Text.size (u ++ c :: m) := by
  rw [size_append, size_cons]
  exact Nat.lt_add_of_pos_right (Nat.add_pos_left c.utf8Size_pos _)

namespace Structure

/-- The report on a closing parenthesis at an offset. -/
def orphanAt (k : Nat) : Finding := ⟨.orphanClosing, .ofChar k ')'⟩

/-- The report on an opening parenthesis at an offset. -/
def unclosedAt (k : Nat) : Finding := ⟨.neverClosed, .ofChar k '('⟩

/-- Texts in which every parenthesis has a partner. -/
inductive Matched : Text → Prop where
  | nil : Matched []
  | other {c s} (opens : c ≠ '(') (closes : c ≠ ')') :
    Matched s →
    Matched (c :: s)
  | pair {s r} :
    Matched s →
    Matched r →
    Matched ('(' :: (s ++ ')' :: r))

/-- The opening parenthesis at `i` and the closing one at `j` belong together. -/
def Partners (t : Text) (i j : Nat) : Prop :=
  ∃ u m v : Text, t = u ++ '(' :: (m ++ ')' :: v) ∧ Matched m ∧
    i = u.size ∧ j = Text.size (u ++ '(' :: m)

/-- The text consists of matched pieces, with a closing parenthesis between them at each of
`orphans` and then an opening one at each of `opened`, the last one first. -/
inductive Scanned : Text → (orphans opened : List Nat) → Prop where
  | matched {m} :
    Matched m →
    Scanned m [] []
  | orphan {u m orphans} :
    Scanned u orphans [] →
    Matched m →
    Scanned (u ++ ')' :: m) (orphans ++ [Text.size u]) []
  | opening {u m orphans opened} :
    Scanned u orphans opened →
    Matched m →
    Scanned (u ++ '(' :: m) orphans (Text.size u :: opened)

variable {t u m r : Text} {f : Finding} {i j k : Nat} {orphans opened : List Nat}

/-- Texts one after the other match if both do. -/
lemma Matched.append (h1 : Matched t) (h2 : Matched r) : Matched (t ++ r) := by
  induction h1 with
  | nil => exact h2
  | other opens closes _ ih => exact .other opens closes ih
  | pair inner _ _ ih =>
    rw [List.cons_append, List.append_assoc]
    exact .pair inner ih

/-- A text that matches is balanced. -/
lemma Matched.balanced (h : Matched t) : Balanced t := by
  induction h with
  | nil => exact .nil
  | other opens closes _ ih => exact ih.cons opens closes
  | pair _ _ ih1 ih2 =>
    have both := ih1.parens.append ih2
    rwa [List.cons_append, List.append_assoc] at both

/-- An ascending list can be continued behind its last member. -/
lemma pairwise_concat {ks : List Nat} {a b : Nat} (h : (ks ++ [a]).Pairwise (· < ·))
    (less : a < b) : (ks ++ [a] ++ [b]).Pairwise (· < ·) := by
  refine List.pairwise_append.mpr ⟨h, List.pairwise_singleton .., fun k mem _ last => ?_⟩
  rw [List.mem_singleton.mp last]
  rcases List.mem_append.mp mem with before | same
  · exact ((List.pairwise_append.mp h).2.2 k before a List.mem_cons_self).trans less
  · rw [List.mem_singleton.mp same]
    exact less

namespace Scanned

/-- More matched text adds no parenthesis without partner. -/
lemma append (h : Scanned u orphans opened) (more : Matched r) :
    Scanned (u ++ r) orphans opened := by
  cases h with
  | matched piece => exact .matched (piece.append more)
  | orphan before piece =>
    rw [List.append_assoc]
    exact .orphan before (piece.append more)
  | opening before piece =>
    rw [List.append_assoc]
    exact .opening before (piece.append more)

/-- A text without parentheses between its pieces is one matched piece. -/
lemma matched_of_nil (h : Scanned t orphans opened) (closing : orphans = []) (open_ : opened = []) :
    Matched t := by
  cases h with
  | matched piece => exact piece
  | orphan => simp at closing
  | opening => cases open_

/-- The parentheses without partner come one after another, and the end of the text after them. -/
lemma ascending (h : Scanned t orphans opened) :
    (orphans ++ opened.reverse ++ [t.size]).Pairwise (· < ·) := by
  induction h with
  | matched => exact List.pairwise_singleton ..
  | orphan _ _ ih => simpa using pairwise_concat ih (Text.size_lt_append_cons ..)
  | opening _ _ ih => simpa using pairwise_concat ih (Text.size_lt_append_cons ..)

/-- The parentheses between the pieces are inside the text. -/
lemma lt_size (h : Scanned t orphans opened) (mem : k ∈ orphans ∨ k ∈ opened) : k < t.size :=
  (List.pairwise_append.mp h.ascending).2.2 k (by simpa using mem) _ List.mem_cons_self

/-- At each of `orphans` there is a closing parenthesis. -/
lemma hasAt_orphan (h : Scanned t orphans opened) (mem : k ∈ orphans) : t.HasAt ')' k := by
  induction h with
  | matched => cases mem
  | @orphan u m orphans _ _ ih =>
    rcases List.mem_append.mp mem with before | last
    · exact (ih before).append _
    · exact ⟨u, m, rfl, (List.mem_singleton.mp last).symm⟩
  | opening _ _ ih => exact (ih mem).append _

/-- At each of `opened` there is an opening parenthesis. -/
lemma hasAt_opened (h : Scanned t orphans opened) (mem : k ∈ opened) : t.HasAt '(' k := by
  induction h with
  | matched => cases mem
  | orphan => cases mem
  | @opening u m _ _ _ _ ih =>
    cases mem with
    | head => exact ⟨u, m, rfl, rfl⟩
    | tail _ before => exact (ih before).append _

/-- After a text the check has found the closing parentheses without partner, and those that are
open are the opening ones. -/
lemma unmatchedFrom_append (h : Scanned u orphans opened) (r : Text) :
    unmatchedFrom [] 0 (u ++ r) = orphans.map orphanAt ++ unmatchedFrom opened u.size r := by
  induction h generalizing r with
  | matched piece => rw [piece.balanced, Nat.zero_add]; rfl
  | @orphan u m orphans _ piece ih =>
    have step : unmatchedFrom [] u.size (')' :: (m ++ r)) =
        orphanAt u.size :: unmatchedFrom [] (Text.size (u ++ ')' :: m)) r := by
      rw [Text.size_append, Text.size_cons, ← Nat.add_assoc, ← piece.balanced]
      rfl
    rw [List.append_assoc, List.cons_append, ih, step]
    simp
  | @opening u m orphans opened _ piece ih =>
    have step : unmatchedFrom opened u.size ('(' :: (m ++ r)) =
        unmatchedFrom (u.size :: opened) (Text.size (u ++ '(' :: m)) r := by
      rw [Text.size_append, Text.size_cons, ← Nat.add_assoc, ← piece.balanced]
      rfl
    rw [List.append_assoc, List.cons_append, ih, step]

/-- The check finds the parentheses between the pieces, and nothing else. -/
lemma unmatchedParentheses_eq (h : Scanned t orphans opened) :
    unmatchedParentheses t = orphans.map orphanAt ++ opened.map unclosedAt := by
  have all := h.unmatchedFrom_append []
  rwa [List.append_nil] at all

/-- A closing parenthesis is found if it is between the pieces. -/
lemma orphanAt_mem (h : Scanned t orphans opened) :
    orphanAt k ∈ unmatchedParentheses t ↔ k ∈ orphans := by
  rw [h.unmatchedParentheses_eq]
  simp [orphanAt, unclosedAt, Span.ofChar]

/-- An opening parenthesis is found if it is between the pieces. -/
lemma unclosedAt_mem (h : Scanned t orphans opened) :
    unclosedAt k ∈ unmatchedParentheses t ↔ k ∈ opened := by
  rw [h.unmatchedParentheses_eq]
  simp [orphanAt, unclosedAt, Span.ofChar]

/-- Where nothing is closed that was open before, everything that was open stays open. -/
lemma unmatchedFrom_open (h : Scanned t orphans opened) (none : orphans = []) (before : List Nat)
    (o : Nat) (r : Text) : ∃ more, unmatchedFrom before o (t ++ r) =
      unmatchedFrom (more ++ before) (o + t.size) r := by
  induction h generalizing r with
  | matched piece => exact ⟨[], piece.balanced before o r⟩
  | orphan => simp at none
  | @opening u m orphans opened _ piece ih =>
    obtain ⟨more, eq⟩ := ih none ('(' :: (m ++ r))
    refine ⟨(o + u.size) :: more, ?_⟩
    rw [List.append_assoc, List.cons_append, eq, Text.size_append, Text.size_cons,
      ← Nat.add_assoc o, ← Nat.add_assoc (o + u.size), List.cons_append, ← piece.balanced]
    rfl

/-- The first closing parenthesis without partner comes after a matched piece. -/
lemma exists_closing (h : Scanned t orphans opened) (some : orphans ≠ []) :
    ∃ m r, t = m ++ ')' :: r ∧ Matched m := by
  induction h with
  | matched => exact absurd rfl some
  | @orphan u m orphans before piece ih =>
    by_cases none : orphans = []
    · exact ⟨u, m, rfl, before.matched_of_nil none rfl⟩
    · obtain ⟨m', r, rfl, first⟩ := ih none
      exact ⟨m', r ++ ')' :: m, by simp, first⟩
  | @opening u m orphans opened _ _ ih =>
    obtain ⟨m', r, rfl, first⟩ := ih some
    exact ⟨m', r ++ '(' :: m, by simp, first⟩

end Scanned

/-- Every text consists of such pieces. -/
lemma exists_scanned (t : Text) : ∃ orphans opened, Scanned t orphans opened := by
  induction t using List.reverseRecOn with
  | nil => exact ⟨[], [], .matched .nil⟩
  | append_singleton u c ih =>
    obtain ⟨orphans, opened, h⟩ := ih
    by_cases opens : c = '('
    · subst opens
      exact ⟨_, _, .opening h .nil⟩
    · by_cases closes : c = ')'
      · subst closes
        cases opened with
        | nil => exact ⟨_, _, .orphan h .nil⟩
        | cons top outer =>
          -- the parenthesis closes the last piece, which becomes a part of the one before
          cases h with
          | opening before piece =>
            rw [List.append_assoc]
            exact ⟨_, _, before.append (.pair piece .nil)⟩
      · exact ⟨_, _, h.append (.other opens closes .nil)⟩

/-- The closing partner comes later. -/
lemma Partners.lt (h : Partners t i j) : i < j := by
  obtain ⟨u, m, v, _, _, rfl, rfl⟩ := h
  exact Text.size_lt_append_cons ..

/-- Nothing is found on partners or between them. -/
lemma Partners.outside (h : Partners t i j) (mem : f ∈ unmatchedParentheses t) :
    f.span.start < i ∨ j < f.span.start := by
  obtain ⟨u, m, v, rfl, inner, rfl, rfl⟩ := h
  obtain ⟨orphans, opened, before⟩ := exists_scanned u
  have pair : '(' :: (m ++ ')' :: v) = '(' :: (m ++ [')']) ++ v := by simp
  rw [unmatchedParentheses, before.unmatchedFrom_append, pair, (inner.pair .nil).balanced,
    List.mem_append] at mem
  rcases mem with orphan | later
  · obtain ⟨k, mem, rfl⟩ := List.mem_map.mp orphan
    exact .inl (before.lt_size (.inl mem))
  · rcases mem_unmatchedFrom later with ⟨k, mem, rfl⟩ | ⟨w, c, _, _, span⟩
    · exact .inl (before.lt_size (.inr mem))
    · refine .inr ?_
      rw [span]
      simp [Span.ofChar, Char.utf8Size]
      omega

/-- A closing parenthesis is found exactly where it has no partner. -/
lemma mem_orphans_iff (h : Scanned t orphans opened) :
    k ∈ orphans ↔ t.HasAt ')' k ∧ ¬ ∃ i, Partners t i k := by
  constructor
  · intro mem
    refine ⟨h.hasAt_orphan mem, ?_⟩
    rintro ⟨i, partners⟩
    have found := h.orphanAt_mem.mpr mem
    rcases partners.outside found with before | after
    · exact Nat.lt_asymm before partners.lt
    · exact Nat.lt_irrefl _ after
  · rintro ⟨⟨u, v, rfl, rfl⟩, alone⟩
    obtain ⟨closed, pending, before⟩ := exists_scanned u
    cases pending with
    | nil =>
      apply h.orphanAt_mem.mp
      rw [unmatchedParentheses, before.unmatchedFrom_append]
      exact List.mem_append_right _ List.mem_cons_self
    | cons top outer =>
      -- the last of the open parentheses is the partner
      cases before with
      | opening _ piece => exact absurd ⟨_, _, _, v, by simp, piece, rfl, rfl⟩ alone

/-- An opening parenthesis is found exactly where it has no partner. -/
lemma mem_opened_iff (h : Scanned t orphans opened) :
    k ∈ opened ↔ t.HasAt '(' k ∧ ¬ ∃ j, Partners t k j := by
  constructor
  · intro mem
    refine ⟨h.hasAt_opened mem, ?_⟩
    rintro ⟨j, partners⟩
    have found := h.unclosedAt_mem.mpr mem
    rcases partners.outside found with before | after
    · exact Nat.lt_irrefl _ before
    · exact Nat.lt_asymm after partners.lt
  · rintro ⟨⟨u, v, rfl, rfl⟩, alone⟩
    obtain ⟨closed, pending, before⟩ := exists_scanned u
    obtain ⟨closing, _, after⟩ := exists_scanned v
    by_cases none : closing = []
    · apply h.unclosedAt_mem.mp
      obtain ⟨more, open_⟩ := after.unmatchedFrom_open none (u.size :: pending) (u.size + 1) []
      rw [List.append_nil] at open_
      have step : unmatchedFrom pending u.size ('(' :: v) =
          unmatchedFrom (u.size :: pending) (u.size + 1) v := rfl
      rw [unmatchedParentheses, before.unmatchedFrom_append, step, open_]
      refine List.mem_append_right _ (List.mem_map_of_mem ?_)
      exact List.mem_append_right _ List.mem_cons_self
    · -- the first closing parenthesis that is too many after it is the partner
      obtain ⟨m, r, rfl, piece⟩ := after.exists_closing none
      exact absurd ⟨_, u, m, r, rfl, piece, rfl, rfl⟩ alone

end Structure

end Reckoner
