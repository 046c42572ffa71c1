import Mathlib.Data.Finset.Card
import Mathlib.Order.Bounds.Basic
import Reckoner.Proofs.Structure.Matching

/-!
# Deleting unmatched parentheses

What the check finds is what has to go for the parentheses to match.  Without the characters that
are found all pieces of a text are put together and match (`Scanned.matched_without`).  Deleting a
character makes at most one finding less, so that no deletion of fewer characters is enough
(`length_unmatchedFrom_le`).
-/

namespace Reckoner

namespace Text

/-- A text that begins at an offset, without the characters at some offsets. -/
def withoutFrom (ks : Finset Nat) (offset : Nat) : Text → Text
  | [] => []
  | c :: rest =>
    if offset ∈ ks then withoutFrom ks (offset + c.utf8Size) rest
    else c :: withoutFrom ks (offset + c.utf8Size) rest

/-- A text without the characters at some offsets. -/
def without (t : Text) (ks : Finset Nat) : Text := withoutFrom ks 0 t

variable {ks : Finset Nat} {o : Nat} {t u v : Text}

/-- Characters are deleted from two parts one by one. -/
lemma withoutFrom_append (u v : Text) :
    withoutFrom ks o (u ++ v) = withoutFrom ks o u ++ withoutFrom ks (o + u.size) v := by
  induction u generalizing o with
  | nil => rfl
  | cons c u ih =>
    rw [List.cons_append, withoutFrom, withoutFrom, ih, size_cons, Nat.add_assoc]
    split <;> rfl

/-- Nothing is deleted from a text that holds none of the offsets. -/
lemma withoutFrom_eq_self (keeps : ∀ k, o ≤ k → k < o + t.size → k ∉ ks) :
    withoutFrom ks o t = t := by
  induction t generalizing o with
  | nil => rfl
  | cons c t ih =>
    have positive := c.utf8Size_pos
    rw [size_cons] at keeps
    rw [withoutFrom, if_neg (keeps o le_rfl (by omega)), ih fun k after before => ?_]
    exact keeps k (by omega) (by omega)

/-- What is not deleted stays in order. -/
lemma withoutFrom_sublist (ks : Finset Nat) (o : Nat) (t : Text) :
    (withoutFrom ks o t).Sublist t := by
  induction t generalizing o with
  | nil => exact .slnil
  | cons c t ih =>
    rw [withoutFrom]
    split
    · exact .cons c (ih _)
    · exact .cons_cons c (ih _)

/-- Every offset takes away one character at most. -/
lemma length_le_withoutFrom (ks : Finset Nat) (o : Nat) (t : Text) :
    t.length ≤ (withoutFrom ks o t).length + (ks.filter (o ≤ ·)).card := by
  induction t generalizing o with
  | nil => exact Nat.zero_le _
  | cons c t ih =>
    have positive := c.utf8Size_pos
    have rest := ih (o + c.utf8Size)
    have fewer : ks.filter (o + c.utf8Size ≤ ·) ⊆ ks.filter (o ≤ ·) :=
      Finset.monotone_filter_right ks fun k _ le => (Nat.le_add_right ..).trans le
    rw [withoutFrom]
    split
    case isTrue mem =>
      have more : ks.filter (o + c.utf8Size ≤ ·) ⊂ ks.filter (o ≤ ·) := by
        refine Finset.ssubset_iff_subset_ne.mpr ⟨fewer, fun same => ?_⟩
        have here : o ∈ ks.filter (o ≤ ·) := Finset.mem_filter.mpr ⟨mem, le_rfl⟩
        rw [← same, Finset.mem_filter] at here
        omega
      have := Finset.card_lt_card more
      simp only [List.length_cons]
      omega
    case isFalse =>
      have := Finset.card_le_card fewer
      simp only [List.length_cons]
      omega

end Text

namespace Structure

variable {t u s : Text} {orphans opened before after : List Nat} {ks : Finset Nat} {k l o : Nat}

/-- A matched piece stays as it is when the character before it is deleted. -/
lemma matched_without_concat {c : Char} {m : Text} (front : Matched (u.without ks))
    (piece : Matched m) (gone : u.size ∈ ks)
    (keeps : ∀ k, u.size < k → k < Text.size (u ++ c :: m) → k ∉ ks) :
    Matched (Text.without (u ++ c :: m) ks) := by
  have kept : Text.withoutFrom ks (u.size + c.utf8Size) m = m := by
    have positive := c.utf8Size_pos
    rw [Text.size_append, Text.size_cons] at keeps
    exact Text.withoutFrom_eq_self fun k after before => keeps k (by omega) (by omega)
  rw [Text.without, Text.withoutFrom_append, Nat.zero_add, Text.withoutFrom, if_pos gone, kept]
  exact front.append piece

/-- Without what has no partner the parentheses match. -/
lemma Scanned.matched_without (h : Scanned t orphans opened)
    (found : ∀ k < t.size, k ∈ ks ↔ k ∈ orphans ∨ k ∈ opened) : Matched (t.without ks) := by
  induction h with
  | @matched m piece =>
    have kept : m.without ks = m :=
      Text.withoutFrom_eq_self fun k _ less => by simp [found k (by omega)]
    rwa [kept]
  | @orphan u m orphans before piece ih =>
    have longer := Text.size_lt_append_cons u ')' m
    apply matched_without_concat (ih fun k less => ?_) piece
    · exact (found _ longer).mpr (.inl (by simp))
    · intro k after less mem
      rcases (found k less).mp mem with closed | none
      · rcases List.mem_append.mp closed with early | last
        · exact Nat.lt_asymm after (before.lt_size (.inl early))
        · exact after.ne' (List.mem_singleton.mp last)
      · cases none
    · rw [found k (less.trans longer)]
      simp [less.ne]
  | @opening u m orphans opened before piece ih =>
    have longer := Text.size_lt_append_cons u '(' m
    apply matched_without_concat (ih fun k less => ?_) piece
    · exact (found _ longer).mpr (.inr List.mem_cons_self)
    · intro k after less mem
      rcases (found k less).mp mem with early | pending
      · exact Nat.lt_asymm after (before.lt_size (.inl early))
      · rcases List.mem_cons.mp pending with last | early
        · exact after.ne' last
        · exact Nat.lt_asymm after (before.lt_size (.inr early))
    · rw [found k (less.trans longer)]
      simp [less.ne]

/-- What the check does at a character: from `before` open parentheses it comes to `after` and makes
`count` findings. -/
inductive Step : Char → (before after count : Nat) → Prop where
  | opens {n} : Step '(' n (n + 1) 0
  | orphan : Step ')' 0 0 1
  | closes {n} : Step ')' (n + 1) n 0
  | other {c n} (opens : c ≠ '(') (closes : c ≠ ')') : Step c n n 0

/-- At every character the check does one of its steps. -/
lemma exists_step (c : Char) (k : Nat) (before : List Nat) (t : Text) :
    ∃ (after : List Nat) (count : Nat), Step c before.length after.length count ∧
      (unmatchedFrom before k (c :: t)).length =
        (unmatchedFrom after (k + c.utf8Size) t).length + count := by
  by_cases opens : c = '('
  · subst opens
    exact ⟨k :: before, 0, .opens, rfl⟩
  · by_cases closes : c = ')'
    · subst closes
      cases before with
      | nil => exact ⟨[], 1, .orphan, rfl⟩
      | cons top outer => exact ⟨outer, 0, .closes, rfl⟩
    · exact ⟨before, 0, .other opens closes, by simp [unmatchedFrom, opens, closes]⟩

/-- A deleted character accounts for one finding at most: the numbers of open parentheses with it
and without it may come to differ by one more, or it is found itself. -/
lemma length_unmatchedFrom_le (before : List Nat) (k : Nat) (h : s.Sublist t)
    (none : unmatchedFrom after l s = []) :
    (unmatchedFrom before k t).length + s.length ≤
      t.length + (before.length - after.length) + (after.length - before.length) := by
  induction h generalizing before after k l with
  | slnil =>
    rw [unmatchedFrom, List.map_eq_nil_iff] at none
    simp [unmatchedFrom, none]
  | @cons s t c h ih =>
    obtain ⟨next, count, step, length⟩ := exists_step c k before t
    have rest := ih next (k + c.utf8Size) none
    rw [length, List.length_cons]
    generalize before.length = a at step ⊢
    generalize next.length = b at step rest
    cases step <;> omega
  | @cons_cons s t c h ih =>
    obtain ⟨next, count, step, length⟩ := exists_step c k before t
    obtain ⟨next', count', step', length'⟩ := exists_step c l after s
    rw [none, List.length_nil, eq_comm, Nat.add_eq_zero_iff, List.length_eq_zero_iff] at length'
    have rest := ih next (k + c.utf8Size) length'.1
    rw [length, List.length_cons, List.length_cons]
    generalize before.length = a at step ⊢
    generalize after.length = a' at step' ⊢
    generalize next.length = b at step rest
    generalize next'.length = b' at step' rest
    -- both go the same way, unless there is nothing left to close before the deletion
    cases step with
    | opens =>
      cases step' with
      | opens => omega
      | other opens _ => exact absurd rfl opens
    | orphan =>
      cases step' with
      | orphan => omega
      | closes => omega
      | other _ closes => exact absurd rfl closes
    | closes =>
      cases step' with
      | orphan => omega
      | closes => omega
      | other _ closes => exact absurd rfl closes
    | other opens closes =>
      cases step' with
      | opens => exact absurd rfl opens
      | orphan => exact absurd rfl closes
      | closes => exact absurd rfl closes
      | other => omega

/-- The offsets where the check finds a parenthesis. -/
def unmatchedOffsets (t : Text) : Finset Nat :=
  ((unmatchedParentheses t).map (·.span.start)).toFinset

/-- The unmatched offsets are those of the parentheses between the pieces. -/
lemma Scanned.mem_unmatchedOffsets (h : Scanned t orphans opened) :
    k ∈ unmatchedOffsets t ↔ k ∈ orphans ∨ k ∈ opened := by
  simp [unmatchedOffsets, h.unmatchedParentheses_eq, orphanAt, unclosedAt, Span.ofChar,
    Function.comp_def]

/-- Every parenthesis is found once. -/
lemma card_unmatchedOffsets (t : Text) :
    (unmatchedOffsets t).card = (unmatchedParentheses t).length := by
  obtain ⟨orphans, opened, h⟩ := exists_scanned t
  have starts : (unmatchedParentheses t).map (·.span.start) = orphans ++ opened := by
    simp [h.unmatchedParentheses_eq, orphanAt, unclosedAt, Span.ofChar, Function.comp_def]
  have different : (orphans ++ opened).Nodup := by
    have ascending := (List.pairwise_append.mp h.ascending).1.imp Nat.ne_of_lt
    exact (List.Perm.nodup_iff ((List.reverse_perm opened).append_left orphans)).mp ascending
  rw [unmatchedOffsets, starts, List.toFinset_card_of_nodup different, ← starts, List.length_map]

/-- Without the unmatched parentheses all others match. -/
lemma unmatchedParentheses_without_unmatchedOffsets (t : Text) :
    unmatchedParentheses (t.without (unmatchedOffsets t)) = [] := by
  obtain ⟨orphans, opened, h⟩ := exists_scanned t
  have matched : Matched (t.without (unmatchedOffsets t)) :=
    h.matched_without fun k _ => h.mem_unmatchedOffsets
  exact matched.balanced.unmatchedFrom_eq_nil

/-- No smaller deletion is enough. -/
lemma length_le_card (none : unmatchedParentheses (t.without ks) = []) :
    (unmatchedParentheses t).length ≤ ks.card := by
  have sub := Text.withoutFrom_sublist ks 0 t
  have fewer := length_unmatchedFrom_le [] 0 sub none
  have lost := Text.length_le_withoutFrom ks 0 t
  have all := Finset.card_filter_le ks (0 ≤ ·)
  simp only [List.length_nil] at fewer
  rw [unmatchedParentheses]
  omega

/-- The check finds the parentheses without partner and nothing else: first the closing ones from
the left, then the opening ones from the right, each of them once and where it stands.  It finds
nothing exactly when the parentheses match.  Without the characters that it finds they do, and no
deletion of fewer parentheses is enough for that. -/
theorem unmatchedParentheses_partnerless (t : Text) :
    (∃ orphans opened : List Nat,
      unmatchedParentheses t =
        orphans.map (fun k => ⟨.orphanClosing, .ofChar k ')'⟩) ++
          opened.map (fun k => ⟨.neverClosed, .ofChar k '('⟩) ∧
      orphans.Pairwise (· < ·) ∧ opened.Pairwise (· > ·) ∧
      (∀ k, k ∈ orphans ↔ t.HasAt ')' k ∧ ¬ ∃ i, Partners t i k) ∧
      ∀ k, k ∈ opened ↔ t.HasAt '(' k ∧ ¬ ∃ j, Partners t k j) ∧
    (unmatchedParentheses t = [] ↔ Matched t) ∧
    unmatchedParentheses (t.without (unmatchedOffsets t)) = [] ∧
    IsLeast {n | ∃ ks : Finset Nat, (∀ k ∈ ks, t.HasAt '(' k ∨ t.HasAt ')' k) ∧
      unmatchedParentheses (t.without ks) = [] ∧ ks.card = n} (unmatchedOffsets t).card := by
  obtain ⟨orphans, opened, h⟩ := exists_scanned t
  have ascending := (List.pairwise_append.mp h.ascending).1
  obtain ⟨first, last, _⟩ := List.pairwise_append.mp ascending
  have without := unmatchedParentheses_without_unmatchedOffsets t
  refine ⟨⟨orphans, opened, h.unmatchedParentheses_eq, first, List.pairwise_reverse.mp last,
    fun _ => mem_orphans_iff h, fun _ => mem_opened_iff h⟩, ?_, without, ?_, ?_⟩
  · constructor
    · intro none
      rw [h.unmatchedParentheses_eq, List.append_eq_nil_iff, List.map_eq_nil_iff,
        List.map_eq_nil_iff] at none
      exact h.matched_of_nil none.1 none.2
    · intro matched
      exact matched.balanced.unmatchedFrom_eq_nil
  · refine ⟨unmatchedOffsets t, fun k mem => ?_, without, rfl⟩
    rcases h.mem_unmatchedOffsets.mp mem with orphan | pending
    · exact .inr (h.hasAt_orphan orphan)
    · exact .inl (h.hasAt_opened pending)
  · rintro n ⟨ks, _, none, rfl⟩
    rw [card_unmatchedOffsets]
    exact length_le_card none

end Structure

end Reckoner
