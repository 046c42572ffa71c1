import Reckoner.Proofs.Session.Silence
import Reckoner.Proofs.Text.Place

/-!
# Segments and what is reported of them

An issue is shown twice: as the segments that colour the text and as a diagnostic on what is
rejected.  Each finds out for itself where the text ceases to be recognized, the segments with the
end of the text as a bound and the diagnostic without, and they agree on every issue
(`segments_agree`).  On the issue of a text the segments are parts of it, and they are the text.
-/

namespace Reckoner

/-- The spans follow each other from `a` to `b`, and none of them is empty. -/
inductive Tiles : Nat → List Span → Nat → Prop where
  | nil {a : Nat} : Tiles a [] a
  | cons {a m b : Nat} {spans : List Span} (some : a < m) (rest : Tiles m spans b) :
    Tiles a (⟨a, m⟩ :: spans) b

/-- Spans that tile a stretch go on with those that tile the next. -/
lemma Tiles.append {a m b : Nat} {front back : List Span} (h1 : Tiles a front m)
    (h2 : Tiles m back b) : Tiles a (front ++ back) b := by
  induction h1 with
  | nil => exact h2
  | cons some _ ih => exact .cons some (ih h2)

/-- A part of the text that may be empty is tiled by it or by nothing. -/
lemma Tiles.single {a b : Nat} {recognition : Recognition} (le : a ≤ b) :
    Tiles a ((if a < b then [(⟨⟨a, b⟩, recognition⟩ : Segment)] else []).map (·.span)) b := by
  split
  case isTrue less => exact .cons less .nil
  case isFalse stop =>
    cases Nat.le_antisymm le (Nat.le_of_not_lt stop)
    exact .nil

namespace Text

/-- The first of two parts is the slice up to its size. -/
lemma slice_left (s t : Text) : slice (s ++ t) ⟨0, s.size⟩ = s := by
  have cut := slice_append [] s t
  rwa [size_nil, Nat.zero_add] at cut

/-- The second of two parts is the slice from where the first stops. -/
lemma slice_right (s t : Text) : slice (s ++ t) ⟨s.size, s.size + t.size⟩ = t := by
  have cut := slice_append s t []
  rwa [List.append_nil] at cut

end Text

namespace Issue

variable {i : Issue} {s : Segment} {t : Text}

/-- The segments of an issue cover all bytes, each once and in order. -/
lemma tiles_segments (i : Issue) : Tiles 0 (i.segments.map (·.span)) i.total := by
  rw [segments, List.map_append]
  exact (Tiles.single (Nat.zero_le _)).append (Tiles.single (Nat.min_le_right ..))

/-- Recognized text comes first, and each kind at most once. -/
lemma recognition_segments (i : Issue) :
    (i.segments.map (·.recognition)).Sublist [.recognized, .rejected] := by
  have one {p : Prop} [Decidable p] (segment : Segment) :
      ((if p then [segment] else []).map (·.recognition)).Sublist [segment.recognition] := by
    split
    · exact .refl _
    · exact List.nil_sublist _
  rw [segments, List.map_append]
  exact (one _).append (one _)

/-- The segment that is rejected covers what the diagnostic is about. -/
lemma mem_segments_rejected :
    s ∈ i.segments ∧ s.recognition = .rejected ↔
      i.consumed < i.total ∧ s = ⟨i.rejected, .rejected⟩ := by
  have bound : min i.consumed i.total < i.total ↔ i.consumed < i.total := by omega
  rw [segments, List.mem_append]
  constructor
  · rintro ⟨mem | mem, rejected⟩
    · split at mem
      · cases List.mem_singleton.mp mem
        cases rejected
      · cases mem
    · split at mem
      case isTrue less =>
        cases List.mem_singleton.mp mem
        rw [Nat.min_eq_left (bound.mp less).le]
        exact ⟨bound.mp less, rfl⟩
      case isFalse => cases mem
  · rintro ⟨less, rfl⟩
    rw [if_pos (bound.mpr less), Nat.min_eq_left less.le]
    exact ⟨.inr List.mem_cons_self, rfl⟩

/-- Something is rejected if not everything was consumed. -/
lemma exists_rejected_iff :
    (∃ s ∈ i.segments, s.recognition = .rejected) ↔ i.consumed < i.total := by
  constructor
  · rintro ⟨s, mem, rejected⟩
    exact (mem_segments_rejected.mp ⟨mem, rejected⟩).1
  · intro less
    exact ⟨_, mem_segments_rejected.mpr ⟨less, rfl⟩⟩

/-- What is reported is on the rejected text. -/
lemma diagnostic?_eq_some {d : Diagnostic} (h : i.diagnostic? t = some d) :
    i.consumed < i.total ∧ d.range = t.rangeOf i.rejected := by
  obtain ⟨f, found, rfl⟩ := Option.map_eq_some_iff.mp h
  rw [finding?] at found
  split at found
  case isTrue less =>
    cases found
    exact ⟨less, rfl⟩
  case isFalse => cases found

/-- Rejected text is reported if there is some. -/
lemma diagnostic?_isSome_iff : (i.diagnostic? t).isSome = true ↔ i.consumed < i.total := by
  rw [diagnostic?, Option.isSome_map, finding?]
  split
  case isTrue less => exact iff_of_true rfl less
  case isFalse stop => exact iff_of_false Bool.false_ne_true stop

end Issue

/-- A text is what is recognized of it and what comes after that. -/
lemma exists_consumed (t : Text) :
    ∃ recognized rejected, t = recognized ++ rejected ∧
      (parse t).issue.consumed = Text.size recognized ∧ (parse t).issue.total = t.size := by
  rcases parse_cases t with ⟨x, w, r, _, eq, parsed⟩ | ⟨_, _, parsed⟩
  · refine ⟨x.text ++ w.text, r, ?_, ?_, ?_⟩
    · rw [eq, List.append_assoc]
    · rw [parsed, Text.size_append]
    · rw [parsed]
  · exact ⟨[], t, rfl, by rw [parsed]; rfl, by rw [parsed]⟩

/-- The segments of a text of which both parts are known. -/
lemma segments_eq {recognized rejected : Text} {i : Issue}
    (consumed : i.consumed = recognized.size)
    (total : i.total = Text.size (recognized ++ rejected)) :
    i.segments =
      (if recognized = [] then [] else [⟨⟨0, recognized.size⟩, .recognized⟩]) ++
      if rejected = [] then []
      else [⟨⟨recognized.size, recognized.size + rejected.size⟩, .rejected⟩] := by
  have positive (s : Text) : 0 < s.size ↔ ¬ s = [] := by
    rw [Nat.pos_iff_ne_zero]
    exact not_congr ⟨Text.eq_nil_of_size_eq_zero, fun nil => nil ▸ rfl⟩
  rw [Text.size_append] at total
  rw [Issue.segments, consumed, total, Nat.min_eq_left (Nat.le_add_right ..)]
  simp only [Nat.lt_add_right_iff_pos, positive, ite_not]

section Parse

variable (t : Text)

/-- The segments of its own parse cut a text without loss. -/
lemma flatMap_slice_segments :
    (parse t).issue.segments.flatMap (fun s => t.slice s.span) = t := by
  obtain ⟨recognized, rejected, rfl, consumed, total⟩ := exists_consumed t
  rw [segments_eq consumed total, List.flatMap_append]
  congr 1
  · split
    case isTrue none => exact none.symm
    case isFalse => simp [Text.slice_left]
  · split
    case isTrue none => exact none.symm
    case isFalse => simp [Text.slice_right]

/-- The segments of its own parse cut no character of a text. -/
lemma isBoundary_segments :
    ∀ s ∈ (parse t).issue.segments, t.IsBoundary s.span.start ∧ t.IsBoundary s.span.stop := by
  obtain ⟨recognized, rejected, rfl, consumed, total⟩ := exists_consumed t
  rw [segments_eq consumed total]
  have start : Text.IsBoundary (recognized ++ rejected) 0 := ⟨[], List.nil_prefix, rfl⟩
  have cut := Text.isBoundary_append recognized rejected
  have stop : Text.IsBoundary (recognized ++ rejected) (recognized.size + rejected.size) :=
    ⟨_, List.prefix_rfl, Text.size_append ..⟩
  refine List.forall_mem_append.mpr ⟨?_, ?_⟩
  · split
    · exact List.forall_mem_nil _
    · exact List.forall_mem_singleton.mpr ⟨start, cut⟩
  · split
    · exact List.forall_mem_nil _
    · exact List.forall_mem_singleton.mpr ⟨cut, stop⟩

variable {t}

/-- Some of a text that is not empty is left unless it is an expression as a whole. -/
lemma consumed_lt_total_iff (some : t ≠ []) :
    (parse t).issue.consumed < (parse t).issue.total ↔ (parse t).issue.isComplete = false := by
  constructor
  · intro less
    rw [Bool.eq_false_iff]
    intro complete
    have all := (Bool.and_eq_true_iff.mp complete).2
    exact less.ne (beq_iff_eq.mp all)
  · intro incomplete
    exact Issue.diagnostic?_isSome_iff.mp (diagnostic?_isSome incomplete some)

end Parse

/-- Whatever an issue says, its segments tile the whole of what there is to read, what is recognized
before what is rejected.  There is a diagnostic exactly if something is rejected, and it is on what
the rejected segment covers.  For the issue of a text, the segments begin and end between characters
and together they are the text, and they recognize all of it exactly if it is empty or an expression
as a whole. -/
theorem segments_agree (t : Text) (i : Issue) :
    Tiles 0 (i.segments.map (·.span)) i.total ∧
    (i.segments.map (·.recognition)).Sublist [.recognized, .rejected] ∧
    ((i.diagnostic? t).isSome = true ↔ ∃ s ∈ i.segments, s.recognition = .rejected) ∧
    (∀ d s, i.diagnostic? t = some d → s ∈ i.segments → s.recognition = .rejected →
      d.range = t.rangeOf s.span) ∧
    (∀ s ∈ (parse t).issue.segments, t.IsBoundary s.span.start ∧ t.IsBoundary s.span.stop) ∧
    (parse t).issue.segments.flatMap (fun s => t.slice s.span) = t ∧
    (t ≠ [] → ((∀ s ∈ (parse t).issue.segments, s.recognition ≠ .rejected) ↔
      (parse t).issue.isComplete = true)) := by
  refine ⟨i.tiles_segments, i.recognition_segments, ?_, ?_, isBoundary_segments t,
    flatMap_slice_segments t, ?_⟩
  · rw [Issue.diagnostic?_isSome_iff, Issue.exists_rejected_iff]
  · intro d s found mem rejected
    obtain ⟨_, rfl⟩ := Issue.mem_segments_rejected.mp ⟨mem, rejected⟩
    exact (Issue.diagnostic?_eq_some found).2
  · intro some
    have none : (∀ s ∈ (parse t).issue.segments, s.recognition ≠ .rejected) ↔
        ¬ (parse t).issue.consumed < (parse t).issue.total := by
      rw [← Issue.exists_rejected_iff]
      simp only [not_exists, not_and, ne_eq]
    rw [none, consumed_lt_total_iff some, Bool.not_eq_false]

end Reckoner
