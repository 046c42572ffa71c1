import Reckoner.Proofs.View.Agreement

/-!
# Colours that are out of date

The editor colours its text with the segments of the last analysis, which may be that of another
text.  A segment may then leave the text or cut a character, and it colours nothing.  The segments
that do colour something follow each other from the start of the text (`Joined`), and the rest comes
after them, so that the editor shows its text whatever the segments are.
-/

namespace Reckoner

namespace Text

variable {t u v r : Text}

/-- A text is cut in two where a part of it ends, and nowhere else. -/
lemma cut_or_none (k : Nat) (t : Text) :
    (∃ u r : Text, t = u ++ r ∧ u.size = k) ∨ takeBytes? k t = none ∧ dropBytes? k t = none := by
  induction t generalizing k with
  | nil =>
    cases k with
    | zero => exact .inl ⟨[], [], rfl, rfl⟩
    | succ k => exact .inr ⟨rfl, rfl⟩
  | cons c t ih =>
    cases k with
    | zero => exact .inl ⟨[], c :: t, rfl, rfl⟩
    | succ k =>
      by_cases fits : c.utf8Size ≤ k + 1
      · rcases ih (k + 1 - c.utf8Size) with ⟨u, r, rfl, size⟩ | ⟨before, after⟩
        · exact .inl ⟨c :: u, r, rfl, by rw [size_cons, size]; omega⟩
        · exact .inr ⟨by simp [takeBytes?, before], by simp [dropBytes?, after]⟩
      · exact .inr ⟨if_neg fits, if_neg fits⟩

/-- The parts of a text are where they are by their size. -/
lemma append_inj_of_size (eq : u ++ r = t ++ v) (same : u.size = t.size) : u = t ∧ r = v := by
  have front := takeBytes?_size_append u r
  rw [eq, same, takeBytes?_size_append] at front
  cases front
  exact ⟨rfl, List.append_cancel_left eq⟩

/-- What a span covers is a part of the text there, if it covers anything. -/
lemma slice_eq_nil_or (t : Text) (span : Span) :
    t.slice span = [] ∨
    ∃ u v, t = u ++ (t.slice span ++ v) ∧ span = ⟨u.size, u.size + (t.slice span).size⟩ := by
  obtain ⟨start, stop⟩ := span
  rw [slice]
  split
  case isFalse => exact .inl rfl
  case isTrue ordered =>
    rcases cut_or_none start t with ⟨u, r, rfl, rfl⟩ | ⟨_, none⟩
    · rw [dropBytes?_size_append, Option.bind_some]
      rcases cut_or_none (stop - u.size) r with ⟨m, v, rfl, size⟩ | ⟨none, _⟩
      · rw [← size, takeBytes?_size_append, Option.getD_some]
        refine .inr ⟨u, v, rfl, ?_⟩
        rw [size, Nat.add_sub_cancel' ordered]
      · exact .inl (by rw [none]; rfl)
    · exact .inl (by rw [none]; rfl)

end Text

namespace View

/-- From offset `start` on, the segments that colour something of a text follow each other up to
offset `stop`. -/
inductive Joined (t : Text) : (start : Nat) → List Segment → (stop : Nat) → Prop where
  | nil {start} : Joined t start [] start
  | stale {start segment others stop} (misfit : t.slice segment.span = []) :
    Joined t start others stop →
    Joined t start (segment :: others) stop
  | next {start segment others stop} (fits : t.slice segment.span ≠ [])
    (follows : segment.span.start = start) :
    Joined t segment.span.stop others stop →
    Joined t start (segment :: others) stop

variable {t u v : Text} {start stop : Nat} {segments : List Segment}

/-- Segments that are joined cover all up to their end. -/
lemma Joined.covered (h : Joined t start segments stop) :
    segments.foldl (fun covered segment =>
      if (t.slice segment.span).isEmpty then covered else segment.span.stop) start = stop := by
  induction h with
  | nil => rfl
  | stale misfit _ ih =>
    rw [List.foldl_cons, misfit]
    exact ih
  | next fits _ _ ih =>
    rw [← List.isEmpty_eq_false_iff] at fits
    rw [List.foldl_cons, fits]
    exact ih

/-- Joined segments colour the text from where they begin to where they end. -/
lemma Joined.exists_rest (h : Joined t start segments stop) (front : t = u ++ v)
    (begins : u.size = start) :
    ∃ m r, t = u ++ (m ++ r) ∧ segments.flatMap (fun segment => t.slice segment.span) = m ∧
      Text.size (u ++ m) = stop := by
  induction h generalizing u v with
  | nil => exact ⟨[], v, front, rfl, by rw [List.append_nil, begins]⟩
  | stale misfit _ ih =>
    rw [List.flatMap_cons, misfit]
    exact ih front begins
  | @next start segment others _ fits follows _ ih =>
    obtain ⟨w, r, eq, span⟩ := (t.slice_eq_nil_or segment.span).resolve_left fits
    have same : u.size = w.size := (begins.trans follows.symm).trans (congrArg Span.start span)
    obtain ⟨rfl, rfl⟩ := Text.append_inj_of_size (front.symm.trans eq) same
    have stop : Text.size (u ++ t.slice segment.span) = segment.span.stop := by
      rw [Text.size_append]
      exact (congrArg Span.stop span).symm
    obtain ⟨m, rest, eq, pieces, size⟩ := ih (by rw [List.append_assoc]; exact eq) stop
    refine ⟨t.slice segment.span ++ m, rest, ?_, ?_, ?_⟩
    · rw [List.append_assoc, ← List.append_assoc]
      exact eq
    · rw [List.flatMap_cons, pieces]
    · rw [← List.append_assoc]
      exact size

/-- Sections without text add nothing to the text of all. -/
lemma flatMap_filter_text (pieces : List Section) :
    (pieces.filter fun piece => !piece.text.isEmpty).flatMap Section.text =
      pieces.flatMap Section.text := by
  induction pieces with
  | nil => rfl
  | cons piece pieces ih =>
    obtain ⟨s, recognition⟩ := piece
    cases s with
    | nil => exact ih
    | cons c s => exact congrArg ((c :: s) ++ ·) ih

/-- A text in the colours of segments that are joined from its start on is the text. -/
lemma Joined.colour (h : Joined t 0 segments stop) :
    (colour t segments).flatMap Section.text = t := by
  obtain ⟨m, r, eq, pieces, size⟩ := h.exists_rest (u := []) rfl rfl
  have rest : t.dropBytes? stop = some r := by
    rw [eq, ← size]
    exact Text.dropBytes?_size_append m r
  simp only [View.colour, flatMap_filter_text, List.flatMap_append, List.flatMap_map, pieces,
    h.covered, rest]
  simpa using eq.symm

/-- The segments of any issue are joined in any text. -/
lemma joined_segments (t : Text) (i : Issue) : ∃ stop, Joined t 0 i.segments stop := by
  rw [Issue.segments]
  generalize min i.consumed i.total = bound
  have last (start : Nat) (only : start = bound ∨ t.slice ⟨bound, i.total⟩ = []) :
      ∃ stop, Joined t start (if bound < i.total then [⟨⟨bound, i.total⟩, .rejected⟩] else [])
        stop := by
    split
    case isFalse => exact ⟨start, .nil⟩
    case isTrue =>
      by_cases misfit : t.slice ⟨bound, i.total⟩ = []
      · exact ⟨start, .stale misfit .nil⟩
      · rw [only.resolve_right misfit]
        exact ⟨i.total, .next misfit rfl .nil⟩
  split
  case isFalse none => exact last 0 (.inl (Nat.eq_zero_of_not_pos none).symm)
  case isTrue some =>
    by_cases misfit : t.slice ⟨0, bound⟩ = []
    · -- where nothing can be cut off in front, nothing can be cut out behind either
      have behind : t.slice ⟨bound, i.total⟩ = [] := by
        refine (t.slice_eq_nil_or _).resolve_right ?_
        rintro ⟨u, v, eq, span⟩
        have size : u.size = bound := (congrArg Span.start span).symm
        have front := Text.slice_append [] u (t.slice ⟨bound, i.total⟩ ++ v)
        rw [List.nil_append, ← eq, Text.size_nil, Nat.zero_add, size, misfit] at front
        rw [← front] at size
        exact some.ne size
      obtain ⟨stop, joined⟩ := last 0 (.inr behind)
      exact ⟨stop, .stale misfit joined⟩
    · obtain ⟨stop, joined⟩ := last bound (.inl rfl)
      exact ⟨stop, .next misfit rfl joined⟩

/-- Whatever text an issue belongs to, an editor with its segments shows its own text, all of it and
once.  With the segments of its own text it shows what is recognized of that as recognized and what
is rejected as rejected. -/
theorem colour_segments_keeps (t : Text) :
    (∀ i : Issue, (colour t i.segments).flatMap Section.text = t) ∧
    ∃ recognized rejected : Text,
      t = recognized ++ rejected ∧
      recognized.size = (parse t).issue.consumed ∧
      colour t (parse t).issue.segments = sections recognized rejected := by
  constructor
  · intro i
    obtain ⟨_, joined⟩ := joined_segments t i
    exact joined.colour
  · obtain ⟨recognized, rejected, eq, consumed, shown⟩ := colour_segments t
    exact ⟨recognized, rejected, eq, consumed.symm, shown⟩

-- Both segments of the text `1)` would cut the character `é`.
example : colour ['é'] (parse ['1', ')']).issue.segments = [⟨['é'], .recognized⟩] := by
  decide +kernel

end View

end Reckoner
