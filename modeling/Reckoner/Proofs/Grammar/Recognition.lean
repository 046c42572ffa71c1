import Reckoner.Grammar.Outcome
import Reckoner.Proofs.Grammar.Completeness

/-!
# What is recognized

The outcome of reading a whole text, in terms of derivations.  A recognized front is the text of a
derivation with the spaces after it (`parse_cases`).  A derived text at the front is recognized
where it is not read any further, if less than `maxDepth` signs, calls and parentheses stand around
its operands (`parse_front`), so every such text is recognized as a whole (`parse_derived`):
recognized as a whole means derived.
-/

namespace Reckoner

namespace Text

/-- Only the empty text has no bytes. -/
lemma eq_nil_of_size_eq_zero {t : Text} (h : t.size = 0) : t = [] := by
  cases t with
  | nil => rfl
  | cons c t =>
    have := c.utf8Size_pos
    rw [size_cons] at h
    omega

end Text

namespace Grammar

/-- Some operand may be opened. -/
lemma maxDepth_pos : 0 < maxDepth := Nat.succ_pos 31

/-- What is read as an expression is a derived sum. -/
theorem expressionAt_sound (depth : Nat) :
    Sound (expressionAt depth) (.chain .sum) (maxDepth - depth) :=
  expression_sound (operand_sound (maxDepth - depth))

end Grammar

open Grammar

variable {t : Text}

/-- The issue of a parse counts all bytes of the text. -/
lemma total_parse (t : Text) : (parse t).issue.total = t.size := by
  rw [parse]
  split <;> rfl

/-- Reading succeeds on a derived text with spaces after it, or it comes to a refusal. -/
theorem parse_cases (t : Text) :
    (∃ (x : Derivation (.chain .sum)) (w : Blanks) (r : Text),
      x.nesting < maxDepth ∧
      t = x.text ++ (w.text ++ r) ∧
      parse t = ⟨⟨true, x.text.size + w.text.size, t.size, [], none⟩, some (x.tree 0)⟩) ∨
    (∃ refusal : Refusal,
      (expressionAt 0).read (.start t 0) = .error refusal ∧
      parse t = ⟨⟨false, 0, t.size, refusal.expected, refusal.tooDeepAt?⟩, none⟩) := by
  cases h : (expressionAt 0).read (.start t 0) with
  | error refusal => exact .inr ⟨refusal, rfl, by rw [parse, h]⟩
  | ok result =>
    obtain ⟨root, d⟩ := result
    obtain ⟨x, nx, pass, rfl⟩ := expressionAt_sound 0 h
    have skip := d.passes_skipSpaces
    refine .inl ⟨x, .front isSpace d.rest, d.skipSpaces.rest, nx, ?_, ?_⟩
    · exact (pass.trans skip).rest.trans (List.append_assoc ..)
    · have consumed := (pass.trans skip).offset
      rw [Text.size_append, Cursor.start, Nat.zero_add] at consumed
      simp only [parse, h, consumed]
      rfl

/-- A derived text with spaces after it is recognized where it is not read any further. -/
theorem parse_front {x : Derivation (.chain .sum)} {w : Blanks} {r : Text}
    (nx : x.nesting < maxDepth) (eq : t = x.text ++ (w.text ++ r))
    (halts : Halts (.chain .sum) maxDepth ⟨w.text ++ r, x.text.size, 0⟩)
    (visible : ∀ ch ∈ r.head?, isSpace ch = false) :
    parse t = ⟨⟨true, x.text.size + w.text.size, t.size, [], none⟩, some (x.tree 0)⟩ := by
  let d : Cursor := ⟨w.text ++ r, x.text.size, 0⟩
  have pass : (Cursor.start t 0).Passes x.text d := ⟨eq, (Nat.zero_add _).symm, rfl⟩
  have skip : d.skipSpaces = ⟨r, x.text.size + w.text.size, 0⟩ :=
    Cursor.Passes.skipSpaces (w := w) ⟨rfl, rfl, rfl⟩ visible
  have read : (expressionAt 0).read (.start t 0) = .ok (x.tree 0, d) :=
    Reader.labelled_ok.mpr (derivation_reads x nx pass halts)
  simp only [parse, read, skip]

/-- A derived text with spaces after it is recognized as a whole. -/
theorem parse_derived {x : Derivation (.chain .sum)} {w : Blanks} (nx : x.nesting < maxDepth)
    (eq : t = x.text ++ w.text) :
    parse t = ⟨⟨true, t.size, t.size, [], none⟩, some (x.tree 0)⟩ := by
  have ends : Ends (.chain .sum) ⟨w.text ++ [], x.text.size, 0⟩ :=
    ends_of_blanks (w := w) (List.append_nil _)
  rw [parse_front (r := []) nx (by rwa [List.append_nil]) ends.halts nofun, ← Text.size_append,
    ← eq]

/-- A text that is recognized as a whole is derived, spaces at its end aside. -/
theorem derived_of_isComplete (complete : (parse t).issue.isComplete = true) :
    ∃ (x : Derivation (.chain .sum)) (w : Blanks), x.nesting < maxDepth ∧ t = x.text ++ w.text := by
  rcases parse_cases t with ⟨x, w, r, nx, eq, parsed⟩ | ⟨_, _, parsed⟩
  · have whole : x.text.size + w.text.size = t.size := by
      simpa [parsed, Issue.isComplete] using complete
    have nothing : r = [] := by
      apply Text.eq_nil_of_size_eq_zero
      rw [eq, Text.size_append, Text.size_append] at whole
      omega
    exact ⟨x, w, nx, by rw [eq, nothing, List.append_nil]⟩
  · rw [parsed] at complete
    cases complete

/-- A text is an expression as a whole exactly when it is derived, spaces at its end aside, with at
most `maxDepth - 1` signs, calls and parentheses around an operand. -/
theorem isComplete_parse_iff (t : Text) :
    (parse t).issue.isComplete = true ↔
      ∃ (x : Derivation (.chain .sum)) (w : Blanks),
        x.nesting ≤ maxDepth - 1 ∧ t = x.text ++ w.text := by
  constructor
  · intro complete
    obtain ⟨x, w, nx, eq⟩ := derived_of_isComplete complete
    exact ⟨x, w, Nat.le_sub_one_of_lt nx, eq⟩
  · rintro ⟨x, w, nx, eq⟩
    rw [parse_derived (Nat.lt_of_le_sub_one maxDepth_pos nx) eq]
    simp [Issue.isComplete]

end Reckoner
