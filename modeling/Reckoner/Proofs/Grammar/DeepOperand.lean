import Reckoner.Proofs.Grammar.Longest

/-!
# The operand that is one too deep

Depth is checked before the spaces in front of an operand are skipped.  So the offset that is
reported for an operand that is one too deep is where the opener before it stops, and the report
covers the character that stands there: the first of the spaces before the operand, and the first
character of the operand only where there are none (`report_tooDeep`).
-/

namespace Reckoner

open Grammar

variable {t s r : Text} {o : Nat} {ch : Char} {w : Blanks}

/-- An opener that stops at `o` leaves `maxDepth` operands open, and what comes in place of one more
begins with the character `ch`, after the spaces `w`. -/
structure OneTooDeep (t : Text) (o : Nat) (w : Blanks) (ch : Char) : Prop where
  opens : OpensAt t maxDepth o
  comes : ∃ r, t.dropBytes? o = some (w.text ++ ch :: r)
  visible : isSpace ch = false

/-- A text that does not consist of spaces begins with its spaces and a character after them. -/
lemma exists_front (mem : ch ∈ s) (visible : isSpace ch = false) :
    ∃ c r, s = (Run.front isSpace s).text ++ c :: r ∧ isSpace c = false := by
  have some : s.dropWhile isSpace ≠ [] := by
    rw [ne_eq, List.dropWhile_eq_nil_iff]
    intro all
    cases visible.symm.trans (all ch mem)
  obtain ⟨c, r, rest⟩ := List.exists_cons_of_ne_nil some
  have stops := List.head?_dropWhile_not isSpace s
  rw [rest] at stops
  refine ⟨c, r, ?_, stops⟩
  rw [← rest]
  exact List.takeWhile_append_dropWhile.symm

/-- Where an operand is too deep and something visible comes later, it comes after spaces. -/
lemma exists_oneTooDeep (h : (parse t).issue.tooDeepAt = some o) (eq : t = s ++ ch :: r)
    (after : o ≤ s.size) (visible : isSpace ch = false) : ∃ w c, OneTooDeep t o w c := by
  obtain ⟨x, u, front, rfl, begins, opens⟩ := opensAt_of_tooDeepAt h
  obtain ⟨m, rfl⟩ := Text.prefix_of_size_le front ⟨ch :: r, eq.symm⟩ after
  have mem : ch ∈ m ++ ch :: r := List.mem_append_right _ List.mem_cons_self
  obtain ⟨c, v, rest, first⟩ := exists_front mem visible
  have dropped : t.dropBytes? u.size = some (m ++ ch :: r) := by
    rw [eq, List.append_assoc, Text.dropBytes?_size_append]
  rw [rest] at dropped
  exact ⟨_, c, ⟨x, u, front, rfl, begins, opens⟩, ⟨v, dropped⟩, first⟩

/-- The finding covers the character that stands where the opener stops. -/
lemma OneTooDeep.finding (h : OneTooDeep t o w ch) :
    tooDeepFinding t o = ⟨.tooDeep, .ofChar o (w.text.head?.getD ch)⟩ := by
  obtain ⟨r, comes⟩ := h.comes
  rw [tooDeepFinding, comes]
  cases w.text with
  | nil => rfl
  | cons c v => rfl

/-- The character that is reported is the operand's own where no spaces stand before it. -/
lemma OneTooDeep.isSpace_first (h : OneTooDeep t o w ch) :
    isSpace (w.text.head?.getD ch) = false ↔ w.text = [] := by
  obtain ⟨v, all⟩ := w
  cases v with
  | nil => exact iff_of_true h.visible rfl
  | cons c v =>
    have space : isSpace c = true := all c List.mem_cons_self
    exact iff_of_false (ne_false_of_eq_true space) (List.cons_ne_nil c v)

/-- If an operand is too deep at `o` and something visible comes from there on, one diagnostic is
added to the structural ones: on the first of the spaces before the operand, or on the operand's
first character if there are none. -/
theorem report_tooDeep (h : (parse t).issue.tooDeepAt = some o) (eq : t = s ++ ch :: r)
    (after : o ≤ s.size) (visible : isSpace ch = false) :
    ∃ (w : Blanks) (c : Char),
      OneTooDeep t o w c ∧
      (analyze t).errors = (Structure.findings t).map (·.diagnostic t) ++
        [.ofSpan t (.ofChar o (w.text.head?.getD c)) "expression nested too deeply"] ∧
      (isSpace (w.text.head?.getD c) = false ↔ w.text = []) := by
  obtain ⟨w, c, deep⟩ := exists_oneTooDeep h eq after visible
  obtain ⟨_, _, analyzed⟩ := analyze_tooDeep h
  refine ⟨w, c, deep, ?_, deep.isSpace_first⟩
  rw [analyzed, List.map_append, deep.finding]
  rfl

/-- After `maxDepth` signs the line end before a digit is in the place of the operand. -/
theorem report_tooDeep_signs :
    ∃ (w : Blanks) (c : Char),
      OneTooDeep (List.replicate 32 '-' ++ ['\n', '5']) 32 w c ∧
      (isSpace (w.text.head?.getD c) = false ↔ w.text = []) := by
  have deep : (parse (List.replicate 32 '-' ++ ['\n', '5'])).issue.tooDeepAt = some 32 := by
    decide +kernel
  have split : List.replicate 32 '-' ++ ['\n', '5'] = (List.replicate 32 '-' ++ ['\n']) ++ ['5'] :=
    rfl
  obtain ⟨w, c, found, _, first⟩ := report_tooDeep deep split (by decide) rfl
  exact ⟨w, c, found, first⟩

/-- What stands at the reported offset may be a space. -/
theorem tooDeepAt_space :
    ¬ ∀ (t : Text) (o : Nat),
      (parse t).issue.tooDeepAt = some o →
      (∃ (s : Text) (ch : Char) (r : Text), t = s ++ ch :: r ∧ o ≤ s.size ∧ isSpace ch = false) →
      ∃ (s : Text) (ch : Char) (r : Text), t = s ++ ch :: r ∧ s.size = o ∧ isSpace ch = false := by
  intro always
  have deep : (parse (List.replicate 32 '-' ++ [' ', '1'])).issue.tooDeepAt = some 32 := by
    decide +kernel
  obtain ⟨s, ch, r, eq, size, visible⟩ := always _ _ deep
    ⟨List.replicate 32 '-' ++ [' '], '1', [], rfl, by decide, rfl⟩
  have found := Text.dropBytes?_size_append s (ch :: r)
  rw [← eq, size] at found
  have space : Text.dropBytes? 32 (List.replicate 32 '-' ++ [' ', '1']) = some [' ', '1'] := rfl
  cases space.symm.trans found
  cases visible

end Reckoner
