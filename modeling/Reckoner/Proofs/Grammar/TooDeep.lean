import Mathlib.Order.Bounds.Defs
import Reckoner.Analysis
import Reckoner.Proofs.Grammar.Overflow
import Reckoner.Proofs.Grammar.Recognition
import Reckoner.Proofs.Grammar.Refused
import Reckoner.Proofs.Structure.Scan

/-!
# Nested too deeply

A text is refused for its nesting where, for the first time, an opener leaves `maxDepth` operands
open (`tooDeepAt_parse_iff`).  No bound is put on the sentences that the text may begin, and it does
not matter whether an expression stands at its front: it is refused as a whole, with one report on
its nesting.
-/

namespace Reckoner

open Grammar

variable {t : Text} {n o : Nat}

/-- Up to the offset `o` the text begins a sentence, however deep that nests, and it stops there
after an opener with `n` operands open. -/
def OpensAt (t : Text) (n o : Nat) : Prop :=
  ∃ (x : Derivation (.chain .sum)) (s : Text), s <+: t ∧ s.size = o ∧ s <+: x.text ∧ x.Opens s n

/-- Reading stops at an opener that leaves too many operands open, if not before. -/
lemma tooDeepAt_of_opensAt (h : OpensAt t maxDepth o) :
    ∃ k ≤ o, (parse t).issue.tooDeepAt = some k := by
  obtain ⟨x, s, ⟨r, rfl⟩, rfl, _, opens⟩ := h
  have pass : (Cursor.start (s ++ r) 0).Passes s ⟨r, s.size, 0⟩ :=
    ⟨rfl, (Nat.zero_add _).symm, rfl⟩
  have stops := passage_stops opens le_rfl pass
  rw [Category.passage, stopsBy_map] at stops
  have whole : StopsBy ((expressionAt 0).read (.start (s ++ r) 0)) s.size :=
    Reader.labelled_stops stops
  obtain ⟨refusal, k, error, stops, le⟩ := whole
  refine ⟨k, le, ?_⟩
  rw [parse, error]
  exact stops.deep

/-- Where reading stops for good, an opener leaves too many operands open. -/
lemma opensAt_of_tooDeepAt (h : (parse t).issue.tooDeepAt = some o) : OpensAt t maxDepth o := by
  rcases parse_cases t with ⟨_, _, _, _, _, parsed⟩ | ⟨refusal, error, parsed⟩
  · rw [parsed] at h
    cases h
  rw [parsed] at h
  cases expression_accounts (operand_sound maxDepth) (operand_accounts maxDepth) error with
  | yields yields => cases yields.shallow.symm.trans h
  | closed none => cases none
  | @opened x s d opens pass stops =>
    cases stops.deep.symm.trans h
    have offset := pass.offset
    rw [Cursor.start, Nat.zero_add] at offset
    exact ⟨x, s, ⟨d.rest, pass.rest.symm⟩, offset.symm, opens.isPrefix, opens⟩

/-- A text that is nested too deeply is refused as a whole, and it is analyzed no further. -/
lemma analyze_tooDeep (h : (parse t).issue.tooDeepAt = some o) :
    ∃ expected,
      parse t = ⟨⟨false, 0, t.size, expected, some o⟩, none⟩ ∧
      analyze t =
        ⟨(Structure.findings t ++ [tooDeepFinding t o]).map (·.diagnostic t), none, none⟩ := by
  rcases parse_cases t with ⟨_, _, _, _, _, parsed⟩ | ⟨refusal, _, parsed⟩
  · rw [parsed] at h
    cases h
  rw [parsed] at h
  replace h : refusal.tooDeepAt? = some o := h
  rw [h] at parsed
  exact ⟨_, parsed, by rw [analyze, parsed]; rfl⟩

/-- The finding on an operand that is too deep says so. -/
lemma tooDeepFinding_fault : (tooDeepFinding t o).fault = .tooDeep := by
  rw [tooDeepFinding]
  split <;> rfl

/-- The report on the nesting is made once: no structural finding reads like it. -/
lemma count_tooDeep :
    (((Structure.findings t ++ [tooDeepFinding t o]).map (·.diagnostic t)).map (·.message)).count
      Fault.tooDeep.message = 1 := by
  rw [List.map_map, List.map_append, List.count_append]
  have none : Fault.tooDeep.message ∉
      (Structure.findings t).map ((·.message) ∘ (·.diagnostic t)) := by
    intro mem
    obtain ⟨f, found, same⟩ := List.mem_map.mp mem
    have longer := Structure.length_message found
    rw [← same] at longer
    exact Nat.lt_irrefl _ longer
  rw [List.count_eq_zero_of_not_mem none, Nat.zero_add]
  have one : ((tooDeepFinding t o).diagnostic t).message = Fault.tooDeep.message := by
    rw [Finding.diagnostic, tooDeepFinding_fault]
    rfl
  simp [one]

/-- Reading stops for good exactly at the first opener after which `maxDepth` operands are open; the
text has no tree, no expression and no value then, and one report on its nesting. -/
theorem tooDeepAt_parse_iff (t : Text) (o : Nat) :
    ((parse t).issue.tooDeepAt = some o ↔ IsLeast {k | OpensAt t maxDepth k} o) ∧
    ((parse t).issue.tooDeepAt = some o →
      (parse t).issue.succeeded = false ∧ (parse t).issue.consumed = 0 ∧ (parse t).root = none ∧
      (analyze t).ast = none ∧ (analyze t).value = none ∧
      ((analyze t).errors.map (·.message)).count "expression nested too deeply" = 1) := by
  constructor
  · constructor
    · intro h
      refine ⟨opensAt_of_tooDeepAt h, fun k opens => ?_⟩
      obtain ⟨first, le, found⟩ := tooDeepAt_of_opensAt opens
      cases h.symm.trans found
      exact le
    · rintro ⟨opens, least⟩
      obtain ⟨first, le, found⟩ := tooDeepAt_of_opensAt opens
      rw [found, Nat.le_antisymm le (least (opensAt_of_tooDeepAt found))]
  · intro h
    obtain ⟨expected, parsed, analyzed⟩ := analyze_tooDeep h
    rw [parsed, analyzed]
    exact ⟨rfl, rfl, rfl, rfl, rfl, count_tooDeep⟩

/-- An expression at the front does not save a text from being refused: after `1+` and `maxDepth`
parentheses too many operands are open. -/
theorem tooDeepAt_parse_iff_parens :
    (parse (['1', '+'] ++ List.replicate 32 '(')).issue.succeeded = false ∧
    IsLeast {k | OpensAt (['1', '+'] ++ List.replicate 32 '(') maxDepth k} 34 := by
  have h : (parse (['1', '+'] ++ List.replicate 32 '(')).issue.tooDeepAt = some 34 := by
    decide +kernel
  have stops := tooDeepAt_parse_iff (['1', '+'] ++ List.replicate 32 '(') 34
  exact ⟨(stops.2 h).1, stops.1.mp h⟩

end Reckoner
