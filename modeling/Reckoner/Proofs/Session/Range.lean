import Reckoner.Proofs.Grammar.TooDeep
import Reckoner.Proofs.Session.Reports

/-!
# Where diagnostics point

Every published diagnostic points at whole characters of the text, and at one of them at least; only
an operand that is nested too deeply may be missing, at the end of the text.
-/

namespace Reckoner

open Grammar Structure

variable {t m : Text} {f : Finding} {fs : List Finding} {o : Nat}

/-- An operand that is nested too deeply begins with a character, or the text ends before it. -/
lemma onPart_tooDeepFinding (h : (parse t).issue.tooDeepAt = some o) :
    (∃ c : Char, (tooDeepFinding t o).OnPart t [c]) ∨
    o = t.size ∧ tooDeepFinding t o = ⟨.tooDeep, ⟨t.size, t.size⟩⟩ := by
  obtain ⟨x, s, ⟨r, rfl⟩, rfl, _⟩ := opensAt_of_tooDeepAt h
  rw [tooDeepFinding, Text.dropBytes?_size_append]
  cases r with
  | nil => exact .inr (by simp)
  | cons c r => exact .inl ⟨c, s, r, rfl, rfl⟩

/-- What is reported is on some characters of the text, or on what is missing at its end. -/
lemma Reported.onPart (h : Reported t fs) : ∀ f ∈ fs,
    (∃ m ≠ [], f.OnPart t m) ∨
    (parse t).issue.tooDeepAt = some t.size ∧ f = ⟨.tooDeep, ⟨t.size, t.size⟩⟩ := by
  intro f mem
  cases h with
  | evaluated nx eq => exact .inl (onPart_of_mem_eval eq mem)
  | rejected incomplete =>
    rw [Analysis.preliminary, List.mem_append, List.mem_append] at mem
    rcases mem with rejected | found | deep
    · exact .inl (onPart_finding? (Option.mem_toList.mp rejected))
    · obtain ⟨c, on⟩ := onPart_of_mem_findings found
      exact .inl ⟨[c], List.cons_ne_nil _ _, on⟩
    · obtain ⟨o, too, rfl⟩ := Option.map_eq_some_iff.mp (Option.mem_toList.mp deep)
      rcases onPart_tooDeepFinding too with ⟨c, on⟩ | ⟨rfl, missing⟩
      · exact .inl ⟨[c], List.cons_ne_nil _ _, on⟩
      · exact .inr ⟨too, missing⟩

/-- A range of a text that goes from one boundary to another, none of them behind the end. -/
structure Range.Within (r : Range) (t : Text) : Prop where
  ordered : r.start ≤ r.stop
  inside : r.stop ≤ t.positionAt t.size
  start : ∃ a, t.IsBoundary a ∧ t.positionAt a = r.start ∧ t.offsetOf? r.start = some a
  stop : ∃ b, t.IsBoundary b ∧ t.positionAt b = r.stop ∧ t.offsetOf? r.stop = some b

/-- What is found on a part of a text is reported within the text. -/
lemma Finding.OnPart.within (h : f.OnPart t m) :
    (f.diagnostic t).range.Within t ∧
      (m ≠ [] → (f.diagnostic t).range.start < (f.diagnostic t).range.stop) := by
  obtain ⟨start, stop⟩ := h.boundaries
  obtain ⟨u, v, rfl, range⟩ := h.range
  refine ⟨⟨?_, ?_, ⟨_, start, rfl, Text.offsetOf?_positionAt start⟩,
    ⟨_, stop, rfl, Text.offsetOf?_positionAt stop⟩⟩, ?_⟩
  · rw [range]
    exact Position.le_after _ m
  · have whole := Text.positionAt_size_append (u ++ (m ++ v)) []
    rw [List.append_nil, Position.after_append, Position.after_append] at whole
    rw [range, whole]
    exact Position.le_after _ v
  · rw [range]
    exact Position.lt_after _

/-- However a text comes into a session, every diagnostic that is published for it ranges from one
boundary of the text to a later one; only the report on an operand that is nested too deeply may
stand at the end of the text and cover nothing. -/
theorem published_within (s : Session) {uri : String} {t : Text} {request : Request}
    (gives : request.Gives uri t) :
    ∃ ps : List Publication, (s.handle request).reply = .published ps ∧
      ∀ p ∈ ps,
        p.diagnostic.range.Within t ∧
        (p.diagnostic.range.start < p.diagnostic.range.stop ∨
          (parse t).issue.tooDeepAt = some t.size ∧
          p.diagnostic = ⟨⟨t.positionAt t.size, t.positionAt t.size⟩,
            "expression nested too deeply"⟩) := by
  obtain ⟨fs, reported, published⟩ := exists_reported s gives
  refine ⟨_, published, fun p mem => ?_⟩
  obtain ⟨f, found, rfl⟩ := List.mem_map.mp mem
  rcases reported.onPart f found with ⟨m, some, on⟩ | ⟨too, rfl⟩
  · exact ⟨on.within.1, .inl (on.within.2 some)⟩
  · have on : Finding.OnPart ⟨.tooDeep, ⟨t.size, t.size⟩⟩ t [] := ⟨t, [], by simp, rfl⟩
    exact ⟨on.within.1, .inr ⟨too, rfl⟩⟩

/-- For `é` and a closing parenthesis on the next line two diagnostics are published, and both cover
something. -/
theorem published_within_lines :
    ∃ ps : List Publication,
      (Session.empty.handle (.openText "memo" ['é', '\n', ')'])).reply = .published ps ∧
      ps.length = 2 ∧
      ∀ p ∈ ps, p.diagnostic.range.Within ['é', '\n', ')'] ∧
        p.diagnostic.range.start < p.diagnostic.range.stop := by
  have shallow : (parse ['é', '\n', ')']).issue.tooDeepAt = none := by decide +kernel
  have two : (Document.ofText "memo" ['é', '\n', ')']).publications.length = 2 := by
    decide +kernel
  obtain ⟨ps, published, points⟩ :=
    published_within .empty (.openText : Request.Gives "memo" ['é', '\n', ')'] _)
  refine ⟨ps, published, ?_, fun p mem => ⟨(points p mem).1, ?_⟩⟩
  · cases published
    exact two
  · rcases (points p mem).2 with visible | ⟨too, _⟩
    · exact visible
    · cases shallow.symm.trans too

end Reckoner
