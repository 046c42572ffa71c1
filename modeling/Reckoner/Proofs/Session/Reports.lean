import Reckoner.Proofs.Expr.Findings
import Reckoner.Proofs.Session.History
import Reckoner.Proofs.Structure.Agreement
import Reckoner.Proofs.Tree.Formed

/-!
# What is reported on a text

The findings that are published for a text have two sources (`Reported`).  In a text that is an
expression as a whole they come from its evaluation alone, each on a token of its own.  Any other
text is not evaluated: what is not recognized of it is reported, then what the checks on raw text
find, then an operand that is nested too deeply.
-/

namespace Reckoner

open Grammar Structure

variable {t u m v : Text} {f g : Finding} {fs : List Finding} {o : Nat}

/-- The finding is on the part `m` of a text. -/
def Finding.OnPart (f : Finding) (t m : Text) : Prop :=
  ∃ u v : Text, t = u ++ (m ++ v) ∧ f.span = ⟨u.size, u.size + m.size⟩

/-- What is published for a text. -/
inductive Reported (t : Text) : List Finding → Prop
  | evaluated {x : Derivation (.chain .sum)} {w : Blanks} (nx : x.nesting < maxDepth)
    (eq : t = x.text ++ w.text) : Reported t ((x.meaning default 0).eval t []).2
  | rejected (incomplete : (parse t).issue.isComplete = false) :
    Reported t ((parse t).issue.finding?.toList ++ Analysis.preliminary t (parse t).issue)

/-- The diagnostics of a document are those of what is reported on its text. -/
lemma reported_diagnostics (uri : String) (t : Text) :
    ∃ fs, Reported t fs ∧ (Document.ofText uri t).diagnostics = fs.map (·.diagnostic t) := by
  cases complete : (parse t).issue.isComplete with
  | true =>
    obtain ⟨x, w, nx, eq⟩ := derived_of_isComplete complete
    obtain ⟨_, _, analyzed⟩ := analyze_derived nx eq default
    refine ⟨_, .evaluated nx eq, ?_⟩
    rw [Document.diagnostics_ofText, analyzed, parse_derived nx eq]
    simp [Issue.diagnostic?, Issue.finding?]
  | false =>
    refine ⟨_, .rejected complete, ?_⟩
    rw [Document.diagnostics_ofText, analyze_incomplete complete, List.map_append,
      ← Option.toList_map]
    rfl

/-- Whoever gives a text to a document is answered the diagnostics of what is reported. -/
lemma exists_reported (s : Session) {uri : String} {request : Request}
    (gives : request.Gives uri t) :
    ∃ fs, Reported t fs ∧
      (s.handle request).reply = .published (fs.map fun f => .ofDiagnostic (f.diagnostic t)) := by
  obtain ⟨fs, reported, same⟩ := reported_diagnostics uri t
  refine ⟨fs, reported, ?_⟩
  rw [Session.reply_handle_gives gives, Document.publications, same, List.map_map]
  rfl

namespace Finding

/-- A finding on a character is on a part of the text. -/
lemma On.onPart (h : f.On 0 t) : ∃ c : Char, f.OnPart t [c] := by
  obtain ⟨before, c, after, rfl, span⟩ := h
  refine ⟨c, before, after, rfl, ?_⟩
  rw [span, Nat.zero_add]
  rfl

/-- A part is reported from its first character to its last. -/
lemma OnPart.range (h : f.OnPart t m) :
    ∃ u v : Text, t = u ++ (m ++ v) ∧ (f.diagnostic t).range =
      ⟨Position.origin.after u, (Position.origin.after u).after m⟩ := by
  obtain ⟨u, v, rfl, span⟩ := h
  refine ⟨u, v, rfl, ?_⟩
  change Text.rangeOf _ f.span = _
  rw [span, Text.rangeOf_append]

/-- A finding on a part cuts no character. -/
lemma OnPart.boundaries (h : f.OnPart t m) :
    t.IsBoundary f.span.start ∧ t.IsBoundary f.span.stop := by
  obtain ⟨u, v, rfl, span⟩ := h
  rw [span, ← Text.size_append]
  refine ⟨Text.isBoundary_append .., ?_⟩
  rw [← List.append_assoc]
  exact Text.isBoundary_append ..

/-- Findings on parts of a text that are shown in the same places are on the same part. -/
lemma OnPart.span_eq {k : Text} (hf : f.OnPart t m) (hg : g.OnPart t k)
    (same : (f.diagnostic t).range = (g.diagnostic t).range) : f.span = g.span := by
  obtain ⟨start, stop⟩ := Range.mk.inj same
  have starts := Text.positionAt_injective hf.boundaries.1 hg.boundaries.1 start
  have stops := Text.positionAt_injective hf.boundaries.2 hg.boundaries.2 stop
  cases f with
  | mk fault span =>
    obtain ⟨a, b⟩ := span
    cases starts
    cases stops
    rfl

end Finding

/-! Where the findings are. -/

/-- What the raw characters show is on one of them. -/
lemma onPart_of_mem_findings (h : f ∈ findings t) : ∃ c : Char, f.OnPart t [c] := by
  apply Finding.On.onPart
  rcases List.mem_append.mp h with unmatched | dangling
  · rcases mem_unmatchedFrom unmatched with ⟨_, none, _⟩ | on
    · cases none
    · exact on
  · exact mem_danglingFrom dangling

/-- What is not recognized is the rest of the text after what is. -/
lemma onPart_finding? (h : (parse t).issue.finding? = some f) : ∃ m ≠ [], f.OnPart t m := by
  obtain ⟨s, r, _, rfl, consumed, _⟩ := findings_recognized t
  simp only [Issue.finding?, Issue.rejected, ← consumed, total_parse, Text.size_append] at h
  split at h
  case isTrue less =>
    cases h
    refine ⟨r, ?_, s, [], by rw [List.append_nil], rfl⟩
    rintro rfl
    exact Nat.lt_irrefl _ less
  case isFalse => cases h

/-- What evaluation finds is on a token. -/
lemma onPart_of_mem_eval {x : Derivation (.chain .sum)} {w : Blanks} (eq : t = x.text ++ w.text)
    (h : f ∈ ((x.meaning default 0).eval t []).2) : ∃ m ≠ [], f.OnPart t m := by
  obtain ⟨more, found, sub⟩ := (x.meaning default 0).exists_found t []
  rw [found, List.nil_append] at h
  rw [x.tokens_text eq] at sub
  obtain ⟨n, mark, same⟩ := List.mem_map.mp (sub.subset (List.mem_map_of_mem h))
  have node : n ∈ (x.tree 0).nodes := List.mem_of_mem_filter (List.mem_of_mem_filter mark)
  obtain ⟨u, v, split, span⟩ := (x.faithful_tree (u := []) rfl eq n node).1
  refine ⟨n.text, ?_, u, v, split, same.symm.trans span⟩
  intro none
  have visible := ((x.successive_marks (o := 0) le_rfl).mem n mark).2
  rw [span, none] at visible
  exact Nat.lt_irrefl _ visible

end Reckoner
