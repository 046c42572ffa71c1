import Reckoner.Proofs.Session.Range

/-!
# No diagnostic twice

Diagnostics of one source are on different characters or tokens, and no two of these are shown in
the same place.  What the sources have to say on the same place differs in its first letter.
-/

namespace Reckoner

open Grammar Structure

variable {t : Text} {f g : Finding} {fs gs : List Finding} {o : Nat} {opened : List Nat}

namespace Structure

/-- What is on a text starts no earlier than the text. -/
lemma On.start_le (h : f.On o t) : o ≤ f.span.start := by
  obtain ⟨before, c, after, _, span⟩ := h
  rw [span]
  exact Nat.le_add_right ..

/-- Nothing behind a character is found on it. -/
lemma span_notMem {c : Char} (behind : ∀ f ∈ fs, f.On (o + c.utf8Size) t) :
    Span.ofChar o c ∉ fs.map (·.span) := by
  intro mem
  obtain ⟨f, found, span⟩ := List.mem_map.mp mem
  have start := On.start_le (behind f found)
  rw [span] at start
  exact absurd start (Nat.not_le.mpr (Nat.lt_add_of_pos_right c.utf8Size_pos))

/-- Every parenthesis is found once. -/
lemma nodup_unmatchedFrom (nodup : opened.Nodup) (before : ∀ k ∈ opened, k < o) :
    ((unmatchedFrom opened o t).map (·.span)).Nodup := by
  induction t generalizing opened o with
  | nil =>
    rw [unmatchedFrom, List.map_map, List.Nodup, List.pairwise_map]
    exact nodup.imp fun other same => other (Span.mk.inj same).1
  | cons c t ih =>
    have next : ∀ k ∈ opened, k < o + c.utf8Size :=
      fun k mem => Nat.lt_add_right _ (before k mem)
    simp only [unmatchedFrom]
    split
    case isTrue =>
      refine ih (List.nodup_cons.mpr ⟨fun mem => Nat.lt_irrefl o (before o mem), nodup⟩) ?_
      exact List.forall_mem_cons.mpr ⟨Nat.lt_add_of_pos_right c.utf8Size_pos, next⟩
    case isFalse =>
      split
      case isTrue =>
        cases opened with
        | cons top outer => exact ih nodup.of_cons (List.forall_mem_cons.mp next).2
        | nil =>
          refine List.nodup_cons.mpr ⟨span_notMem (t := t) fun f mem => ?_, ih nodup next⟩
          rcases mem_unmatchedFrom mem with ⟨_, none, _⟩ | on
          · cases none
          · exact on
      case isFalse => exact ih nodup next

/-- Every operator is found once. -/
lemma nodup_danglingFrom {before : Option Char} :
    ((danglingFrom before o t).map (·.span)).Nodup := by
  induction t generalizing before o with
  | nil => exact .nil
  | cons c t ih =>
    simp only [danglingFrom]
    split
    · exact List.nodup_cons.mpr ⟨span_notMem (t := t) fun f mem => mem_danglingFrom mem, ih⟩
    · exact ih

end Structure

/-- Findings on different parts of a text have different diagnostics. -/
lemma nodup_diagnostics (nodup : (fs.map (·.span)).Nodup) (on : ∀ f ∈ fs, ∃ m, f.OnPart t m) :
    (fs.map (·.diagnostic t)).Nodup := by
  rw [List.Nodup, List.pairwise_map] at nodup ⊢
  refine nodup.imp_of_mem fun {f g} hf hg other same => ?_
  obtain ⟨_, hf⟩ := on f hf
  obtain ⟨_, hg⟩ := on g hg
  exact other (hf.span_eq hg (congrArg Diagnostic.range same))

/-- The first letter of the report of a fault. -/
def Fault.initial (fault : Fault) : Option Char := fault.message.toList.head?

/-- What is added at the end leaves the first character. -/
lemma head?_toList_append {s : String} {c : Char} (h : s.toList.head? = some c) (r : String) :
    (s ++ r).toList.head? = some c := by
  rw [String.toList_append, List.head?_append, h]
  rfl

/-- The message on characters that were not expected begins with `I`. -/
lemma Fault.initial_unexpectedCharacters (expected : List String) :
    (unexpectedCharacters expected).initial = some 'I' := by
  cases expected with
  | nil => decide
  | cons => exact head?_toList_append (by decide) _

/-- The message on an incomplete operator begins with `b`. -/
lemma Fault.initial_missingOperand (c : Char) : (missingOperand c).initial = some 'b' :=
  head?_toList_append (by decide) _

/-- Two sources that begin their reports with different letters repeat nothing of each other. -/
lemma nodup_diagnostics_append (hf : (fs.map (·.diagnostic t)).Nodup)
    (hg : (gs.map (·.diagnostic t)).Nodup)
    (apart : ∀ f ∈ fs, ∀ g ∈ gs, f.fault.initial ≠ g.fault.initial) :
    ((fs ++ gs).map (·.diagnostic t)).Nodup := by
  rw [List.map_append, List.nodup_append]
  refine ⟨hf, hg, fun d left e right same => ?_⟩
  obtain ⟨f, mem1, rfl⟩ := List.mem_map.mp left
  obtain ⟨g, mem2, rfl⟩ := List.mem_map.mp right
  exact apart f mem1 g mem2 (congrArg (·.message.toList.head?) same)

/-- A finding that there may be is reported at most once. -/
lemma nodup_diagnostics_toList (f? : Option Finding) :
    (f?.toList.map (·.diagnostic t)).Nodup := by
  cases f? with
  | none => exact .nil
  | some f => exact List.pairwise_singleton _ _

/-- What the raw characters show is reported once. -/
lemma nodup_findings : ((findings t).map (·.diagnostic t)).Nodup := by
  have on : ∀ f ∈ findings t, ∃ m, f.OnPart t m := fun f mem =>
    let ⟨c, on⟩ := onPart_of_mem_findings mem
    ⟨[c], on⟩
  obtain ⟨unmatched, dangling⟩ := List.forall_mem_append.mp on
  refine nodup_diagnostics_append (nodup_diagnostics (nodup_unmatchedFrom .nil nofun) unmatched)
    (nodup_diagnostics nodup_danglingFrom dangling) fun f mem1 g mem2 => ?_
  obtain ⟨c, _, eq⟩ := fault_danglingFrom mem2
  rw [eq, Fault.initial_missingOperand]
  rcases fault_unmatchedFrom mem1 with eq | eq <;> rw [eq] <;> decide

/-- The checks on raw text begin their reports with other letters than the parser. -/
lemma initial_findings (h : f ∈ findings t) :
    f.fault.initial ∈ [some 'o', some 'c', some 'b'] := by
  rcases List.mem_append.mp h with unmatched | dangling
  · rcases fault_unmatchedFrom unmatched with eq | eq <;> rw [eq] <;> decide
  · obtain ⟨c, _, eq⟩ := fault_danglingFrom dangling
    rw [eq, Fault.initial_missingOperand]
    decide

/-- Nothing is reported twice. -/
lemma Reported.nodup (h : Reported t fs) : (fs.map (·.diagnostic t)).Nodup := by
  cases h with
  | evaluated nx eq =>
    exact nodup_diagnostics (Derivation.nodup_eval eq) fun f mem =>
      (onPart_of_mem_eval eq mem).imp fun _ on => on.2
  | rejected incomplete =>
    -- the gate, the checks on raw text and the parser begin their reports with different letters
    have deep : ∀ f ∈ ((parse t).issue.tooDeepAt.map (tooDeepFinding t)).toList,
        f.fault.initial = some 'e' := by
      intro f mem
      obtain ⟨o, _, rfl⟩ := Option.map_eq_some_iff.mp (Option.mem_toList.mp mem)
      rw [tooDeepFinding_fault]
      decide
    have unexpected : ∀ f ∈ (parse t).issue.finding?.toList, f.fault.initial = some 'I' := by
      intro f mem
      have found := Option.mem_toList.mp mem
      simp only [Issue.finding?] at found
      split at found
      case isTrue => cases found; exact Fault.initial_unexpectedCharacters _
      case isFalse => cases found
    refine nodup_diagnostics_append (nodup_diagnostics_toList _)
      (nodup_diagnostics_append nodup_findings (nodup_diagnostics_toList _) ?_) ?_
    · intro f mem1 g mem2 same
      have initial := initial_findings mem1
      rw [same, deep g mem2] at initial
      revert initial
      decide
    · intro f mem1 g mem2 same
      rw [unexpected f mem1] at same
      rcases List.mem_append.mp mem2 with found | tooDeep
      · have initial := initial_findings found
        rw [← same] at initial
        revert initial
        decide
      · rw [deep g tooDeep] at same
        cases same

/-- However a text comes into a session, the diagnostics that are published for it differ from each
other in what they point at or in what they say. -/
theorem published_nodup (s : Session) {uri : String} {t : Text} {request : Request}
    (gives : request.Gives uri t) :
    ∃ ps : List Publication, (s.handle request).reply = .published ps ∧
      (ps.map (·.diagnostic)).Nodup := by
  obtain ⟨fs, reported, published⟩ := exists_reported s gives
  refine ⟨_, published, ?_⟩
  rw [List.map_map]
  exact reported.nodup

/-- Of `1+)+)` five diagnostics are published, two of each message of the checks. -/
theorem published_nodup_closing :
    ∃ ps : List Publication,
      (Session.empty.handle (.openText "memo" ['1', '+', ')', '+', ')'])).reply = .published ps ∧
      ps.length = 5 ∧ (ps.map (·.diagnostic)).Nodup := by
  have five : (Document.ofText "memo" ['1', '+', ')', '+', ')']).publications.length = 5 := by
    decide +kernel
  obtain ⟨ps, published, apart⟩ :=
    published_nodup .empty (.openText : Request.Gives "memo" ['1', '+', ')', '+', ')'] _)
  refine ⟨ps, published, ?_, apart⟩
  cases published
  exact five

end Reckoner
