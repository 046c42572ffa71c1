import Reckoner.Proofs.Expr.Faults
import Reckoner.Proofs.Structure.Agreement
import Reckoner.Session.Basic

/-!
# Silence means a value

A text is published without a diagnostic exactly when it has a value or is empty.  What is not
recognized is reported as such, what is recognized as a whole is evaluated, and evaluation ends in
a value or in a finding; the checks on raw text say nothing about a text with a value.
-/

namespace Reckoner

open Grammar Structure

variable {t : Text}

/-- A text that is an expression as a whole has either a value or errors. -/
lemma errors_nil_iff_of_isComplete (complete : (parse t).issue.isComplete = true) :
    (analyze t).errors = [] ↔ (analyze t).value.isSome = true := by
  obtain ⟨x, w, nx, eq⟩ := derived_of_isComplete complete
  obtain ⟨_, _, analyzed⟩ := analyze_derived nx eq default
  have settled := (x.meaning default 0).eval_settled t []
  rw [analyzed]
  generalize (x.meaning default 0).eval t [] = r at settled
  cases settled with
  | value v => exact iff_of_true rfl rfl
  | fault some_more =>
    refine iff_of_false (by simpa using some_more) ?_
    simp [some_more]

/-- Only a text that is an expression as a whole has a value. -/
lemma value_eq_none (incomplete : (parse t).issue.isComplete = false) :
    (analyze t).value = none := by
  rw [analyze_incomplete incomplete]

/-- What is not recognized of a text is reported. -/
lemma diagnostic?_isSome (incomplete : (parse t).issue.isComplete = false) (some : t ≠ []) :
    ((parse t).issue.diagnostic? t).isSome = true := by
  have less : (parse t).issue.consumed < (parse t).issue.total := by
    rcases parse_cases t with ⟨x, w, r, _, eq, parsed⟩ | ⟨_, _, parsed⟩
    · have size := congrArg Text.size eq
      simp only [Text.size_append] at size
      simp only [parsed, Issue.isComplete, Bool.true_and, beq_eq_false_iff_ne] at incomplete ⊢
      omega
    · rw [parsed]
      have nonzero : t.size ≠ 0 := fun zero => some (Text.eq_nil_of_size_eq_zero zero)
      exact Nat.pos_of_ne_zero nonzero
  simp [Issue.diagnostic?, Issue.finding?, less]

/-- Nothing is reported on the empty text. -/
lemma diagnostics_ofText_nil (uri : String) : (Document.ofText uri []).diagnostics = [] := by
  have silent : ((parse []).issue.diagnostic? []).toList ++ (analyze []).errors = [] := by
    decide +kernel
  exact silent

/-- Nothing is reported on a document exactly when it is empty or has a value. -/
theorem diagnostics_ofText_nil_iff (uri : String) (t : Text) :
    (Document.ofText uri t).diagnostics = [] ↔
      t = [] ∨ (Document.ofText uri t).analysis.value.isSome = true := by
  change ((parse t).issue.diagnostic? t).toList ++ (analyze t).errors = [] ↔
    t = [] ∨ (analyze t).value.isSome = true
  cases complete : (parse t).issue.isComplete with
  | true =>
    -- the parser is content, so only the evaluation is left to report something
    have whole : (parse t).issue.diagnostic? t = none := by
      obtain ⟨x, w, nx, eq⟩ := derived_of_isComplete complete
      simp [parse_derived nx eq, Issue.diagnostic?, Issue.finding?]
    have some : t ≠ [] := by
      rintro rfl
      revert complete
      decide +kernel
    rw [whole, Option.toList_none, List.nil_append, errors_nil_iff_of_isComplete complete]
    exact (or_iff_right some).symm
  | false =>
    rw [value_eq_none complete]
    constructor
    · intro silent
      by_contra nothing
      have some : t ≠ [] := fun nil => nothing (.inl nil)
      obtain ⟨d, reported⟩ := Option.isSome_iff_exists.mp (diagnostic?_isSome complete some)
      rw [reported] at silent
      cases silent
    · intro h
      cases h with
      | inl nil => subst nil; exact diagnostics_ofText_nil ""
      | inr value => cases value

/-- However a text comes into a session, what is published for it is empty exactly when it is empty
or the document stored for it has a value; so a text that is not empty has either a published
diagnostic or a value, and not both. -/
theorem published_nil_iff_value (s : Session) (uri : String) (t : Text) {request : Request}
    (sets : request = .openText uri t ∨ request = .changeText uri t) :
    ∃ (ps : List Publication) (d : Document),
      (s.handle request).reply = .published ps ∧
      (s.handle request).session.find? uri = some d ∧
      d.content = t ∧
      (ps = [] ↔ t = [] ∨ d.analysis.value.isSome = true) ∧
      (t ≠ [] → Xor (ps ≠ []) (d.analysis.value.isSome = true)) := by
  let d := Document.ofText uri t
  have silence : d.publications = [] ↔ t = [] ∨ d.analysis.value.isSome = true :=
    List.map_eq_nil_iff.trans (diagnostics_ofText_nil_iff uri t)
  have stored : (s.store d).find? uri = some d := by
    rw [Session.find?_store]
    exact if_pos rfl
  have either : t ≠ [] → Xor (d.publications ≠ []) (d.analysis.value.isSome = true) := by
    intro some
    have same := silence.trans (or_iff_right some)
    by_cases value : d.analysis.value.isSome = true
    · exact .inr ⟨value, fun loud => loud (same.mpr value)⟩
    · exact .inl ⟨fun silent => value (same.mp silent), value⟩
  cases sets with
  | inl h => subst h; exact ⟨d.publications, d, rfl, stored, rfl, silence, either⟩
  | inr h => subst h; exact ⟨d.publications, d, rfl, stored, rfl, silence, either⟩

/-- After a change to `2`, in a session without documents, either something is published or the
document has a value. -/
theorem published_nil_iff_value_change :
    ∃ (ps : List Publication) (d : Document),
      (Session.empty.handle (.changeText "memo" ['2'])).reply = .published ps ∧
      (Session.empty.handle (.changeText "memo" ['2'])).session.find? "memo" = some d ∧
      Xor (ps ≠ []) (d.analysis.value.isSome = true) := by
  obtain ⟨ps, d, reply, stored, _, _, either⟩ :=
    published_nil_iff_value .empty "memo" ['2'] (.inr rfl)
  exact ⟨ps, d, reply, stored, either (List.cons_ne_nil _ _)⟩

end Reckoner
