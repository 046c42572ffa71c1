import Reckoner.Proofs.Diagnostic.Rendering
import Reckoner.Proofs.Expr.Polish
import Reckoner.Proofs.Grammar.TooDeep
import Reckoner.Proofs.Session.Reports

/-!
# The rendering of what is reported

What is reported repeats parts of the text: an operator, the name of a function.  None of them
breaks a line, so every message stays on one (`Reported.oneLine`), and the rendering of what the
analysis of a text finds has a line for each diagnostic and tells them all.
-/

namespace Reckoner

open Grammar Structure

variable {t : Text} {e n : Expr} {f : Finding} {fs : List Finding} {fault : Fault}

/-! The messages that name something. -/

/-- What is joined from single lines by a single line is one. -/
lemma oneLine_intercalate {separator : String} {ss : List String} (single : OneLine separator)
    (all : ∀ s ∈ ss, OneLine s) : OneLine (separator.intercalate ss) := by
  induction ss with
  | nil =>
    rw [String.intercalate_nil]
    decide
  | cons s ss ih =>
    obtain ⟨first, others⟩ := List.forall_mem_cons.mp all
    cases ss with
    | nil => rwa [String.intercalate_singleton]
    | cons =>
      rw [String.intercalate_cons_cons]
      exact (first.append single).append (ih others)

/-- The name of a construct is a single line. -/
lemma Label.oneLine_name (label : Label) : OneLine label.name := by cases label <;> decide

/-- The constructs that were expected have names of a single line. -/
lemma oneLine_expected : ∀ s ∈ (parse t).issue.expected, OneLine s := by
  rcases parse_cases t with ⟨_, _, _, _, _, parsed⟩ | ⟨refusal, _, parsed⟩
  · rw [parsed]
    exact List.forall_mem_nil _
  · rw [parsed]
    intro s mem
    obtain ⟨step, _, rfl⟩ := List.mem_map.mp (List.mem_eraseDups.mp mem)
    exact step.2.oneLine_name

/-- The message that lists what was expected is a single line. -/
lemma oneLine_unexpected {expected : List String} (labels : ∀ s ∈ expected, OneLine s) :
    OneLine (Fault.unexpectedCharacters expected).message := by
  cases expected with
  | nil => decide
  | cons label others =>
    have introduction :
        OneLine "Invalid expression: unexpected characters Expected: " := by decide
    exact introduction.append (oneLine_intercalate (by decide) labels)

/-- The message on an incomplete operator is a single line. -/
lemma oneLine_missingOperand {c : Char} (operator : isBinaryOperator c = true) :
    OneLine (Fault.missingOperand c).message := by
  have introduction : OneLine "binary operator with no right-hand operand: " := by decide
  refine introduction.append ?_
  rw [OneLine, String.toList_singleton, List.mem_singleton]
  rintro rfl
  cases operator

/-- The message on an unknown function is a single line. -/
lemma oneLine_unknownFunction (name : Lexeme isLetter) :
    OneLine (Fault.unknownFunction (String.ofList name.text)).message := by
  have introduction : OneLine "unknown function: " := by decide
  refine introduction.append ?_
  rw [OneLine, String.toList_ofList]
  intro mem
  cases name.all _ mem

/-- The nodes of a legible expression are legible. -/
lemma Legible.nodes (h : Legible t e) : ∀ n ∈ e.postorder, Legible t n := by
  induction h with
  | number lexeme written => exact List.forall_mem_singleton.mpr (.number lexeme written)
  | unary h ih => exact List.forall_mem_append.mpr ⟨ih, List.forall_mem_singleton.mpr (.unary h)⟩
  | binary h1 h2 ih1 ih2 =>
    refine List.forall_mem_append.mpr ⟨ih1, List.forall_mem_append.mpr ⟨ih2, ?_⟩⟩
    exact List.forall_mem_singleton.mpr (.binary h1 h2)
  | call name h ih =>
    exact List.forall_mem_append.mpr ⟨ih, List.forall_mem_singleton.mpr (.call name h)⟩

/-- What fails to evaluate is reported in a single line. -/
lemma Fails.oneLine (h : Fails t n fault) (legible : Legible t n) : OneLine fault.message := by
  cases h with
  | number => decide
  | div => decide
  | unknown =>
    cases legible with
    | call name _ => exact oneLine_unknownFunction name
  | @refused _ g => cases g <;> decide

/-- What evaluation reports stays on one line. -/
lemma Legible.oneLine (h : Legible t e) : ∀ f ∈ (e.eval t []).2, OneLine f.fault.message := by
  intro f found
  obtain ⟨n, node, fails, _⟩ := (e.collected t).mem f found
  exact fails.oneLine (h.nodes n node)

/-- What the raw characters show is reported in a single line. -/
lemma oneLine_findings (h : f ∈ findings t) : OneLine f.fault.message := by
  rcases List.mem_append.mp h with unmatched | dangling
  · rcases fault_unmatchedFrom unmatched with eq | eq <;> rw [eq] <;> decide
  · obtain ⟨c, operator, eq⟩ := fault_danglingFrom dangling
    rw [eq]
    exact oneLine_missingOperand operator

/-- Whatever is reported stays on one line. -/
lemma Reported.oneLine (h : Reported t fs) : ∀ f ∈ fs, OneLine f.fault.message := by
  cases h with
  | @evaluated x w nx eq =>
    obtain ⟨_, _, analyzed⟩ := analyze_derived nx eq default
    exact (analyze_of_ast (congrArg Analysis.ast analyzed)).1.oneLine
  | rejected =>
    refine List.forall_mem_append.mpr ⟨?_, List.forall_mem_append.mpr ⟨?_, ?_⟩⟩
    · intro f mem
      have found := Option.mem_toList.mp mem
      simp only [Issue.finding?] at found
      split at found
      case isTrue => cases found; exact oneLine_unexpected oneLine_expected
      case isFalse => cases found
    · exact fun f => oneLine_findings
    · intro f mem
      obtain ⟨o, _, rfl⟩ := Option.map_eq_some_iff.mp (Option.mem_toList.mp mem)
      rw [tooDeepFinding_fault]
      decide

/-- What the analysis finds is reported on one line each. -/
lemma oneLine_errors (t : Text) : ∀ d ∈ (analyze t).errors, OneLine d.message := by
  intro d mem
  obtain ⟨fs, reported, same⟩ := reported_diagnostics "" t
  rw [Document.diagnostics_ofText] at same
  have published : d ∈ fs.map (·.diagnostic t) := same ▸ List.mem_append_right _ mem
  obtain ⟨f, found, rfl⟩ := List.mem_map.mp published
  exact reported.oneLine f found

/-- A rendered diagnostic tells its range and its message.  No message that is published for a text
breaks a line, so what the analysis of a text finds is rendered one to a line, and texts with the
same rendering have the same diagnostics. -/
theorem rendering_loses_nothing :
    (∀ d e : Diagnostic, d.render = e.render → d.range = e.range ∧ d.message = e.message) ∧
    (∀ (s : Session) (uri : String) (t : Text) (request : Request), request.Gives uri t →
      ∃ ps : List Publication, (s.handle request).reply = .published ps ∧
        ∀ p ∈ ps, '\n' ∉ p.diagnostic.message.toList) ∧
    (∀ t : Text, Text.lines (Diagnostic.renderAll (analyze t).errors).toList =
      (analyze t).errors.map (·.render.toList)) ∧
    ∀ t u : Text,
      Diagnostic.renderAll (analyze t).errors = Diagnostic.renderAll (analyze u).errors →
        (analyze t).errors = (analyze u).errors := by
  refine ⟨fun d e same => ?_, fun s uri t request gives => ?_, fun t => ?_, fun t u same => ?_⟩
  · cases Diagnostic.render_injective same
    exact ⟨rfl, rfl⟩
  · obtain ⟨fs, reported, published⟩ := exists_reported s gives
    refine ⟨_, published, fun p mem => ?_⟩
    obtain ⟨f, found, rfl⟩ := List.mem_map.mp mem
    exact reported.oneLine f found
  · exact Diagnostic.lines_renderAll (oneLine_errors t)
  · exact Diagnostic.renderAll_injective (oneLine_errors t) (oneLine_errors u) same

end Reckoner
