import Reckoner.Proofs.Grammar.Damage
import Reckoner.Proofs.Session.Reports

/-!
# Reports on a damaged expression

A single token too many in an expression leads to two diagnostics: what the parser leaves unread,
and what the checks on raw text find on the token.  The expression around the token hides nothing
from the checks and adds nothing to what they find.
-/

namespace Reckoner

open Grammar Structure

variable {t : Text} {f : Finding} {x : Derivation (.chain .sum)} {w : Blanks}

namespace Structure

/-- No operand starts in blank characters. -/
lemma startsOperand_run (v : Run isBlank) : startsOperand v.text = false := by
  rw [startsOperand, List.dropWhile_eq_nil_iff.mpr v.all]

/-- An operator after a derived text is found if only blank characters follow it. -/
lemma findings_dangling (op : BinaryOp) (v : Run isBlank) :
    findings (x.text ++ w.text ++ op.symbol :: v.text) =
      [⟨.missingOperand op.symbol, .ofChar (x.text ++ w.text).size op.symbol⟩] := by
  obtain ⟨before, ends, found⟩ := findings_derived (x := x) rfl w (op.symbol :: v.text)
  have balanced : Balanced (op.symbol :: v.text) := by
    refine .cons ?_ ?_ (balanced_run v rfl rfl)
    all_goals cases op <;> decide
  have joins : isBinaryOperator op.symbol = true := by cases op <;> rfl
  rw [found, balanced.unmatchedFrom_eq_nil, List.nil_append, danglingFrom,
    (supplies_run v).danglingFrom_eq_nil, joins, startsOperand_run]
  exact if_pos (by simpa using ends)

/-- A closing parenthesis after a derived text is found. -/
lemma findings_orphan :
    findings (x.text ++ w.text ++ [')']) =
      [⟨.orphanClosing, .ofChar (x.text ++ w.text).size ')'⟩] := by
  obtain ⟨before, _, found⟩ := findings_derived (x := x) rfl w [')']
  exact found

/-- An opening parenthesis before a derived text is found. -/
lemma findings_unclosed :
    findings ('(' :: (x.text ++ w.text)) = [⟨.neverClosed, .ofChar 0 '('⟩] := by
  have follows : (Category.chain .sum).Follows (some '(') := rfl
  obtain ⟨c, _, supplies⟩ := x.supplies follows
  have balanced := (x.balanced.append (balanced_run w rfl rfl)) [0] (Char.utf8Size '(') []
  rw [List.append_nil] at balanced
  have supplied := (supplies.append (supplies_blanks w)).danglingFrom_eq_nil
    (o := Char.utf8Size '(')
  have dangling : danglingOperators ('(' :: (x.text ++ w.text)) = [] := supplied
  have unmatched : unmatchedParentheses ('(' :: (x.text ++ w.text)) = _ := balanced
  rw [findings, unmatched, dangling]
  rfl

end Structure

/-- `t` is the text `e` with one token too many at one of its ends, which calls for the diagnostics
`ds`: a binary operator with blank characters after it, a closing parenthesis, or an opening one if
there is room for another level around the operands of `e`. -/
inductive Damaged (e t : Text) : (ds : List Diagnostic) → Prop
  | dangling (op : BinaryOp) (v : Run isBlank) (eq : t = e ++ op.symbol :: v.text) :
    Damaged e t
      [.ofSpan t ⟨e.size, t.size⟩ "Invalid expression: unexpected characters",
        .ofSpan t (.ofChar e.size op.symbol)
          ("binary operator with no right-hand operand: " ++ String.singleton op.symbol)]
  | orphan (eq : t = e ++ [')']) :
    Damaged e t
      [.ofSpan t ⟨e.size, t.size⟩ "Invalid expression: unexpected characters",
        .ofSpan t (.ofChar e.size ')') "closing parenthesis without matching opening parenthesis"]
  | unclosed {x : Derivation (.chain .sum)} {w : Blanks} (nx : x.nesting ≤ 30)
    (derived : e = x.text ++ w.text) (eq : t = '(' :: e) :
    Damaged e t
      [.ofSpan t ⟨0, t.size⟩
          "Invalid expression: unexpected characters Expected: ')', operand, expression",
        .ofSpan t (.ofChar 0 '(') "opening parenthesis never closed"]

/-- Whoever gives the text to a document is answered just these diagnostics; the text has neither an
expression nor a value. -/
structure Rejected (t : Text) (ds : List Diagnostic) : Prop where
  published : ∀ (s : Session) (uri : String) (request : Request), request.Gives uri t →
    (s.handle request).reply = .published (ds.map .ofDiagnostic)
  ast : (analyze t).ast = none
  value : (analyze t).value = none

/-- A text that is not read to its end is reported as such, and then what the checks find. -/
lemma rejected_of_findings {succeeded : Bool} {consumed : Nat} {expected : List String}
    {root : Option Node}
    (parsed : parse t = ⟨⟨succeeded, consumed, t.size, expected, none⟩, root⟩)
    (less : consumed < t.size) (found : findings t = [f]) :
    Rejected t
      [.ofSpan t ⟨consumed, t.size⟩ (Fault.unexpectedCharacters expected).message,
        f.diagnostic t] := by
  have incomplete : (parse t).issue.isComplete = false := by
    simp [parsed, Issue.isComplete, Nat.ne_of_lt less]
  have unread : (parse t).issue.finding? =
      some ⟨.unexpectedCharacters expected, ⟨consumed, t.size⟩⟩ := by
    rw [parsed]
    exact if_pos less
  have analyzed := analyze_incomplete incomplete
  rw [Analysis.preliminary, found, parsed] at analyzed
  refine ⟨fun s uri request gives => ?_, by rw [analyzed], by rw [analyzed]⟩
  rw [Session.reply_handle_gives gives, Document.publications, Document.diagnostics_ofText,
    analyzed, Issue.diagnostic?, unread]
  rfl

/-- One token too many in an expression is reported twice, and nothing else is reported: by the
parser, which does not read it, and by the check for such tokens. -/
theorem rejected_damaged {e : Text} {ds : List Diagnostic}
    (whole : (parse e).issue.isComplete = true) (damaged : Damaged e t ds) : Rejected t ds := by
  cases damaged with
  | dangling op v eq =>
    obtain ⟨x, w, nx, rfl⟩ := derived_of_isComplete whole
    have found := findings_dangling (x := x) (w := w) op v
    rw [← eq] at found
    refine rejected_of_findings (parse_dangling nx eq) ?_ found
    rw [eq, Text.size_append _ (_ :: _), Text.size_cons]
    exact Nat.lt_add_of_pos_right (Nat.add_pos_left op.symbol.utf8Size_pos _)
  | orphan eq =>
    obtain ⟨x, w, nx, rfl⟩ := derived_of_isComplete whole
    have found := findings_orphan (x := x) (w := w)
    rw [← eq] at found
    refine rejected_of_findings (parse_orphan nx eq) ?_ found
    rw [eq, Text.size_append _ [')']]
    exact Nat.lt_succ_self _
  | @unclosed x w nx derived eq =>
    rw [derived] at eq
    have found := findings_unclosed (x := x) (w := w)
    rw [← eq] at found
    have message : (Fault.unexpectedCharacters ["')'", "operand", "expression"]).message =
        "Invalid expression: unexpected characters Expected: ')', operand, expression" := by
      decide +kernel
    rw [← message]
    have room : x.nesting + 1 < maxDepth := Nat.lt_succ_of_le (Nat.succ_le_succ nx)
    refine rejected_of_findings (parse_unclosed room eq) ?_ found
    rw [eq, Text.size_cons]
    exact Nat.add_pos_left (Char.utf8Size_pos _) _

/-- The ends of `2`, with a line feed after it: `*`, `)` and `(` each lead to two diagnostics. -/
theorem rejected_damaged_two :
    Rejected ['2', '\n', '*', ' ']
      [⟨⟨⟨1, 0⟩, ⟨1, 2⟩⟩, "Invalid expression: unexpected characters"⟩,
        ⟨⟨⟨1, 0⟩, ⟨1, 1⟩⟩, "binary operator with no right-hand operand: *"⟩] ∧
    Rejected ['2', '\n', ')']
      [⟨⟨⟨1, 0⟩, ⟨1, 1⟩⟩, "Invalid expression: unexpected characters"⟩,
        ⟨⟨⟨1, 0⟩, ⟨1, 1⟩⟩, "closing parenthesis without matching opening parenthesis"⟩] ∧
    Rejected ['(', '2', '\n']
      [⟨⟨⟨0, 0⟩, ⟨1, 0⟩⟩,
          "Invalid expression: unexpected characters Expected: ')', operand, expression"⟩,
        ⟨⟨⟨0, 0⟩, ⟨0, 1⟩⟩, "opening parenthesis never closed"⟩] := by
  have whole : (parse ['2', '\n']).issue.isComplete = true := by decide +kernel
  let two : Derivation .operand :=
    .number .nil ⟨⟨['2'], List.forall_mem_singleton.mpr rfl⟩, List.cons_ne_nil _ _⟩
  let sum : Derivation (.chain .sum) := .chain (.chain (l := .product) two .nil) .nil
  let feed : Blanks := ⟨['\n'], List.forall_mem_singleton.mpr rfl⟩
  have derived : ['2', '\n'] = sum.text ++ feed.text := rfl
  refine ⟨?_, ?_, ?_⟩
  · exact rejected_damaged whole (.dangling .mul ⟨[' '], List.forall_mem_singleton.mpr rfl⟩ rfl)
  · exact rejected_damaged whole (.orphan rfl)
  · exact rejected_damaged whole (.unclosed (Nat.zero_le _) derived rfl)

end Reckoner
