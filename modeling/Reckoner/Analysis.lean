import Reckoner.Expr.Eval
import Reckoner.Expr.OfTree
import Reckoner.Grammar.Outcome
import Reckoner.Structure

/-!
# Analysis

Everything known about a text.  The structural checks run on every text.  Only a text that is an
expression as a whole and passes them is evaluated, and a text with a diagnostic has no value.
-/

namespace Reckoner

/-- What is known about a text. -/
structure Analysis where
  errors : List Diagnostic
  ast : Option Expr
  value : Option Float
  deriving DecidableEq, Inhabited

/-- The finding on the operand at an offset: its first character, or nothing at the end. -/
def tooDeepFinding (t : Text) (offset : Nat) : Finding :=
  match t.dropBytes? offset with
  | some (c :: _) => ⟨.tooDeep, .ofChar offset c⟩
  | _ => ⟨.tooDeep, ⟨offset, offset⟩⟩

namespace Analysis

/-- What is wrong with a text before it is evaluated. -/
def preliminary (t : Text) (issue : Issue) : List Finding :=
  Structure.findings t ++ (issue.tooDeepAt.map (tooDeepFinding t)).toList

/-- The analysis of a parse tree on which nothing was found so far. -/
def ofTree (t : Text) (root : Node) : Analysis :=
  match root.toExpr with
  | .error e => ⟨[Finding.diagnostic t ⟨.malformed e.defect, e.span⟩], none, none⟩
  | .ok ast =>
    match ast.eval t [] with
    | (value, found) =>
      ⟨found.map (·.diagnostic t), some ast, if found.isEmpty then value else none⟩

/-- The analysis of a text, given the outcome of reading it. -/
def ofOutcome (t : Text) (outcome : Outcome) : Analysis :=
  let found := preliminary t outcome.issue
  match outcome.root with
  | some root =>
    if outcome.issue.isComplete && found.isEmpty then ofTree t root
    else ⟨found.map (·.diagnostic t), none, none⟩
  | none => ⟨found.map (·.diagnostic t), none, none⟩

end Analysis

/-- The analysis of a text. -/
def analyze (t : Text) : Analysis := .ofOutcome t (parse t)

end Reckoner
