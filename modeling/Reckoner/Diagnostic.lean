import Reckoner.Function
import Reckoner.Text.Position
import Reckoner.Tree.Defect

/-!
# Diagnostics

A fault says what is wrong, a finding also where in the text, and a diagnostic is what the reader
sees of it: places on the page and a message.  Rendered places count from one.
-/

namespace Reckoner

/-- What can be wrong with a text. -/
inductive Fault where
  | unexpectedCharacters (expected : List String)
  | orphanClosing
  | neverClosed
  | missingOperand (operator : Char)
  | tooDeep
  | malformed (defect : Defect)
  | unreadableNumber
  | divisionByZero
  | unknownFunction (name : String)
  | refused (guard : Guard)
  deriving DecidableEq

/-- The report of a fault. -/
def Fault.message : Fault → String
  | unexpectedCharacters [] => "Invalid expression: unexpected characters"
  | unexpectedCharacters expected =>
    "Invalid expression: unexpected characters Expected: " ++ ", ".intercalate expected
  | orphanClosing => "closing parenthesis without matching opening parenthesis"
  | neverClosed => "opening parenthesis never closed"
  | missingOperand operator =>
    "binary operator with no right-hand operand: " ++ String.singleton operator
  | tooDeep => "expression nested too deeply"
  | malformed defect => defect.message
  | unreadableNumber => "cannot parse number"
  | divisionByZero => "division by zero"
  | unknownFunction name => "unknown function: " ++ name
  | refused guard => guard.message

/-- A report on some places of the page. -/
structure Diagnostic where
  range : Range
  message : String
  deriving DecidableEq, Inhabited

namespace Diagnostic

/-- The report `message` on what a span of a text covers. -/
def ofSpan (t : Text) (span : Span) (message : String) : Diagnostic :=
  ⟨t.rangeOf span, message⟩

/-- A place counted from one. -/
def renderPosition (p : Position) : String :=
  toString (p.line + 1) ++ ":" ++ toString (p.column + 1)

/-- The line that shows a diagnostic. -/
def render (d : Diagnostic) : String :=
  renderPosition d.range.start ++ "-" ++ renderPosition d.range.stop ++ " " ++ d.message

/-- Diagnostics one to a line. -/
def renderAll (ds : List Diagnostic) : String := "\n".intercalate (ds.map render)

end Diagnostic

/-- A fault found in a text. -/
structure Finding where
  fault : Fault
  span : Span
  deriving DecidableEq

/-- The diagnostic of a finding. -/
def Finding.diagnostic (t : Text) (f : Finding) : Diagnostic :=
  .ofSpan t f.span f.fault.message

end Reckoner
