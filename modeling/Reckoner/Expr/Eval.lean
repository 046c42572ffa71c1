import Reckoner.Diagnostic
import Reckoner.Expr.Basic
import Reckoner.Number.Numeral

/-!
# Evaluation

The value of an expression in double precision.  Both sides of an operator are evaluated even when
one has no value, so every fault is found, each once and at the token that causes it; an expression
around a fault has no value and adds no fault of its own.
-/

namespace Reckoner

/-- What an operator makes of two values. -/
def BinaryOp.apply : BinaryOp → Float → Float → Except Fault Float
  | add, a, b => .ok (a + b)
  | sub, a, b => .ok (a - b)
  | mul, a, b => .ok (a * b)
  | div, a, b => if b == 0 then .error .divisionByZero else .ok (a / b)

/-- The value of a function, looked up by name. -/
def Function.call (name : String) (x : Float) : Except Fault Float :=
  match Function.find? name with
  | none => .error (.unknownFunction name)
  | some f => (f.apply x).mapError .refused

/-- The value of a number as it is written. -/
def readNumber (written : Text) : Except Fault Float :=
  match Numeral.read? written with
  | none => .error .unreadableNumber
  | some x => .ok x

/-- The value of a token whose operands have values, or one more finding at the token. -/
def settle (span : Span) (found : List Finding) : Except Fault Float → Option Float × List Finding
  | .ok x => (some x, found)
  | .error fault => (none, found ++ [⟨fault, span⟩])

/-- The value of an expression over a text, with what is found wrong after `found`. -/
def Expr.eval (t : Text) : Expr → (found : List Finding) → Option Float × List Finding
  | .number span, found => settle span found (readNumber (t.slice span))
  | .unary op _ operand, found =>
    match operand.eval t found with
    | (some x, found) => (some (op.apply x), found)
    | (none, found) => (none, found)
  | .call name span argument, found =>
    match argument.eval t found with
    | (some x, found) => settle span found (Function.call name x)
    | (none, found) => (none, found)
  | .binary op span left right, found =>
    match left.eval t found with
    | (a, found) =>
      match a, right.eval t found with
      | some a, (some b, found) => settle span found (op.apply a b)
      | _, (_, found) => (none, found)

end Reckoner
