import Reckoner.Text.Basic
import Reckoner.Tree.Rule

/-!
# Expressions

What a text means, freed from parentheses and blanks.  Every node points at the token that carries
it: a number, an operator, a sign or a function name.
-/

namespace Reckoner

/-- What a sign does. -/
inductive UnaryOp where
  | negate
  | keep
  deriving DecidableEq

/-- What an operator between two operands does. -/
inductive BinaryOp where
  | add
  | sub
  | mul
  | div
  deriving DecidableEq

namespace UnaryOp

/-- The sign of a token. -/
def ofRule? : Rule → Option UnaryOp
  | .minus => some negate
  | .plus => some keep
  | _ => none

/-- How a sign is written. -/
def symbol : UnaryOp → Char
  | negate => '-'
  | keep => '+'

/-- The value of a signed operand. -/
def apply : UnaryOp → Float → Float
  | negate, x => -x
  | keep, x => x

/-- A rule is that of a sign if it has one. -/
theorem isSome_ofRule? (r : Rule) : (ofRule? r).isSome = r.isSign := by cases r <;> rfl

end UnaryOp

namespace BinaryOp

/-- The operator of a token. -/
def ofRule? : Rule → Option BinaryOp
  | .plus => some add
  | .minus => some sub
  | .star => some mul
  | .slash => some div
  | _ => none

/-- How an operator is written. -/
def symbol : BinaryOp → Char
  | add => '+'
  | sub => '-'
  | mul => '*'
  | div => '/'

/-- A rule is that of an operator if it has one. -/
theorem isSome_ofRule? (r : Rule) : (ofRule? r).isSome = r.isOperator := by cases r <;> rfl

end BinaryOp

/-- An expression whose tokens stand at the given spans of a text. -/
inductive Expr where
  | number (span : Span)
  | unary (op : UnaryOp) (span : Span) (operand : Expr)
  | binary (op : BinaryOp) (span : Span) (left right : Expr)
  | call (name : String) (span : Span) (argument : Expr)
  deriving DecidableEq, Inhabited

namespace Expr

/-- The token that carries an expression. -/
def span : Expr → Span
  | number span => span
  | unary _ span _ => span
  | binary _ span _ _ => span
  | call _ span _ => span

/-- The number of nodes on the longest way down. -/
def depth : Expr → Nat
  | number _ => 1
  | unary _ _ operand => 1 + operand.depth
  | binary _ _ left right => 1 + max left.depth right.depth
  | call _ _ argument => 1 + argument.depth

/-- An expression with every operator and name before its operands, in parentheses; numbers are
taken from the text. -/
def polish (t : Text) : Expr → Text
  | number span => t.slice span
  | unary op _ operand => '(' :: op.symbol :: ' ' :: (operand.polish t ++ [')'])
  | binary op _ left right =>
    '(' :: op.symbol :: ' ' :: (left.polish t ++ ' ' :: (right.polish t ++ [')']))
  | call name _ argument => '(' :: (name.toList ++ ' ' :: (argument.polish t ++ [')']))

end Expr

end Reckoner
