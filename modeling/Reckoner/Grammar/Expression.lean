import Reckoner.Grammar.Reader

/-!
# The grammar of expressions

Readers for the rules of `Rule`.  Spaces, tabs and line ends may stand before every token.  Sums
and products are chains, so precedence is nesting of rules.  At most `maxDepth` operands may be
open inside each other, whether by parentheses, calls or signs; one more is refused for good.
-/

namespace Reckoner.Grammar

open Reader

/-- How many operands may be open at a place. -/
def maxDepth : Nat := 32

/-- A letter of a function name. -/
def isLetter (c : Char) : Bool := ('a' ≤ c && c ≤ 'z') || ('A' ≤ c && c ≤ 'Z')

/-- A character of a number; whether a run of them is a number is settled when it is evaluated. -/
def isNumeric (c : Char) : Bool := ('0' ≤ c && c ≤ '9') || c = '.'

/-- A run of digits and points. -/
def number : Reader := labelled .number (run .number isNumeric)

/-- A run of letters. -/
def functionName : Reader := labelled .functionName (run .functionName isLetter)

/-- An opening parenthesis. -/
def openParen : Reader := labelled .openParen (symbol .openParen '(')

/-- A closing parenthesis. -/
def closeParen : Reader := labelled .closeParen (symbol .closeParen ')')

/-- A sign, or the operator of a sum. -/
def plusOrMinus : Reader := symbol .plus '+' <|> symbol .minus '-'

/-- The operator of a product. -/
def timesOrOver : Reader := symbol .star '*' <|> symbol .slash '/'

/-- A sum of products of operands. -/
def expression (operand : Reader) : Reader :=
  labelled .expression (chain .expr (chain .term operand timesOrOver) plusOrMinus)

/-- A sign before an operand. -/
def signed (operand : Reader) : Reader := node .unary plusOrMinus [operand]

/-- An expression in parentheses. -/
def parenthesized (expression : Reader) : Reader :=
  node .parenExpr openParen [expression, closeParen]

/-- A function name before an expression in parentheses. -/
def call (expression : Reader) : Reader := node .function functionName [parenthesized expression]

/-- An operand inside which `levels - 1` more may be opened. -/
def operand : (levels : Nat) → Reader
  | 0 => tooDeep
  | levels + 1 =>
    let inner := operand levels
    let whole := expression inner
    nested <| node .factor
      (labelled .operand (call whole <|> signed inner <|> number <|> parenthesized whole)) []

/-- An expression inside `depth` open operands. -/
def expressionAt (depth : Nat) : Reader := expression (operand (maxDepth - depth))

end Reckoner.Grammar
