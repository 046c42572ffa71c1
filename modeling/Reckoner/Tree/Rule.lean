/-!
# Grammar rules

The rules whose applications are the nodes of a parse tree.  The composite rules are

* `expr := term repetition`, `repetition := link*`, `link := (plus | minus) term`;
* `term := factor repetition`, `repetition := link*`, `link := (star | slash) factor`;
* `factor := function | unary | number | parenExpr`;
* `unary := (plus | minus) factor`;
* `function := functionName parenExpr`;
* `parenExpr := openParen expr closeParen`;

and the others are the tokens.
-/

namespace Reckoner

/-- The rule that a node of a parse tree applies. -/
inductive Rule where
  | expr
  | term
  | repetition
  | link
  | factor
  | unary
  | function
  | parenExpr
  | number
  | plus
  | minus
  | star
  | slash
  | functionName
  | openParen
  | closeParen
  deriving DecidableEq, Inhabited

namespace Rule

/-- Every rule. -/
def all : List Rule :=
  [expr, term, repetition, link, factor, unary, function, parenExpr, number, plus, minus, star,
   slash, functionName, openParen, closeParen]

/-- The name under which reports mention a rule. -/
def name : Rule → String
  | expr => "Expr"
  | term => "Term"
  | repetition => "Repetition"
  | link => "Maillon"
  | factor => "Factor"
  | unary => "Unary"
  | function => "Function"
  | parenExpr => "ParenExpr"
  | number => "Number"
  | plus => "Plus"
  | minus => "Minus"
  | star => "Star"
  | slash => "Slash"
  | functionName => "NomFonction"
  | openParen => "ParenOuvrante"
  | closeParen => "ParenFermante"

/-- The tokens that stand between two operands. -/
def isOperator : Rule → Bool
  | plus | minus | star | slash => true
  | _ => false

/-- The tokens that may stand before a single operand. -/
def isSign : Rule → Bool
  | plus | minus => true
  | _ => false

end Rule

end Reckoner
