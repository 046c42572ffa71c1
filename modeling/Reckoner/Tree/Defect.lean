import Reckoner.Tree.Rule

/-!
# Defects of parse trees

What can make a parse tree unfit to be read as an expression.  Trees that come from the grammar
have no defect; trees made by hand may.
-/

namespace Reckoner

/-- A part that a node should have. -/
inductive Part where
  | firstOperand
  | operator
  | rightOperand
  | sign
  | operand
  | functionName
  | argument
  | innerExpression
  | alternative
  deriving DecidableEq

/-- What a part is called. -/
def Part.name : Part → String
  | firstOperand => "first operand"
  | operator => "operator"
  | rightOperand => "right operand"
  | sign => "sign"
  | operand => "operand"
  | functionName => "function name"
  | argument => "argument"
  | innerExpression => "inner expression"
  | alternative => "alternative"

/-- Why a node is not an expression. -/
inductive Defect where
  | missing (rule : Rule) (part : Part)
  | unexpected (rule : Rule)
  deriving DecidableEq

/-- The report of a defect. -/
def Defect.message : Defect → String
  | missing rule part => "incomplete parse tree: " ++ rule.name ++ " without " ++ part.name
  | unexpected rule => "unexpected parse tree node: " ++ rule.name

end Reckoner
