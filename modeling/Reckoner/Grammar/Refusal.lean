/-!
# Refusals

What a reader answers when the text does not go on as its rule asks: the named constructs it was
in, innermost first, each with the offset where it began.  A final refusal is not taken for the
absence of an optional part: no alternative is tried after it.
-/

namespace Reckoner

/-- A construct that reports name. -/
inductive Label where
  | number
  | functionName
  | openParen
  | closeParen
  | operand
  | expression
  | nestingDepth
  deriving DecidableEq

/-- What a construct is called. -/
def Label.name : Label → String
  | number => "number"
  | functionName => "function name"
  | openParen => "'('"
  | closeParen => "')'"
  | operand => "operand"
  | expression => "expression"
  | nestingDepth => "nesting depth"

/-- Why reading stopped. -/
structure Refusal where
  isFinal : Bool
  trail : List (Nat × Label)
  deriving DecidableEq

namespace Refusal

/-- The same refusal inside one more construct. -/
def within (r : Refusal) (offset : Nat) (label : Label) : Refusal :=
  { r with trail := r.trail ++ [(offset, label)] }

/-- The constructs that were expected, each once, innermost first. -/
def expected (r : Refusal) : List String := (r.trail.map fun step => step.2.name).eraseDups

/-- The offset of the operand that was one too deep. -/
def tooDeepAt? (r : Refusal) : Option Nat :=
  (r.trail.find? fun step => step.2 = .nestingDepth).map (·.1)

end Refusal

end Reckoner
