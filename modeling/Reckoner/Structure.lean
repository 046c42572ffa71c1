import Reckoner.Diagnostic
import Reckoner.Text.Alphabetic
import Reckoner.Text.Blank

/-!
# Structural findings

What the raw characters of a text show to be wrong, whether or not the grammar can read it.

One pass keeps the stack of the parentheses that are open.  A closing one without partner is found
where it stands; those that are never closed are found at the end, the innermost first.

Another pass looks for operators without a right operand.  An operator counts as binary when the
character before it, blanks aside, could end an operand; it lacks its right operand when the text
ends after it or goes on with a character that cannot start one.  A sign may follow, and an operator
at the start of the text is taken for a sign and passed over.
-/

namespace Reckoner.Structure

/-- The unmatched parentheses of a text that begins at `offset`, when those at the offsets `opened`
are open, the innermost first. -/
def unmatchedFrom (opened : List Nat) (offset : Nat) : Text → List Finding
  | [] => opened.map fun o => ⟨.neverClosed, .ofChar o '('⟩
  | c :: rest =>
    let next := offset + c.utf8Size
    if c = '(' then unmatchedFrom (offset :: opened) next rest
    else if c = ')' then
      match opened with
      | [] => ⟨.orphanClosing, .ofChar offset c⟩ :: unmatchedFrom [] next rest
      | _ :: outer => unmatchedFrom outer next rest
    else unmatchedFrom opened next rest

/-- The parentheses without partner. -/
def unmatchedParentheses (t : Text) : List Finding := unmatchedFrom [] 0 t

/-- The characters that may join two operands. -/
def isBinaryOperator (c : Char) : Bool := c = '+' || c = '-' || c = '*' || c = '/'

/-- The characters that may end an operand. -/
def endsOperand (c : Char) : Bool :=
  ('0' ≤ c && c ≤ '9') || isAlphabetic c || c = '.' || c = ')'

/-- The text goes on, and not with a character that only follows an operand. -/
def startsOperand (rest : Text) : Bool :=
  match rest.dropWhile isBlank with
  | [] => false
  | c :: _ => !(c = ')' || c = '*' || c = '/')

/-- The incomplete operators of a text that begins at `offset`, after the non-blank character
`before` if there is one. -/
def danglingFrom (before : Option Char) (offset : Nat) : Text → List Finding
  | [] => []
  | c :: rest =>
    let others := danglingFrom (if isBlank c then before else some c) (offset + c.utf8Size) rest
    if isBinaryOperator c && before.any endsOperand && !startsOperand rest then
      ⟨.missingOperand c, .ofChar offset c⟩ :: others
    else others

/-- The binary operators without a right operand. -/
def danglingOperators (t : Text) : List Finding := danglingFrom none 0 t

/-- What is wrong with a text as far as its raw characters show: the unmatched parentheses, then the
operators without a right operand. -/
def findings (t : Text) : List Finding := unmatchedParentheses t ++ danglingOperators t

end Reckoner.Structure
