import Reckoner.Diagnostic
import Reckoner.Grammar.Expression

/-!
# Outcomes

What reading a whole text comes to.  The longest expression at the front of the text is
recognized, with the spaces after it; what follows is rejected, and nothing is recognized where
reading is refused.
-/

namespace Reckoner

/-- What is known after reading, the tree aside. -/
structure Issue where
  /-- An expression stands at the front of the text. -/
  succeeded : Bool
  /-- How many bytes are recognized. -/
  consumed : Nat
  /-- How many bytes there are. -/
  total : Nat
  /-- What was expected where reading was refused. -/
  expected : List String
  /-- The offset of an operand that is nested too deeply. -/
  tooDeepAt : Option Nat
  deriving DecidableEq, Inhabited

namespace Issue

/-- The whole text is an expression. -/
def isComplete (i : Issue) : Bool := i.succeeded && i.consumed == i.total

/-- What is not recognized. -/
def rejected (i : Issue) : Span := ⟨i.consumed, i.total⟩

/-- The report on what is not recognized. -/
def finding? (i : Issue) : Option Finding :=
  if i.consumed < i.total then some ⟨.unexpectedCharacters i.expected, i.rejected⟩ else none

/-- The diagnostic of what is not recognized. -/
def diagnostic? (i : Issue) (t : Text) : Option Diagnostic := i.finding?.map (·.diagnostic t)

end Issue

/-- The issue of reading, with the tree if there is one. -/
structure Outcome where
  issue : Issue
  root : Option Node
  deriving Inhabited

/-- Reads a whole text. -/
def parse (t : Text) : Outcome :=
  match (Grammar.expressionAt 0).read (.start t 0) with
  | .ok (root, rest) => ⟨⟨true, rest.skipSpaces.offset, t.size, [], none⟩, some root⟩
  | .error refusal => ⟨⟨false, 0, t.size, refusal.expected, refusal.tooDeepAt?⟩, none⟩

/-- Whether a part of a text is recognized. -/
inductive Recognition where
  | recognized
  | rejected
  deriving DecidableEq

/-- A part of a text and whether it is recognized. -/
structure Segment where
  span : Span
  recognition : Recognition
  deriving DecidableEq

/-- The parts of a text as an issue divides it; empty parts are left out. -/
def Issue.segments (i : Issue) : List Segment :=
  let bound := min i.consumed i.total
  (if 0 < bound then [⟨⟨0, bound⟩, .recognized⟩] else []) ++
    if bound < i.total then [⟨⟨bound, i.total⟩, .rejected⟩] else []

end Reckoner
