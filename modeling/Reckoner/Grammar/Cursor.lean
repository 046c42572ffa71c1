import Reckoner.Text.Basic
import Reckoner.Text.Blank

/-!
# Cursors

Where reading a text has got to: what remains, its offset in the text, and how many operands are
open around it.
-/

namespace Reckoner

/-- A place in a text that is being read. -/
structure Cursor where
  rest : Text
  offset : Nat
  depth : Nat
  deriving DecidableEq

namespace Cursor

/-- The beginning of a text, inside `depth` open operands. -/
def start (t : Text) (depth : Nat) : Cursor := ⟨t, 0, depth⟩

/-- The cursor after the next `n` characters. -/
def advance (c : Cursor) (n : Nat) : Cursor :=
  ⟨c.rest.drop n, c.offset + Text.size (c.rest.take n), c.depth⟩

/-- The cursor after the spaces that come next. -/
def skipSpaces (c : Cursor) : Cursor := c.advance (c.rest.takeWhile isSpace).length

/-- The text of a span that does not start before the cursor. -/
def extract (c : Cursor) (span : Span) : Text :=
  c.rest.slice ⟨span.start - c.offset, span.stop - c.offset⟩

/-- Going on shortens what remains. -/
@[simp] theorem length_advance (c : Cursor) (n : Nat) :
    (c.advance n).rest.length = c.rest.length - n := List.length_drop

/-- Skipping spaces does not lengthen what remains. -/
theorem length_skipSpaces_le (c : Cursor) : c.skipSpaces.rest.length ≤ c.rest.length := by
  simp [skipSpaces]

end Cursor

end Reckoner
