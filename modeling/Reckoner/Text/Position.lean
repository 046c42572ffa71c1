import Reckoner.Text.Basic

/-!
# Positions

Where an offset falls on the page: lines and columns count from zero, columns count characters,
and a line feed ends its line.  An offset beyond the end stands at the end, one inside a character
after that character.  The way back is partial: a position beyond the end of a line is nowhere.
-/

namespace Reckoner

/-- A place on the page. -/
structure Position where
  line : Nat
  column : Nat
  deriving DecidableEq, Inhabited

/-- The places from `start` up to `stop`. -/
structure Range where
  start : Position
  stop : Position
  deriving DecidableEq, Inhabited

namespace Position

/-- Where a text begins. -/
def origin : Position := ⟨0, 0⟩

/-- The place after one more character. -/
def advance (p : Position) (c : Char) : Position :=
  if c = '\n' then ⟨p.line + 1, 0⟩ else ⟨p.line, p.column + 1⟩

/-- The place after a text that begins at `p`. -/
def after (p : Position) (t : Text) : Position := t.foldl advance p

@[simp] theorem after_nil (p : Position) : p.after [] = p := rfl

@[simp] theorem after_cons (p : Position) (c : Char) (t : Text) :
    p.after (c :: t) = (p.advance c).after t := rfl

/-- A text in two parts leads on by the first and then by the second. -/
@[simp] theorem after_append (p : Position) (s t : Text) :
    p.after (s ++ t) = (p.after s).after t := List.foldl_append

end Position

namespace Text

/-- The characters that start before offset `k`. -/
def startingBefore : Nat → Text → Text
  | 0, _ => []
  | _ + 1, [] => []
  | k + 1, c :: rest => c :: startingBefore (k + 1 - c.utf8Size) rest

/-- The place of an offset. -/
def positionAt (t : Text) (offset : Nat) : Position :=
  Position.origin.after (startingBefore offset t)

/-- The places that a span covers. -/
def rangeOf (t : Text) (span : Span) : Range :=
  ⟨t.positionAt span.start, t.positionAt span.stop⟩

/-- The offset of `target` in a text that begins at place `here` and at offset `offset`. -/
def offsetFrom (here : Position) (offset : Nat) (target : Position) : Text → Option Nat
  | [] => if here = target then some offset else none
  | c :: rest =>
    if here = target then some offset
    else offsetFrom (here.advance c) (offset + c.utf8Size) target rest

/-- The offset that stands at a place, the end of the text included. -/
def offsetOf? (t : Text) (p : Position) : Option Nat := offsetFrom .origin 0 p t

end Text

end Reckoner
