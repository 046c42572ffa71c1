import Reckoner.Function
import Reckoner.Grammar.Expression
import Reckoner.Text.Position

/-!
# Completion

The functions whose names begin with the word before the cursor, case aside, in the order of the
table.  No word begins every name.
-/

namespace Reckoner

namespace Text

/-- The characters of a text that stands at an offset, each with the offset at which it starts. -/
def indexed : (offset : Nat) → Text → List (Nat × Char)
  | _, [] => []
  | o, c :: t => (o, c) :: indexed (o + c.utf8Size) t

/-- Where the run of letters at the end of a text starts.  On the way back from the end its first
letter is the last one that is met; without a letter it starts where the text ends. -/
def lastWordStart (t : Text) : Nat :=
  match ((t.indexed 0).reverse.takeWhile fun (_, c) => Grammar.isLetter c).getLast? with
  | some (o, _) => o
  | none => t.size

/-- The run of letters at the end of a text. -/
def lastWord (t : Text) : Text := (t.dropBytes? t.lastWordStart).getD []

end Text

namespace Completion

/-- The word that ends at an offset. -/
def wordAt (t : Text) (offset : Nat) : Text := ((t.takeBytes? offset).getD []).lastWord

/-- The functions to offer at an offset. -/
def atOffset (t : Text) (offset : Nat) : List Function :=
  let word := (wordAt t offset).map Char.toLower
  Function.table.filter fun f => word.isPrefixOf f.name.toList

/-- The functions to offer at a place; none if the place is not in the text. -/
def atPosition (t : Text) (p : Position) : List Function :=
  match t.offsetOf? p with
  | none => []
  | some offset => atOffset t offset

/-- The functions to offer at the end of a text. -/
def atEnd (t : Text) : List Function := atOffset t t.size

/-- The letters at which offering functions begins: the initials of their names, each once. -/
def triggers : List Char := (Function.table.filterMap fun f => f.name.toList.head?).eraseDups

end Completion

end Reckoner
