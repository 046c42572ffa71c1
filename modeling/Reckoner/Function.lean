/-!
# Functions

The table of the functions that an expression may call.  An entry has a name, a description and
a template for completion; some entries guard their domain.  A guard compares, so it never refuses
a NaN or positive infinity.
-/

namespace Reckoner

/-- A restriction on the argument of a function. -/
inductive Guard where
  | rootOfNegative
  | logOfNonPositive
  deriving DecidableEq

namespace Guard

/-- The arguments that a guard keeps out. -/
def refuses : Guard → Float → Bool
  | rootOfNegative, x => decide (x < 0)
  | logOfNonPositive, x => decide (x ≤ 0)

/-- What a guard reports. -/
def message : Guard → String
  | rootOfNegative => "cannot take square root of a negative number"
  | logOfNonPositive => "cannot take logarithm of a non-positive number"

end Guard

/-- A function of one argument. -/
structure Function where
  name : String
  description : String
  compute : Float → Float
  guard : Option Guard

namespace Function

/-- The functions, in the order in which they are offered. -/
def table : List Function :=
  [⟨"sin", "sine (radians)", Float.sin, none⟩,
   ⟨"sqrt", "square root", Float.sqrt, some .rootOfNegative⟩,
   ⟨"cos", "cosine (radians)", Float.cos, none⟩,
   ⟨"tan", "tangent (radians)", Float.tan, none⟩,
   ⟨"log", "natural logarithm", Float.log, some .logOfNonPositive⟩]

/-- The function of a name. -/
def find? (name : String) : Option Function := table.find? (·.name == name)

/-- What completion inserts; `$1` marks where the cursor goes. -/
def template (f : Function) : String := f.name ++ "($1)"

/-- What a call of the function looks like up to its argument. -/
def opening (f : Function) : String := f.name ++ "("

/-- The value at `x`, unless the function's guard refuses `x`. -/
def apply (f : Function) (x : Float) : Except Guard Float :=
  match f.guard with
  | none => .ok (f.compute x)
  | some guard => if guard.refuses x then .error guard else .ok (f.compute x)

end Function

end Reckoner
