import Reckoner.Text.Basic
import Reckoner.Number.Magnitude

/-!
# Decimals

A decimal is a whole coefficient times a power of ten.  Here are its written form, without an
exponent, the magnitude it stands for, and the way back: the decimal with the fewest digits that
stands for a magnitude, and of those the nearest one.
-/

namespace Reckoner

/-- The number `coefficient * 10 ^ exponent`. -/
structure Decimal where
  coefficient : Nat
  exponent : Int
  deriving DecidableEq, Inhabited

namespace Decimal

-- Powers are those of the core library, whatever else is in scope.
attribute [local instance(high)] instPowNat

/-- The character of a digit. -/
def digitChar (d : Nat) : Char := Char.ofNat ('0'.toNat + d)

/-- The decimal digits of a number, without leading zeros. -/
def digits (n : Nat) : Text :=
  if n < 10 then [digitChar n] else digits (n / 10) ++ [digitChar (n % 10)]

/-- The number that a run of digits writes. -/
def ofDigits (t : Text) : Nat := t.foldl (fun n c => 10 * n + (c.toNat - '0'.toNat)) 0

/-- The number of digits before the point when the first digit is not zero; less than one if
zeros follow the point. -/
def pointPlace (d : Decimal) : Int := (digits d.coefficient).length + d.exponent

/-- The written form without exponent: zeros fill up to the point on either side. -/
def positional (d : Decimal) : Text :=
  match d.exponent with
  | .ofNat zeros => digits d.coefficient ++ List.replicate zeros '0'
  | .negSucc k =>
    let places := k + 1
    let bare := digits d.coefficient
    let padded := List.replicate (places + 1 - bare.length) '0' ++ bare
    padded.take (padded.length - places) ++ '.' :: padded.drop (padded.length - places)

/-- The magnitude nearest to a decimal.  Decimals from `10 ^ 310` on are beyond the finite ones
and those below `10 ^ -330` are nearest to zero, so no large power is formed for them. -/
def magnitude (d : Decimal) : Nat :=
  if d.coefficient = 0 then 0
  else if 310 ≤ d.exponent then Magnitude.infinity
  else if d.exponent + d.coefficient.log2 + 1 < -330 then 0
  else
    match d.exponent with
    | .ofNat e => Magnitude.nearest (d.coefficient * 10 ^ e) 1
    | .negSucc k => Magnitude.nearest d.coefficient (10 ^ (k + 1))

/-- The exact value of a finite magnitude. -/
def exact (n : Nat) : Decimal :=
  ⟨Magnitude.units n * 5 ^ Magnitude.places, -Magnitude.places⟩

/-- The multiple of `10 ^ exponent` that stands for magnitude `n`, if one does: the nearer of the
two around the value, the upper one when both are equally near. -/
def onGrid? (n : Nat) (exponent : Int) : Option Decimal :=
  let num := Magnitude.units n * 10 ^ (-exponent).toNat
  let den := Magnitude.unitsPerOne * 10 ^ exponent.toNat
  let below : Decimal := ⟨num / den, exponent⟩
  let above : Decimal := ⟨num / den + 1, exponent⟩
  if below.magnitude = n ∧ (above.magnitude ≠ n ∨ 2 * (num % den) < den) then some below
  else if above.magnitude = n then some above
  else none

/-- The decimal with the fewest digits that stands for a finite magnitude: the first hit on ever
finer grids of multiples of a power of ten, from one beyond the value on. -/
def shortest (n : Nat) : Decimal :=
  if n = 0 then ⟨0, 0⟩
  else
    -- eight to the power of `top` is already beyond the value
    let top := (Magnitude.units n / Magnitude.unitsPerOne).log2 / 3 + 1
    let grids := List.range (top + Magnitude.places)
    (grids.findSome? fun (i : Nat) => onGrid? n (top - i)).getD (exact n)

/-- A decimal on the grid has the magnitude it was found for. -/
theorem magnitude_of_onGrid? {n : Nat} {exponent : Int} {d : Decimal}
    (h : onGrid? n exponent = some d) : d.magnitude = n := by
  simp only [onGrid?] at h
  split at h
  case isTrue below =>
    cases h
    exact below.1
  case isFalse =>
    split at h
    case isTrue above =>
      cases h
      exact above
    case isFalse => cases h

end Decimal

end Reckoner
