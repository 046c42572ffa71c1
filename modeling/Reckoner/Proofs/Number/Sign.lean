import Mathlib
import Reckoner.Number.Magnitude

/-!
# Signs

A double is a sign and a magnitude.  The bits of a double fall into a sign, an exponent and a
mantissa; the last two are the magnitude, and a double is finite if its magnitude is a finite one
(`isFinite_iff`).  Negating a double changes the sign alone, so a finite double is the double of
its magnitude or the negative of that (`toFloat_ofFloat`, `neg_toFloat_ofFloat`).
-/

namespace Reckoner.Magnitude

open Float.Model (Format)
open Float.Model.UnpackedFloat

-- Powers are those of the core library, whatever else is in scope.
attribute [local instance(high)] instPowNat

variable {s : Sign} {e : BitVec 11} {m : BitVec 52} {x : Float}

/-- The double with a sign, an exponent and a mantissa. -/
def ofParts (s : Sign) (e : BitVec 11) (m : BitVec 52) : Float :=
  .ofBits (.ofBitVec (packComponents .binary64 s e m))

/-- The bits of a double count the sign, the exponent and the mantissa. -/
lemma toNat_packComponents : (packComponents .binary64 s e m).toNat =
    s.toBitVec.toNat * 2 ^ (63 : Nat) + (e.toNat * 2 ^ (52 : Nat) + m.toNat) := by
  have bits : packComponents .binary64 s e m = s.toBitVec ++ e ++ m := rfl
  rw [bits, BitVec.toNat_append, BitVec.toNat_append, ← Nat.shiftLeft_add_eq_or_of_lt m.isLt,
    ← Nat.shiftLeft_add_eq_or_of_lt e.isLt, Nat.shiftLeft_eq, Nat.shiftLeft_eq]
  omega

/-- The magnitude of an exponent and a mantissa is the positive double of them. -/
lemma toFloat_parts : toFloat (e.toNat * 2 ^ (52 : Nat) + m.toNat) = ofParts .positive e m := by
  have exponent := e.isLt
  have mantissa := m.isLt
  have small : e.toNat * 2 ^ (52 : Nat) + m.toNat < 2 ^ (64 : Nat) := by omega
  apply congrArg Float.ofBits
  apply UInt64.toNat_inj.mp
  calc
    _ = e.toNat * 2 ^ (52 : Nat) + m.toNat := UInt64.toNat_ofNat_of_lt small
    _ = (packComponents .binary64 .positive e m).toNat := by
      rw [toNat_packComponents]
      exact (Nat.zero_add _).symm

/-- The bits of a double are a sign, an exponent and a mantissa. -/
def HasParts (x : Float) (s : Sign) (e : BitVec 11) (m : BitVec 52) : Prop :=
  x.toBits.toBitVec = packComponents .binary64 s e m

/-- Every double has a sign, an exponent and a mantissa. -/
lemma exists_parts (x : Float) : ∃ s e m, HasParts x s e m := by
  let bits : BitVec Format.binary64.numBits := x.toBits.toBitVec
  exact ⟨_, _, _, (packComponents_unpackSign_unpackExponent_unpackMantissa bits).symm⟩

/-- A double is the one of its parts. -/
lemma HasParts.eq (parts : HasParts x s e m) : x = ofParts s e m := by
  rw [ofParts, ← parts]
  exact x.ofBits_toBits.symm

/-- Bits without the largest exponent are those of the double that they make. -/
lemma hasParts_ofParts (finite : e ≠ -1#11) : HasParts (ofParts s e m) s e m := by
  have number : isNaNBits (packComponents Format.binary64 s e m) = false := by
    apply decide_eq_false
    intro ⟨largest, _⟩
    rw [unpackExponent_packComponents] at largest
    exact finite largest
  have bits := pack_unpack (packComponents Format.binary64 s e m) (by decide)
  rw [number, if_neg Bool.false_ne_true] at bits
  exact bits

/-- Negation changes the sign and no other part. -/
lemma neg_unpack : (unpack Format.binary64 (packComponents .binary64 s e m)).neg =
    unpack Format.binary64 (packComponents .binary64 (-s) e m) := by
  unfold unpack
  simp only [unpackExponent_packComponents, unpackMantissa_packComponents,
    unpackSign_packComponents, Sign.ofBitVec_toBitVec]
  split_ifs <;> rfl

/-- Negating a double flips the sign alone. -/
lemma neg_ofParts (finite : e ≠ -1#11) : -ofParts s e m = ofParts (-s) e m := by
  apply Float.toBits_inj.mp
  apply UInt64.toBitVec_inj.mp
  have parts : HasParts (ofParts s e m) s e m := hasParts_ofParts finite
  calc
    (-ofParts s e m).toBits.toBitVec
      = (unpack Format.binary64 (ofParts s e m).toBits.toBitVec).neg.pack .binary64 := rfl
    _ = (unpack Format.binary64 (packComponents .binary64 (-s) e m)).pack .binary64 := by
      rw [parts, neg_unpack]
    _ = (ofParts (-s) e m).toBits.toBitVec := rfl

/-- A double is finite unless its exponent is the largest. -/
lemma HasParts.isFinite_iff (parts : HasParts x s e m) : x.isFinite = true ↔ e ≠ -1#11 := by
  have finite :
      x.isFinite = (unpack Format.binary64 (packComponents .binary64 s e m)).isFinite := by
    rw [← parts]
    rfl
  rw [finite]
  unfold unpack
  simp only [unpackExponent_packComponents, unpackMantissa_packComponents]
  split_ifs <;> simp_all [isFinite]

/-- The bits of a double count its parts. -/
lemma HasParts.toNat (parts : HasParts x s e m) : x.toBits.toNat =
    s.toBitVec.toNat * 2 ^ (63 : Nat) + (e.toNat * 2 ^ (52 : Nat) + m.toNat) :=
  (congrArg BitVec.toNat parts).trans toNat_packComponents

/-- The magnitude of a double counts its exponent and its mantissa. -/
lemma HasParts.ofFloat (parts : HasParts x s e m) :
    ofFloat x = e.toNat * 2 ^ (52 : Nat) + m.toNat := by
  have exponent := e.isLt
  have mantissa := m.isLt
  rw [Magnitude.ofFloat, parts.toNat]
  omega

/-- A double is negative if its sign is. -/
lemma HasParts.isNegative_iff (parts : HasParts x s e m) :
    isNegative x = true ↔ s = .negative := by
  have exponent := e.isLt
  have mantissa := m.isLt
  rw [isNegative, decide_eq_true_iff, parts.toNat]
  cases s with
  | negative => exact iff_of_true (Nat.le_add_right _ _) rfl
  | positive =>
    have plus : Sign.positive.toBitVec.toNat = 0 := rfl
    exact iff_of_false (by omega) nofun

/-- A double is finite if its magnitude is. -/
lemma isFinite_iff (x : Float) : x.isFinite = true ↔ ofFloat x < infinity := by
  obtain ⟨s, e, m, parts⟩ := exists_parts x
  rw [parts.isFinite_iff, parts.ofFloat, infinity, Ne, ← BitVec.toNat_inj]
  have exponent := e.isLt
  have mantissa := m.isLt
  have largest : (-1#11).toNat = 2047 := rfl
  omega

/-- A double without a sign is that of its magnitude. -/
lemma toFloat_ofFloat (plus : isNegative x = false) : toFloat (ofFloat x) = x := by
  obtain ⟨s, e, m, parts⟩ := exists_parts x
  rw [parts.ofFloat, toFloat_parts, parts.eq]
  cases s with
  | negative => cases plus.symm.trans (parts.isNegative_iff.mpr rfl)
  | positive => rfl

/-- A finite double with a sign is the negative of that of its magnitude. -/
lemma neg_toFloat_ofFloat (finite : x.isFinite = true) (minus : isNegative x = true) :
    -toFloat (ofFloat x) = x := by
  obtain ⟨s, e, m, parts⟩ := exists_parts x
  have other : e ≠ -1#11 := parts.isFinite_iff.mp finite
  rw [parts.ofFloat, toFloat_parts, neg_ofParts other, parts.eq, parts.isNegative_iff.mp minus]
  rfl

end Reckoner.Magnitude
