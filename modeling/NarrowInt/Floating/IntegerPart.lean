import NarrowInt.Carrier
import NarrowInt.Floating.Format

/-!
# The low bits of an integer part

A wrapping conversion needs only the low 32 bits of the integer part of a float, in two's
complement. They are read off the fields of the pattern: the significand, hidden bit included, is
shifted so that its units end at bit 0. Fraction bits fall off at the right; bits lost at the left
of the 64-bit word would have landed above the low 32; and from a shift of 32 places on, all the
low bits are zero.

## Main definitions

* `Alignment`: how the significand is shifted
* `Double.integerPart`: the low 32 bits of the integer part

## Main results

* `Alignment.right_le`, `Alignment.left_lt`: no shift moves all bits out of the 64-bit word
-/

namespace NarrowInt

/-- How a significand of 64 bits is shifted to bring its units to bit 0. -/
inductive Alignment
  | right (places : Nat)
  | left (places : Nat)
  | beyond
deriving DecidableEq

namespace Alignment

/-- The alignment of a significand with units of `2 ^ shift`. -/
def ofShift (shift : Int) : Alignment :=
  if shift < 0 then .right (-shift).toNat
  else if shift < 32 then .left shift.toNat
  else .beyond

/-- The low 32 bits of the shifted significand. -/
def apply (significand : BitVec 64) : Alignment → Carrier
  | .right n => (significand >>> n).setWidth 32
  | .left n => (significand <<< n).setWidth 32
  | .beyond => 0

theorem right_le {shift : Int} {n : Nat} (hs : -52 ≤ shift) (h : ofShift shift = .right n) :
    n ≤ 52 := by
  unfold ofShift at h
  split at h
  · cases h
    omega
  · split at h <;> cases h

theorem left_lt {shift : Int} {n : Nat} (h : ofShift shift = .left n) : n < 32 := by
  unfold ofShift at h
  split at h
  · cases h
  · split at h
    · cases h
      omega
    · cases h

end Alignment

namespace Double

variable (p : Double)

/-- Whether the sign bit is set. -/
def negative : Bool := p.msb

/-- The biased exponent field. -/
def exponentField : Nat := (p.extractLsb' 52 11).toNat

/-- The fraction field under its hidden bit. -/
def significand : BitVec 64 := (1 : BitVec 12) ++ p.extractLsb' 0 52

/-- Neither an infinity nor a NaN. -/
def isFinite : Bool := p.exponentField != 2047

/-- A finite number with a hidden bit: neither zero nor subnormal. -/
def isNormal : Bool := p.isFinite && p.exponentField != 0

/-- The exponent of the last place of a normal number. -/
def shift : Int := (p.exponentField : Int) - 1023 - 52

/-- The low 32 bits of the integer part, toward zero, in two's complement. An exponent field below
1023 means less than one in magnitude. -/
def integerPart : Carrier :=
  if p.exponentField < 1023 then 0
  else
    let magnitude := (Alignment.ofShift p.shift).apply p.significand
    if p.negative then -magnitude else magnitude

end Double

end NarrowInt
