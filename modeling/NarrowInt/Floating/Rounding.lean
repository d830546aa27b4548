import NarrowInt.Floating.Format

/-!
# Rounding to nearest

A number that a format does not hold is rounded to the nearest number it does hold, a tie going to
the one with an even last digit; beyond the largest one it becomes an infinity. The patterns of the
nonnegative numbers ascend with the numbers, so a significand that rounds up to the next power of
two carries into the exponent field by itself.

## Main definitions

* `roundShift`: a quotient by a power of two, rounded to nearest, ties to even
* `Format.lastPlace`: the exponent of the last place that the format keeps of a number
* `Format.round`: the pattern of the magnitude nearest to `m * 2 ^ e`
* `Format.encode`: the pattern nearest to a datum
* `Single.ofDatum`, `Double.ofDatum`: the same at 32 and at 64 bits
-/

namespace NarrowInt

/-- The integer nearest to `m / 2 ^ k`, the even one on a tie. -/
def roundShift (m k : Nat) : Nat :=
  let quotient := m >>> k
  let rest := m % (1 <<< k)
  if 2 * rest < 1 <<< k then quotient
  else if 1 <<< k < 2 * rest then quotient + 1
  else quotient + quotient % 2

@[simp] theorem roundShift_zero (m : Nat) : roundShift m 0 = m := by
  simp [roundShift, Nat.mod_one]

namespace Format

variable (f : Format)

/-- The exponent of the last place that the format keeps of `m * 2 ^ e`. -/
def lastPlace (m : Nat) (e : Int) : Int :=
  max f.minExponent (e + m.log2 - f.fractionBits)

/-- The significand of `m * 2 ^ e` at the last place `q`, rounded to nearest, ties to even. -/
def significandAt (m : Nat) (e q : Int) : Nat :=
  if e ≤ q then roundShift m (q - e).toNat else m <<< (e - q).toNat

/-- The pattern, its sign bit clear, of the magnitude nearest to `m * 2 ^ e`. -/
def round (m : Nat) (e : Int) : Nat :=
  if m = 0 then 0
  else
    let q := f.lastPlace m e
    min f.infinity ((q - f.minExponent).toNat <<< f.fractionBits + significandAt m e q)

/-- The pattern nearest to a datum. -/
def encode : Datum → Nat
  | .nan => f.infinity + 1 <<< (f.fractionBits - 1)
  | .infinite s => (if s then f.signWeight else 0) + f.infinity
  | .finite s m e => (if s then f.signWeight else 0) + f.round m e

end Format

/-- The pattern of 32 bits nearest to a datum. -/
def Single.ofDatum (d : Datum) : Single := BitVec.ofNat 32 (Format.single.encode d)

/-- The pattern of 64 bits nearest to a datum. -/
def Double.ofDatum (d : Datum) : Double := BitVec.ofNat 64 (Format.double.encode d)

end NarrowInt
