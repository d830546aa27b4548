/-!
# Binary interchange formats

A floating-point pattern denotes a NaN, an infinity, or a signed multiple of a power of two; zero
keeps its sign. A pattern of a binary format is a sign bit, a biased exponent field and a fraction
field, from the top. The exponent field of all ones marks the infinities and the NaNs; the exponent
field 0 marks zero and the subnormal numbers, which have no hidden bit; every other pattern is a
normal number.

## Main definitions

* `Datum`: a NaN, an infinity or a finite number
* `Datum.ofInt`: an integer, exactly
* `Datum.truncate`: the integer part, toward zero
* `Datum.mul`: the exact product
* `Format`, `Format.single`, `Format.double`: the sizes of the two fields
* `Format.decode`: what a pattern denotes
* `Single`, `Double`: patterns of 32 and of 64 bits
-/

namespace NarrowInt

/-! ## Data -/

/-- What a floating-point pattern denotes: `finite negative m e` is `m * 2 ^ e`, negated when
`negative` is set. -/
inductive Datum
  | nan
  | infinite (negative : Bool)
  | finite (negative : Bool) (significand : Nat) (exponent : Int)
deriving DecidableEq

namespace Datum

/-- The integer `v`; zero has no sign. -/
def ofInt (v : Int) : Datum := .finite (decide (v < 0)) v.natAbs 0

/-- The magnitude `m * 2 ^ e` without its fraction. -/
def floorScaled (m : Nat) (e : Int) : Nat :=
  if 0 ≤ e then m <<< e.toNat else m >>> (-e).toNat

/-- The integer part, toward zero; a NaN and the infinities have the integer part 0. -/
def truncate : Datum → Int
  | .finite false m e => floorScaled m e
  | .finite true m e => -floorScaled m e
  | _ => 0

/-- The exact product. A product of an infinity and zero is a NaN. -/
def mul : Datum → Datum → Datum
  | .finite s m e, .finite t n f => .finite (s ^^ t) (m * n) (e + f)
  | .infinite s, .infinite t => .infinite (s ^^ t)
  | .infinite s, .finite t n _ => if n = 0 then .nan else .infinite (s ^^ t)
  | .finite s m _, .infinite t => if m = 0 then .nan else .infinite (s ^^ t)
  | .nan, _ => .nan
  | _, .nan => .nan

instance : Mul Datum := ⟨mul⟩

@[simp] theorem truncate_ofInt (v : Int) : (ofInt v).truncate = v := by
  have h₀ : floorScaled v.natAbs 0 = v.natAbs := rfl
  by_cases h : v < 0
  · have : ofInt v = .finite true v.natAbs 0 := by simp only [ofInt, h, decide_true]
    rw [this, truncate, h₀]
    omega
  · have : ofInt v = .finite false v.natAbs 0 := by simp only [ofInt, h, decide_false]
    rw [this, truncate, h₀]
    omega

end Datum

/-! ## Formats -/

/-- The sizes of the exponent field and of the fraction field. -/
structure Format where
  exponentBits : Nat
  fractionBits : Nat
deriving DecidableEq

namespace Format

/-- The format of 32 bits. -/
def single : Format := ⟨8, 23⟩

/-- The format of 64 bits. -/
def double : Format := ⟨11, 52⟩

variable (f : Format)

/-- The excess of the exponent field of a normal number over its exponent. -/
def bias : Nat := 1 <<< (f.exponentBits - 1) - 1

/-- The exponent of the last place of the subnormal numbers. -/
def minExponent : Int := 1 - (f.bias : Int) - f.fractionBits

/-- The weight of the sign bit. -/
def signWeight : Nat := 1 <<< (f.exponentBits + f.fractionBits)

/-- The exponent field of the infinities and the NaNs. -/
def maxField : Nat := 1 <<< f.exponentBits - 1

/-- The pattern of positive infinity. -/
def infinity : Nat := f.maxField <<< f.fractionBits

/-- Whether the sign bit of a pattern is set. -/
def negative (p : Nat) : Bool := p.testBit (f.exponentBits + f.fractionBits)

/-- The exponent field of a pattern. -/
def exponentField (p : Nat) : Nat := (p >>> f.fractionBits) % (1 <<< f.exponentBits)

/-- The fraction field of a pattern. -/
def fractionField (p : Nat) : Nat := p % (1 <<< f.fractionBits)

/-- What a pattern denotes. -/
def decode (p : Nat) : Datum :=
  if f.exponentField p = f.maxField then
    if f.fractionField p = 0 then .infinite (f.negative p) else .nan
  else if f.exponentField p = 0 then
    .finite (f.negative p) (f.fractionField p) f.minExponent
  else
    .finite (f.negative p) (1 <<< f.fractionBits + f.fractionField p)
      (f.minExponent + f.exponentField p - 1)

end Format

/-- A pattern of the format of 32 bits. -/
abbrev Single := BitVec 32

/-- A pattern of the format of 64 bits. -/
abbrev Double := BitVec 64

/-- What a pattern of 32 bits denotes. -/
def Single.datum (p : Single) : Datum := Format.single.decode p.toNat

/-- What a pattern of 64 bits denotes. -/
def Double.datum (p : Double) : Datum := Format.double.decode p.toNat

end NarrowInt
