import NarrowInt.Floating.IntegerPart
import NarrowInt.Floating.Rounding
import NarrowInt.Number.Basic

/-!
# Numbers, machine integers and floats

A machine integer type has a number of bits and a signedness. Its integers become numbers by way of
the carrier: a narrower integer is extended according to its own signedness, a wider one loses its
high bits, and the junk bits of the result are ignored.

A number converts exactly to a float of 64 bits, and from there to one of 32 bits with a single
rounding. A float converts back by its integer part, wrapped modulo `2 ^ w` at any magnitude; NaNs
and infinities convert to zero.

## Main definitions

* `MachineType`: a number of bits and a signedness
* `MachineType.Represents`: the integers of the type
* `MachineType.toCarrier`: the low 32 bits of a machine integer
* `Number.ofMachine`: the number of a machine integer
* `Number.toDouble`, `Number.toSingle`: the float nearest to the logical value
* `Number.ofDouble`, `Number.ofSingle`: the number of the integer part of a float
* `Number.scaled`: the logical value times a float, rounded once
-/

namespace NarrowInt

/-! ## Machine integers -/

/-- A type of machine integers in two's complement. -/
structure MachineType where
  bits : Nat
  signed : Bool
deriving DecidableEq

namespace MachineType

variable (t : MachineType)

/-- The bit pattern of an integer of the type. -/
def encode (v : Int) : BitVec t.bits := BitVec.ofInt t.bits v

/-- The integer of a bit pattern. -/
def decode (x : BitVec t.bits) : Int := if t.signed then x.toInt else x.toNat

/-- The integer is one of the type's. -/
def Represents (v : Int) : Prop := t.decode (t.encode v) = v

instance (v : Int) : Decidable (t.Represents v) :=
  inferInstanceAs (Decidable (t.decode (t.encode v) = v))

/-- The machine integer in a carrier: sign- or zero-extended when it is narrower, cut to its low
bits when it is wider. -/
def toCarrier (x : BitVec t.bits) : Carrier :=
  if t.signed then x.signExtend 32 else x.setWidth 32

end MachineType

/-- The number of a machine integer, wrapped modulo `2 ^ w` into the domain. -/
def Number.ofMachine {F : Family} (t : MachineType) (x : BitVec t.bits) : Number F :=
  ofCarrier (t.toCarrier x)

/-! ## Floats -/

/-- The 64-bit float of the same value; every 32-bit float has one. -/
def Single.toDouble (p : Single) : Double := Double.ofDatum p.datum

/-- The nearest 32-bit float. -/
def Double.toSingle (p : Double) : Single := Single.ofDatum p.datum

/-- The product, rounded to the nearest 64-bit float. -/
def Double.mul (p q : Double) : Double := Double.ofDatum (p.datum * q.datum)

namespace Number

variable {F : Family}

/-- The logical value as a 64-bit float, which holds it exactly. -/
def toDouble (x : Number F) : Double := Double.ofDatum (.ofInt x.value)

/-- The 32-bit float nearest to the logical value. -/
def toSingle (x : Number F) : Single := x.toDouble.toSingle

/-- The number of the integer part of a float, toward zero and modulo `2 ^ w`. Only a normal number
has an integer part other than zero. -/
def ofDouble (p : Double) : Number F :=
  if p.isNormal then ofCarrier p.integerPart else zero

/-- The number of the integer part of a 32-bit float. -/
def ofSingle (p : Single) : Number F := ofDouble p.toDouble

/-- The logical value times a 32-bit float, as one product of 64-bit floats. -/
def scaled (x : Number F) (k : Single) : Double := x.toDouble.mul k.toDouble

end Number

end NarrowInt
