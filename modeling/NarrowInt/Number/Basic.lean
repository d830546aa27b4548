import NarrowInt.Carrier
import NarrowInt.Text.Numeral

/-!
# Numbers

A number of a family is held in its canonical carrier. Two numbers are equal exactly when their
carriers are, so the junk bits of the carriers they were read from never matter. A number is written
as its logical value in decimal, or, in diagnostics, as the bits of its carrier with an underscore
between the junk bits and the significant bits.

## Main definitions

* `Number F`: the numbers of the family `F`
* `Number.ofCarrier`: the number in a carrier, whatever its junk bits
* `Number.ofInt`, `Number.ofInt?`: the number of an integer, wrapping or refusing
* `Number.value`: the logical value
* `Number.zero`, `Number.one`, `Number.least`, `Number.greatest`: the constants
* `Number.decimal`: the logical value in a field
* `Number.bitPattern`: the bits of the carrier
* `Number.inspect`, `Number.inspectLines`: the form of a number in diagnostics

## Main results

* `Number.ofCarrier_carrier`: a number is the number in its carrier
* `Number.ofCarrier_eq_iff`: two carriers hold the same number when their
  canonical carriers agree
-/

namespace NarrowInt

/-- A number of a family, held in its canonical carrier. -/
structure Number (F : Family) where
  carrier : Carrier
  canonical : F.canonical carrier = carrier
deriving DecidableEq

namespace Number

variable {F : Family}

theorem ext {x y : Number F} (h : x.carrier = y.carrier) : x = y := by
  cases x
  cases y
  cases h
  rfl

/-- The number in a carrier; the junk bits are ignored. -/
def ofCarrier (c : Carrier) : Number F := ⟨F.canonical c, F.canonical_canonical c⟩

@[simp] theorem carrier_ofCarrier (c : Carrier) :
    (ofCarrier c : Number F).carrier = F.canonical c := rfl

@[simp] theorem ofCarrier_carrier (x : Number F) : ofCarrier x.carrier = x :=
  ext x.canonical

theorem ofCarrier_eq_iff {c d : Carrier} :
    (ofCarrier c : Number F) = ofCarrier d ↔ F.canonical c = F.canonical d :=
  ⟨fun h => congrArg carrier h, fun h => ext h⟩

/-- The significant bits alone, the junk bits cleared. -/
def significant (x : Number F) : Carrier := F.width.lowBits x.carrier

/-- The number with the given significant bits; higher bits are ignored. -/
def ofSignificant (c : Carrier) : Number F := ofCarrier c

/-- The logical value. -/
def value (x : Number F) : Int := F.decode x.carrier

/-- The number of an integer, wrapped modulo `2 ^ w` into the domain. -/
def ofInt (v : Int) : Number F := ⟨F.encode v, F.canonical_encode v⟩

/-- The number of an integer of the domain. -/
def ofInt? (v : Int) : Option (Number F) :=
  if F.fits v then some (ofInt v) else none

/-- Whether the logical value is below zero: the carrier's top bit, in a signed family. -/
def isNegative (x : Number F) : Bool := F.signed && x.carrier.msb

/-- The number 0. -/
def zero : Number F := ⟨0, F.canonical_zero⟩

/-- The number 1, which wraps to `-1` in the signed family of one bit. -/
def one : Number F := ofCarrier 1

/-- The number of the smallest value. -/
def least : Number F := ⟨F.leastCarrier, F.canonical_leastCarrier⟩

/-- The number of the largest value. -/
def greatest : Number F := ⟨F.greatestCarrier, F.canonical_greatestCarrier⟩

instance : Inhabited (Number F) := ⟨zero⟩

@[simp] theorem carrier_ofInt (v : Int) : (ofInt v : Number F).carrier = F.encode v := rfl

@[simp] theorem carrier_zero : (zero : Number F).carrier = 0 := rfl

@[simp] theorem carrier_least : (least : Number F).carrier = F.leastCarrier := rfl

@[simp] theorem carrier_greatest : (greatest : Number F).carrier = F.greatestCarrier := rfl

theorem ofInt_eq_ofCarrier (v : Int) : (ofInt v : Number F) = ofCarrier (BitVec.ofInt 32 v) := rfl

/-! ## Notation -/

/-- The logical value in a field. -/
def decimal (layout : Text.Layout) (x : Number F) : List Char := layout.integer x.value

/-- The bits of the carrier, most significant first, with an underscore after the junk bits if
there are any. -/
def bitPattern (x : Number F) : List Char :=
  let significant := Text.bitString F.width.bits x.carrier.toNat
  if F.width.junk = 0 then significant
  else Text.bitString F.width.junk (x.carrier.toNat >>> F.width.bits) ++ '_' :: significant

/-- The word for the signedness of a family. -/
def kind (F : Family) : List Char :=
  if F.signed then ['S', 'I', 'n', 't'] else ['U', 'I', 'n', 't']

/-- The form of a number in diagnostics, on one line. -/
def inspect (x : Number F) : List Char := kind F ++ "(0b".toList ++ x.bitPattern ++ [')']

/-- The form of a number in diagnostics, on three lines. -/
def inspectLines (x : Number F) : List Char :=
  kind F ++ "(\n    0b".toList ++ x.bitPattern ++ ",\n)".toList

end Number

end NarrowInt
