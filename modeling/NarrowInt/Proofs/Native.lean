import Mathlib
import NarrowInt.Proofs.Encoding
import NarrowInt.Proofs.Floating.Conversion

/-!
# Numbers from native values

A native value is a machine integer of any size, with or without a sign, or a float of 32 or 64
bits. Each kind takes its own way to a carrier: narrow integers are extended according to their own
signedness, wide ones are cut, and the integer part of a float is read off its fields. All of these
ways lead through the same 32 bits, those of the integer part of the exact value in two's
complement. So an integer becomes one number of a family, whichever of the kinds it is held in.

## Main definitions

* `Native`: a machine integer or a float
* `Native.value?`: its exact value, unless it is a NaN or an infinity
* `Native.number`: the number that it becomes

## Main results

* `MachineType.exists_decode_eq_iff`: the integers of a machine type
* `Native.value_number`: the value of the number, in terms of the exact value alone
* `Native.kinds_agree_on_integers`: an integer becomes one number, whichever kind holds it
-/

namespace NarrowInt

/-- A machine integer of some type, or a float of 32 or 64 bits. -/
inductive Native
  | integer (t : MachineType) (x : BitVec t.bits)
  | single (p : Single)
  | double (p : Double)

/-! ## The integers of a machine type -/

namespace MachineType

variable (t : MachineType)

/-- The interval of the integers of the type, its bounds doubled with a sign so that they are powers
of two at every size. -/
def Ranges (v : Int) : Prop :=
  if t.signed then -2 ^ t.bits ≤ 2 * v ∧ 2 * v < 2 ^ t.bits else 0 ≤ v ∧ v < 2 ^ t.bits

theorem ranges_decode (x : BitVec t.bits) : t.Ranges (t.decode x) := by
  unfold Ranges decode
  split
  · exact ⟨BitVec.le_two_mul_toInt, BitVec.two_mul_toInt_lt⟩
  · exact ⟨Int.natCast_nonneg _, by exact_mod_cast x.isLt⟩

theorem represents_of_ranges {v : Int} (hv : t.Ranges v) : t.Represents v := by
  unfold Ranges at hv
  unfold Represents decode encode
  have hpow : ((2 ^ t.bits : Nat) : Int) = 2 ^ t.bits := by push_cast; rfl
  split at hv
  · next hs =>
    -- the residue nearest to zero is the integer itself
    rw [if_pos hs, BitVec.toInt_ofInt]
    apply Int.bmod_eq_of_le_mul_two <;> omega
  · next hs =>
    rw [if_neg hs, BitVec.toNat_ofInt, hpow, Int.emod_eq_of_lt hv.1 hv.2, Int.toNat_of_nonneg hv.1]

/-- The integers of a type are those of its interval. -/
theorem exists_decode_eq_iff {v : Int} : (∃ x : BitVec t.bits, t.decode x = v) ↔ t.Ranges v := by
  constructor
  · rintro ⟨x, rfl⟩
    exact t.ranges_decode x
  · intro hv
    exact ⟨t.encode v, t.represents_of_ranges hv⟩

end MachineType

theorem Number.eq_ofInt_iff {F : Family} {x : Number F} {v : Int} :
    x = ofInt v ↔ x.value ≡ v [ZMOD 2 ^ F.width.bits] := by
  rw [← x.ofInt_value, ofInt_eq_ofInt_iff, ofInt_value]
  rfl

namespace Native

variable {F : Family}

/-! ## The number of a native value -/

/-- The exact value; NaNs and infinities have none. -/
def value? : Native → Option ℚ
  | integer t x => some (t.decode x)
  | single p => p.datum.value?
  | double p => p.datum.value?

/-- The number that a native value becomes in a family. -/
def number : Native → Number F
  | integer t x => .ofMachine t x
  | single p => .ofSingle p
  | double p => .ofDouble p

/-- The value of the number is the exact value without its fraction, wrapped, and zero when there is
no exact value; the kind of the native value makes no difference. -/
theorem value_number (a : Native) :
    (a.number : Number F).value = F.wrap ((a.value?.map towardZero).getD 0) := by
  cases a with
  | integer t x =>
    rw [number, Number.value_ofMachine, value?, Option.map_some, towardZero_intCast,
      Option.getD_some]
  | single p => rw [number, Number.value_ofSingle, value?, Datum.truncate_eq]
  | double p => rw [number, Number.value_ofDouble, value?, Datum.truncate_eq]

theorem number_eq_of_value?_eq {a b : Native} (h : a.value? = b.value?) :
    (a.number : Number F) = b.number := by
  refine Number.value_injective ?_
  rw [value_number, value_number, h]

theorem number_eq_ofInt {a : Native} {v : Int} (ha : a.value? = some (v : ℚ)) :
    (a.number : Number F) = .ofInt v := by
  refine Number.value_injective ?_
  rw [value_number, ha, Option.map_some, towardZero_intCast, Option.getD_some, Number.value_ofInt]

/-- **All kinds of native values agree on the integers.** A native value that stands for an integer
exactly, be it a machine integer of any size, with or without a sign, or a float of 32 or 64 bits,
becomes the only number of the family with a value congruent to the integer. Any other one that
stands for the integer becomes the same number, and so does the machine integer of 64 bits that is
encoded directly. A machine type has native values for the integers of its interval and for no
others. -/
theorem kinds_agree_on_integers (F : Family) {a : Native} {v : Int}
    (ha : a.value? = some (v : ℚ)) :
    (∀ x : Number F, x = a.number ↔ x.value ≡ v [ZMOD 2 ^ F.width.bits]) ∧
    (∀ b : Native, b.value? = some (v : ℚ) → (b.number : Number F) = a.number) ∧
    (∀ y : BitVec 64, y.toInt = v →
      (a.number : Number F) = .ofInt y.toInt ∧
        (a.number : Number F).carrier = F.encodeOn64 y) ∧
    ∀ t : MachineType, (∃ x : BitVec t.bits, (integer t x).value? = some (v : ℚ)) ↔
      if t.signed then -2 ^ t.bits ≤ 2 * v ∧ 2 * v < 2 ^ t.bits else 0 ≤ v ∧ v < 2 ^ t.bits := by
  refine ⟨fun x => ?_, fun b hb => number_eq_of_value?_eq (hb.trans ha.symm), ?_, fun t => ?_⟩
  · rw [number_eq_ofInt ha, Number.eq_ofInt_iff]
  · rintro y rfl
    rw [number_eq_ofInt ha, F.encodeOn64_eq]
    exact ⟨rfl, rfl⟩
  · simp only [value?, Option.some_inj, Int.cast_inj]
    exact t.exists_decode_eq_iff

/-- The integer `-2 ^ 40 - 2 ^ 20` as a float of 32 bits and as machine integers of 64 and of 128
bits, in 24 bits with a sign. -/
theorem kinds_agree_on_integers_negative :
    let F : Family := ⟨{ bits := 24 }, true⟩
    let a : Native := .single 0xd3800008
    let b : Native := .integer ⟨128, true⟩ (BitVec.ofInt 128 (-1099512676352))
    let y : BitVec 64 := 0xfffffefffff00000
    a.value? = some ((-1099512676352 : Int) : ℚ) ∧ b.value? = some ((-1099512676352 : Int) : ℚ) ∧
      y.toInt = -1099512676352 ∧ (a.number : Number F).value = -1048576 ∧
      (b.number : Number F) = a.number ∧ (a.number : Number F).carrier = F.encodeOn64 y := by
  intro F a b y
  have ha : a.value? = some ((-1099512676352 : Int) : ℚ) := by
    have hd : Single.datum 0xd3800008 = .finite true 8388616 17 := by decide
    simp only [a, value?, hd]
    norm_num [Datum.value?]
  have hb : b.value? = some ((-1099512676352 : Int) : ℚ) := rfl
  have hy : y.toInt = -1099512676352 := by decide
  obtain ⟨-, hother, hencode, -⟩ := kinds_agree_on_integers F ha
  obtain ⟨hnumber, hcarrier⟩ := hencode y hy
  refine ⟨ha, hb, hy, ?_, hother b hb, hcarrier⟩
  rw [hnumber, hy]
  decide

end Native

end NarrowInt
