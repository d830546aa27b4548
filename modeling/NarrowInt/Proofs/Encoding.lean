import Mathlib
import NarrowInt.Number.Lemmas

/-!
# Encoding and decoding

An integer is encoded by cutting it to the bits of a carrier and making the carrier canonical, and
it is taken for a value of the family when decoding gives it back. No bound is compared on the way,
but the integers that come back are those between the least and the greatest value: every other
integer shares its carrier with one of these, to which it is congruent, and is not that one. The
same holds of machine integers of 64 bits, where the cut drops the upper half of the word and
decoding fills it again with copies of the sign bit, or with zeros.

Decoding looks at the significant bits only. Cleared of the junk bits they are a natural number
below `2 ^ w`, and each of these belongs to one number of the family.

## Main definitions

* `Family.encodeOn64`, `Family.decodeOn64`, `Family.fitsOn64`: encoding and decoding on machine
  integers of 64 bits
* `Number.significantEquiv`: the numbers of a family as the natural numbers of `w` bits

## Main results

* `Family.encodeOn64_eq`, `Family.toInt_decodeOn64`, `Family.fitsOn64_eq`: on 64 bits the integers
  are the same
* `Family.fits_iff_le_and_le`: the integers that survive encoding lie between the ends of the domain
* `Family.decode_eq_decode_iff`: decoding tells the significant bits apart, and nothing else
* `Number.encoding_inverts_decoding`: how encoding and decoding undo each other
-/

namespace NarrowInt

/-! ## Machine integers of 64 bits -/

namespace Family

variable (F : Family)

/-- The carrier of a machine integer of 64 bits: the upper half is dropped. -/
def encodeOn64 (x : BitVec 64) : Carrier := F.canonical (x.setWidth 32)

/-- The machine integer of 64 bits in a carrier: the upper half is filled with copies of the top bit
of the canonical carrier, or with zeros in an unsigned family. -/
def decodeOn64 (c : Carrier) : BitVec 64 :=
  if F.signed then (F.canonical c).signExtend 64 else (F.canonical c).setWidth 64

/-- Whether a machine integer of 64 bits survives encoding and decoding. -/
def fitsOn64 (x : BitVec 64) : Bool := F.decodeOn64 (F.encodeOn64 x) == x

theorem encodeOn64_eq (x : BitVec 64) : F.encodeOn64 x = F.encode x.toInt := by
  -- the low half of the word is also that of the integer
  have hcut : x.setWidth 32 = BitVec.ofInt 32 x.toInt :=
    (BitVec.signExtend_eq_setWidth_of_le x (by decide)).symm
  rw [encodeOn64, hcut, encode]

theorem toInt_decodeOn64 (c : Carrier) : (F.decodeOn64 c).toInt = F.decode c := by
  unfold decodeOn64 decode
  split
  · exact BitVec.toInt_signExtend_of_le (by decide)
  · -- a word with an empty upper half is not negative
    have hlt := (F.canonical c).isLt
    rw [BitVec.toInt_eq_toNat_of_lt, BitVec.toNat_setWidth, Nat.mod_eq_of_lt (by omega)]
    rw [BitVec.toNat_setWidth, Nat.mod_eq_of_lt (by omega)]
    omega

theorem fitsOn64_eq (x : BitVec 64) : F.fitsOn64 x = F.fits x.toInt := by
  rw [Bool.eq_iff_iff, fitsOn64, fits, beq_iff_eq, beq_iff_eq, ← BitVec.toInt_inj,
    toInt_decodeOn64, encodeOn64_eq]

/-! ## The integers that survive encoding -/

theorem isLeast_decode_leastCarrier : IsLeast {v | F.Contains v} (F.decode F.leastCarrier) := by
  rw [decode_leastCarrier]
  exact ⟨F.contains_least, fun v hv => hv.1⟩

theorem isGreatest_decode_greatestCarrier :
    IsGreatest {v | F.Contains v} (F.decode F.greatestCarrier) := by
  rw [decode_greatestCarrier]
  exact ⟨F.contains_greatest, fun v hv => hv.2⟩

/-- The integers that survive encoding are those between the ends of the domain. -/
theorem fits_iff_le_and_le {v : Int} :
    F.fits v ↔ F.decode F.leastCarrier ≤ v ∧ v ≤ F.decode F.greatestCarrier := by
  rw [fits_iff, decode_leastCarrier, decode_greatestCarrier]
  rfl

/-! ## The bits that decoding looks at -/

/-- Decoding tells the significant bits apart, and nothing else. -/
theorem decode_eq_decode_iff {c d : Carrier} :
    F.decode c = F.decode d ↔ c.setWidth F.width.bits = d.setWidth F.width.bits := by
  have hcanonical : F.decode c = F.decode d ↔ F.canonical c = F.canonical d := by
    refine ⟨F.canonical_eq_of_decode_eq, fun h => ?_⟩
    rw [← F.decode_canonical c, h, F.decode_canonical]
  rw [hcanonical, F.canonical_eq_canonical_iff]
  constructor
  · intro h
    refine BitVec.eq_of_getLsbD_eq fun i hi => ?_
    rw [BitVec.getLsbD_setWidth, BitVec.getLsbD_setWidth, h i hi]
  · intro h i hi
    have hbit := congrArg (·.getLsbD i) h
    simpa only [BitVec.getLsbD_setWidth, hi, decide_true, Bool.true_and] using hbit

end Family

/-! ## Significant bits -/

namespace Number

variable {F : Family}

theorem toNat_significant_lt (x : Number F) : x.significant.toNat < 2 ^ F.width.bits := by
  rw [toNat_significant]
  exact Nat.mod_lt _ (Nat.two_pow_pos _)

/-- Clearing the junk bits loses nothing of a number. -/
theorem ofSignificant_significant (x : Number F) : ofSignificant x.significant = x := by
  have hbits : F.canonical (F.width.lowBits x.carrier) = F.canonical x.carrier := by
    refine F.canonical_eq_canonical_iff.2 fun i hi => ?_
    rw [Width.getLsbD_lowBits, decide_eq_true hi, Bool.true_and]
  exact ext (hbits.trans x.canonical)

/-- The number of given significant bits has these bits. -/
theorem toNat_significant_ofSignificant {n : Nat} (hn : n < 2 ^ F.width.bits) :
    (ofSignificant (BitVec.ofNat 32 n) : Number F).significant.toNat = n := by
  -- at most 32 bits are significant, so the carrier has room for all of them
  have hle : 2 ^ F.width.bits ≤ 2 ^ 32 := Nat.pow_le_pow_right (by decide) F.width.le_carrier
  rw [ofSignificant, significant_ofCarrier, Width.toNat_lowBits, BitVec.toNat_ofNat,
    Nat.mod_eq_of_lt (hn.trans_le hle), Nat.mod_eq_of_lt hn]

/-- The numbers of a family of `w` bits are the natural numbers below `2 ^ w`, by their significant
bits. -/
def significantEquiv : Number F ≃ Fin (2 ^ F.width.bits) where
  toFun x := ⟨x.significant.toNat, x.toNat_significant_lt⟩
  invFun n := ofSignificant (BitVec.ofNat 32 n)
  left_inv x := by
    change ofSignificant (BitVec.ofNat 32 x.significant.toNat) = x
    rw [BitVec.ofNat_toNat, BitVec.setWidth_eq, ofSignificant_significant]
  right_inv n := Fin.ext (toNat_significant_ofSignificant n.isLt)

theorem map_value_ofInt? (v : Int) :
    (ofInt? v : Option (Number F)).map value = if F.fits v then some v else none := by
  unfold ofInt?
  split
  · next h => rw [Option.map_some, value_ofInt, F.wrap_of_contains (F.fits_iff.1 h)]
  · rfl

/-- **Encoding and decoding undo each other** as far as there is room. An encoded integer decodes to
the only value of the family that is congruent to it. It survives, and has a number with itself as
the value, exactly when it lies between the decoded ends of the domain, which are its least and its
greatest element. A decoded carrier is encoded as its canonical carrier; it decodes to a value of
the family, and only the significant bits matter for that. Machine integers of 64 bits are encoded
and decoded as the integers that they stand for. The significant bits of numbers are the natural
numbers below `2 ^ w`, each of them once. -/
theorem encoding_inverts_decoding (F : Family) :
    (∀ u v : Int, F.Contains u ∧ u ≡ v [ZMOD 2 ^ F.width.bits] ↔ u = F.decode (F.encode v)) ∧
    (∀ v : Int, F.fits v ↔ F.decode F.leastCarrier ≤ v ∧ v ≤ F.decode F.greatestCarrier) ∧
    (∀ v : Int, (ofInt? v : Option (Number F)).map value =
      if F.decode F.leastCarrier ≤ v ∧ v ≤ F.decode F.greatestCarrier then some v else none) ∧
    IsLeast {v | F.Contains v} (F.decode F.leastCarrier) ∧
    IsGreatest {v | F.Contains v} (F.decode F.greatestCarrier) ∧
    (∀ c : Carrier, F.encode (F.decode c) = F.canonical c ∧ F.Contains (F.decode c)) ∧
    (∀ c d : Carrier, F.decode c = F.decode d ↔
      c.setWidth F.width.bits = d.setWidth F.width.bits) ∧
    (∀ x : BitVec 64, F.encodeOn64 x = F.encode x.toInt ∧ F.fitsOn64 x = F.fits x.toInt) ∧
    (∀ c : Carrier, (F.decodeOn64 c).toInt = F.decode c) ∧
    ∃ e : Number F ≃ Fin (2 ^ F.width.bits), (∀ x, (e x : Nat) = x.significant.toNat) ∧
      ∀ n, e.symm n = ofSignificant (BitVec.ofNat 32 n) := by
  refine ⟨fun u v => ?_, fun v => F.fits_iff_le_and_le, fun v => ?_, F.isLeast_decode_leastCarrier,
    F.isGreatest_decode_greatestCarrier, fun c => ⟨F.encode_decode c, F.contains_decode c⟩,
    fun c d => F.decode_eq_decode_iff, fun x => ⟨F.encodeOn64_eq x, F.fitsOn64_eq x⟩,
    F.toInt_decodeOn64, significantEquiv, fun x => rfl, fun n => rfl⟩
  · rw [F.decode_encode]
    constructor
    · rintro ⟨hu, hmod⟩
      exact F.eq_wrap hu hmod
    · rintro rfl
      exact ⟨F.contains_wrap v, F.wrap_emod v⟩
  · rw [map_value_ofInt?]
    exact if_congr F.fits_iff_le_and_le rfl rfl

/-- The integer `2 ^ 32 - 1` has the carrier of `-1`, but is no value of 32 bits with a sign. -/
example :
    let F : Family := ⟨{ bits := 32 }, true⟩
    F.encode 4294967295 = F.encode (-1) ∧ F.fits 4294967295 = false := by
  decide

end Number

end NarrowInt
