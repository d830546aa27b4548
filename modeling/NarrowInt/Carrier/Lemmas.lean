import Mathlib
import NarrowInt.Carrier
import NarrowInt.Domain

/-!
# The value of a carrier

A carrier decodes to the element of the domain congruent modulo `2 ^ w` to the carrier read as a
number. So encoding and decoding are inverse up to wrapping, and the carriers of the ends of the
domain decode to its ends.

## Main results

* `Family.decode_eq_wrap`: the logical value of a carrier
* `Family.decode_encode`: encoding then decoding wraps
* `Family.encode_decode`: decoding then encoding gives the canonical carrier
* `Family.fits_iff`: a value survives encoding exactly when it lies in the domain
* `Family.decode_leastCarrier`, `Family.decode_greatestCarrier`: the ends of the domain
-/

namespace NarrowInt

theorem Width.toNat_lowBits (w : Width) (c : Carrier) :
    (w.lowBits c).toNat = c.toNat % 2 ^ w.bits := by
  refine Nat.eq_of_testBit_eq fun i => ?_
  rw [BitVec.testBit_toNat, w.getLsbD_lowBits, Nat.testBit_mod_two_pow, BitVec.testBit_toNat]

namespace Family

variable (F : Family)

/-- In a signed family the canonical carrier is the sign extension of the significant bits. -/
theorem canonical_eq_signExtend (hs : F.signed) (c : Carrier) :
    F.canonical c = (c.setWidth F.width.bits).signExtend 32 := by
  have h₁ := F.width.one_le
  refine BitVec.eq_of_getLsbD_eq fun i hi => ?_
  rw [F.getLsbD_canonical, BitVec.getLsbD_signExtend, BitVec.getLsbD_setWidth,
    BitVec.msb_eq_getLsbD_last, BitVec.getLsbD_setWidth]
  have h₂ : F.width.bits - 1 < F.width.bits := by omega
  by_cases h : i < F.width.bits <;> simp [h, hi, hs, h₂]

theorem decode_of_signed (hs : F.signed) (c : Carrier) :
    F.decode c = (c.toNat : Int).bmod (2 ^ F.width.bits) := by
  rw [decode, if_pos hs, F.canonical_eq_signExtend hs,
    BitVec.toInt_signExtend_of_le F.width.le_carrier, BitVec.toInt_setWidth]

theorem decode_of_unsigned (hs : ¬ F.signed) (c : Carrier) :
    F.decode c = (c.toNat % 2 ^ F.width.bits : Nat) := by
  rw [decode, if_neg hs, canonical, if_neg hs, Width.toNat_lowBits]

theorem contains_decode (c : Carrier) : F.Contains (F.decode c) := by
  have hp : (2 : Nat) ^ F.width.bits = 2 * 2 ^ (F.width.bits - 1) := by
    rw [← Nat.pow_succ', Nat.succ_eq_add_one, Nat.sub_add_cancel F.width.one_le]
  -- the powers are those of natural numbers, as in the bounds of both remainders
  have hm : F.modulus = ((2 ^ F.width.bits : Nat) : Int) := by simp [modulus]
  have hl : (2 : Int) ^ (F.width.bits - 1) = ((2 ^ (F.width.bits - 1) : Nat) : Int) := by simp
  have hpos := Nat.two_pow_pos (F.width.bits - 1)
  by_cases hs : F.signed
  · have h₁ := Int.le_bmod (x := (c.toNat : Int)) (Nat.two_pow_pos F.width.bits)
    have h₂ := Int.bmod_lt (x := (c.toNat : Int)) (Nat.two_pow_pos F.width.bits)
    rw [F.decode_of_signed hs]
    unfold Contains greatest least
    rw [if_pos hs, hm, hl]
    omega
  · have h := Nat.mod_lt c.toNat (Nat.two_pow_pos F.width.bits)
    rw [F.decode_of_unsigned hs]
    unfold Contains greatest least
    rw [if_neg hs, hm]
    omega

theorem decode_emod (c : Carrier) : F.decode c % F.modulus = c.toNat % F.modulus := by
  have hm : F.modulus = ((2 ^ F.width.bits : Nat) : Int) := by simp [modulus]
  by_cases hs : F.signed
  · rw [F.decode_of_signed hs, hm, Int.bmod_emod]
  · rw [F.decode_of_unsigned hs, hm, Int.natCast_emod, Int.emod_emod]

/-- The logical value of a carrier is the element of the domain congruent to it. -/
theorem decode_eq_wrap (c : Carrier) : F.decode c = F.wrap c.toNat :=
  F.eq_wrap (F.contains_decode c) (F.decode_emod c)

theorem modulus_dvd : F.modulus ∣ 2 ^ 32 :=
  ⟨2 ^ (32 - F.width.bits), by
    rw [modulus, ← Int.pow_add, Nat.add_sub_cancel' F.width.le_carrier]⟩

/-- Wrapping depends on the residue only. -/
theorem wrap_eq_wrap_iff {u v : Int} : F.wrap u = F.wrap v ↔ u % F.modulus = v % F.modulus := by
  constructor
  · intro h
    rw [← F.wrap_emod u, h, F.wrap_emod]
  · intro h
    exact F.eq_wrap (F.contains_wrap u) ((F.wrap_emod u).trans h)

@[simp] theorem wrap_wrap (v : Int) : F.wrap (F.wrap v) = F.wrap v :=
  F.wrap_eq_wrap_iff.2 (F.wrap_emod v)

theorem toNat_ofInt_emod (v : Int) :
    ((BitVec.ofInt 32 v).toNat : Int) % F.modulus = v % F.modulus := by
  rw [BitVec.toNat_ofInt, Int.toNat_of_nonneg (Int.emod_nonneg _ (by decide))]
  exact Int.emod_emod_of_dvd v F.modulus_dvd

/-- Encoding then decoding wraps. -/
@[simp] theorem decode_encode (v : Int) : F.decode (F.encode v) = F.wrap v := by
  rw [encode, decode_canonical, decode_eq_wrap]
  exact F.wrap_eq_wrap_iff.2 (F.toNat_ofInt_emod v)

/-- Carriers of the same value have the same canonical carrier. -/
theorem canonical_eq_of_decode_eq {c d : Carrier} (h : F.decode c = F.decode d) :
    F.canonical c = F.canonical d := by
  unfold decode at h
  by_cases hs : F.signed
  · rw [if_pos hs, if_pos hs] at h
    exact BitVec.eq_of_toInt_eq h
  · rw [if_neg hs, if_neg hs] at h
    exact BitVec.eq_of_toNat_eq (Int.ofNat_inj.1 h)

/-- Decoding then encoding gives the canonical carrier. -/
@[simp] theorem encode_decode (c : Carrier) : F.encode (F.decode c) = F.canonical c := by
  refine F.canonical_eq_of_decode_eq ?_
  have h := F.decode_encode (F.decode c)
  rw [encode, decode_canonical] at h
  rw [h, F.wrap_of_contains (F.contains_decode c)]

/-- A value survives encoding exactly when it lies in the domain. -/
theorem fits_iff {v : Int} : F.fits v ↔ F.Contains v := by
  rw [fits, decode_encode, beq_iff_eq]
  exact ⟨fun h => h ▸ F.contains_wrap v, F.wrap_of_contains⟩

theorem contains_least : F.Contains F.least := by
  have := F.modulus_pos
  unfold Contains greatest
  omega

theorem contains_greatest : F.Contains F.greatest := by
  have := F.modulus_pos
  unfold Contains greatest
  omega

theorem contains_zero : F.Contains 0 := by
  have hm := F.modulus_eq_two_mul
  have hpos : (0 : Int) < 2 ^ (F.width.bits - 1) := Int.pow_pos (by decide)
  unfold Contains greatest least
  split <;> omega

theorem decode_eq_of_emod_eq {c : Carrier} {v : Int} (hv : F.Contains v)
    (h : (c.toNat : Int) % F.modulus = v % F.modulus) : F.decode c = v := by
  rw [F.decode_eq_wrap, F.wrap_eq_wrap_iff.2 h, F.wrap_of_contains hv]

theorem toNat_leastCarrier_emod :
    (F.leastCarrier.toNat : Int) % F.modulus = F.least % F.modulus := by
  unfold leastCarrier least
  by_cases hs : F.signed
  · rw [if_pos hs, if_pos hs, BitVec.toNat_shiftLeft, BitVec.toNat_allOnes, Int.natCast_emod,
      Nat.shiftLeft_eq]
    refine (Int.emod_emod_of_dvd _ F.modulus_dvd).trans ?_
    have h : (((2 ^ 32 - 1) * 2 ^ (F.width.bits - 1) : Nat) : Int) =
        -2 ^ (F.width.bits - 1) + 2 ^ 32 * 2 ^ (F.width.bits - 1) := by
      rw [Int.natCast_mul, Int.natCast_pow, Int.cast_ofNat_Int]
      omega
    rw [h]
    refine Int.emod_eq_emod_iff_emod_sub_eq_zero.2 ?_
    rw [Int.add_comm, Int.add_sub_cancel]
    exact Int.emod_eq_zero_of_dvd (Int.dvd_mul_of_dvd_left F.modulus_dvd)
  · rw [if_neg hs, if_neg hs]
    rfl

/-- The least carrier holds the least value. -/
@[simp] theorem decode_leastCarrier : F.decode F.leastCarrier = F.least :=
  F.decode_eq_of_emod_eq F.contains_least F.toNat_leastCarrier_emod

/-- The greatest carrier holds the greatest value. -/
@[simp] theorem decode_greatestCarrier : F.decode F.greatestCarrier = F.greatest := by
  refine F.decode_eq_of_emod_eq F.contains_greatest ?_
  obtain ⟨k, hk⟩ := F.modulus_dvd
  have hpow : ((2 ^ 32 : Nat) : Int) = F.modulus * k := hk
  unfold greatestCarrier
  by_cases hs : F.signed
  · have hmin : F.leastCarrier.toNat < 2 ^ 32 := F.leastCarrier.isLt
    have hlt : F.leastCarrier.toNat ≤ 2 ^ 32 - 1 := by omega
    rw [if_pos hs, BitVec.toNat_not, Int.ofNat_sub hlt]
    -- both sides are congruent to `-least - 1`, which is `greatest` less the modulus
    have hl := F.least_of_signed hs
    have hm := F.modulus_eq_two_mul
    have e := F.toNat_leastCarrier_emod
    have e₁ : (((2 ^ 32 - 1 : Nat) : Int) - F.leastCarrier.toNat) % F.modulus =
        (-1 - F.least) % F.modulus := by
      have h : ((2 ^ 32 - 1 : Nat) : Int) - F.leastCarrier.toNat =
          (-1 - F.leastCarrier.toNat) + F.modulus * k := by
        rw [← hpow]
        omega
      rw [h, Int.add_mul_emod_self_left, Int.sub_emod, e, ← Int.sub_emod]
    rw [e₁]
    congr 1
    unfold greatest
    omega
  · rw [if_neg hs, Width.toNat_lowBits, BitVec.toNat_allOnes]
    have hm : F.modulus = ((2 ^ F.width.bits : Nat) : Int) := by simp [modulus]
    have h : ((2 ^ 32 - 1 : Nat) : Int) = F.greatest + F.modulus * (k - 1) := by
      have hl := F.least_of_unsigned hs
      rw [Int.mul_sub, ← hpow, Int.mul_one]
      unfold greatest
      omega
    rw [Int.natCast_emod, ← hm, Int.emod_emod, h, Int.add_mul_emod_self_left]

end Family

end NarrowInt
