import Mathlib
import NarrowInt.Number.Arithmetic
import NarrowInt.Number.Lemmas
import NarrowInt.Number.Machine

/-!
# Carriers and the values they hold

A canonical carrier holds a value of the domain, and only one carrier holds a given value: its
two's complement in 32 bits. Machine integers of any size become the carrier of the congruent
value, and the greater and the lesser of two numbers are those of their values.

## Main definitions

* `Family.Holds`: the carrier is the canonical one of the value

## Main results

* `Number.value_ofMachine`: the value of a machine integer, wrapped
* `Number.natAbs_value_le`: how far from zero the value of a number can be
* `Number.value_max`, `Number.value_min`: the values of the greater and the lesser number
-/

namespace NarrowInt

namespace Family

variable (F : Family)

/-- The carrier is canonical, and its logical value is `v`. -/
def Holds (c : Carrier) (v : Int) : Prop := F.canonical c = c ∧ F.decode c = v

instance (c : Carrier) (v : Int) : Decidable (F.Holds c v) :=
  inferInstanceAs (Decidable (F.canonical c = c ∧ F.decode c = v))

variable {F}

theorem Holds.contains {c : Carrier} {v : Int} (h : F.Holds c v) : F.Contains v := by
  obtain ⟨-, rfl⟩ := h
  exact F.contains_decode c

theorem Holds.eq_ofInt {c : Carrier} {v : Int} (h : F.Holds c v) : c = BitVec.ofInt 32 v := by
  obtain ⟨hc, rfl⟩ := h
  unfold decode
  rw [hc]
  split
  · exact BitVec.ofInt_toInt.symm
  · rw [BitVec.ofInt_natCast, BitVec.ofNat_toNat, BitVec.setWidth_eq]

end Family

namespace MachineType

/-- A machine integer and its carrier are congruent modulo `2 ^ w`, whatever the sizes. -/
theorem toNat_toCarrier_emod (F : Family) (t : MachineType) (x : BitVec t.bits) :
    ((t.toCarrier x).toNat : Int) % F.modulus = t.decode x % F.modulus := by
  unfold toCarrier decode
  by_cases hs : t.signed
  · rw [if_pos hs, if_pos hs]
    -- the carrier read with a sign differs from the plain reading by a multiple of `2 ^ 32`
    have hc : ((x.signExtend 32).toNat : Int) % F.modulus =
        (x.signExtend 32).toInt % F.modulus := by
      rw [← Int.emod_emod_of_dvd (x.signExtend 32).toInt F.modulus_dvd,
        ← Int.emod_emod_of_dvd ((x.signExtend 32).toNat : Int) F.modulus_dvd,
        BitVec.toInt_eq_toNat_bmod]
      exact congrArg (· % F.modulus) (Int.bmod_emod (x := _) (m := 2 ^ 32)).symm
    rw [hc]
    rcases Nat.le_total t.bits 32 with h | h
    · rw [BitVec.toInt_signExtend_of_le h]
    · have hm : min 32 t.bits = 32 := Nat.min_eq_left h
      rw [BitVec.toInt_signExtend, hm, ← Int.emod_emod_of_dvd x.toInt F.modulus_dvd,
        ← Int.emod_emod_of_dvd _ F.modulus_dvd]
      exact congrArg (· % F.modulus) (Int.bmod_emod (x := _) (m := 2 ^ 32))
  · rw [if_neg hs, if_neg hs, BitVec.toNat_setWidth]
    exact Number.natCast_emod_two_pow _

end MachineType

namespace Number

variable {F : Family}

theorem holds (x : Number F) : F.Holds x.carrier x.value := ⟨x.canonical, rfl⟩

/-- Only the carrier of a number holds its value. -/
theorem holds_value_iff {x : Number F} {v : Int} (hx : x.value = v) (c : Carrier) :
    F.Holds c v ↔ c = x.carrier := by
  have hh := x.holds
  rw [hx] at hh
  constructor
  · intro h
    rw [h.eq_ofInt, hh.eq_ofInt]
  · rintro rfl
    exact hh

/-- A machine integer of any type becomes the number of its wrapped value. -/
theorem value_ofMachine (t : MachineType) (x : BitVec t.bits) :
    (ofMachine t x : Number F).value = F.wrap (t.decode x) :=
  value_ofCarrier_eq (t.toNat_toCarrier_emod F x)

/-- The value of a number has 33 binary digits at most. -/
theorem natAbs_value_le (x : Number F) : x.value.natAbs ≤ 2 ^ 32 := by
  obtain ⟨hlo, hhi⟩ := x.contains_value.bounds
  have hm : F.modulus ≤ 2 ^ 32 := pow_le_pow_right₀ (by norm_num) F.width.le_carrier
  have htwo := F.modulus_eq_two_mul
  omega

theorem value_max (a b : Number F) : (a.max b).value = Max.max a.value b.value := by
  unfold max
  split
  · next h => exact (max_eq_right (Int.le_of_lt h)).symm
  · next h => exact (max_eq_left (Int.not_lt.1 h)).symm

theorem value_min (a b : Number F) : (a.min b).value = Min.min a.value b.value := by
  unfold min
  split
  · next h => exact (min_eq_right (Int.le_of_lt h)).symm
  · next h => exact (min_eq_left (Int.not_lt.1 h)).symm

end Number

end NarrowInt
