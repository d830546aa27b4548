import Mathlib
import NarrowInt.Number.Lemmas

/-!
# Numbers as residues

A number stands for the integers congruent to its value, so the numbers of a family of `w` bits form
a ring: that of the integers modulo `2 ^ w`. The significant bits of a number, read without a sign,
are the least natural number among the integers that it stands for.

## Main definitions

* `Number.residue`: the significant bits as an integer modulo `2 ^ w`
* `Number.residueEquiv`: the numbers of a family as the integers modulo `2 ^ w`

## Main results

* `Number.ofInt_add`, `Number.ofInt_sub`, `Number.ofInt_mul`, `Number.ofInt_neg`: arithmetic on
  numbers is that of the integers they stand for
* `Number.toNat_significant_ofInt`: the significant bits of an integer
-/

namespace NarrowInt

theorem Family.wrap_modEq (F : Family) (v : Int) : F.wrap v ≡ v [ZMOD F.modulus] := F.wrap_emod v

namespace Number

variable {F : Family}

/-! ## The numbers of integers -/

theorem ofInt_surjective : Function.Surjective (ofInt : Int → Number F) := fun x =>
  ⟨x.value, x.ofInt_value⟩

theorem ofInt_zero : (ofInt 0 : Number F) = .zero :=
  value_injective (by rw [value_ofInt, value_zero, F.wrap_of_contains F.contains_zero])

theorem ofInt_one : (ofInt 1 : Number F) = .one :=
  value_injective (by rw [value_ofInt, value_one])

theorem ofInt_add (u v : Int) : (ofInt (u + v) : Number F) = ofInt u + ofInt v := by
  refine value_injective ?_
  rw [value_add, value_ofInt, value_ofInt, value_ofInt, F.wrap_eq_wrap_iff]
  exact ((F.wrap_modEq u).add (F.wrap_modEq v)).symm

theorem ofInt_sub (u v : Int) : (ofInt (u - v) : Number F) = ofInt u - ofInt v := by
  refine value_injective ?_
  rw [value_sub, value_ofInt, value_ofInt, value_ofInt, F.wrap_eq_wrap_iff]
  exact ((F.wrap_modEq u).sub (F.wrap_modEq v)).symm

theorem ofInt_mul (u v : Int) : (ofInt (u * v) : Number F) = ofInt u * ofInt v := by
  refine value_injective ?_
  rw [value_mul, value_ofInt, value_ofInt, value_ofInt, F.wrap_eq_wrap_iff]
  exact ((F.wrap_modEq u).mul (F.wrap_modEq v)).symm

theorem ofInt_neg (v : Int) : (ofInt (-v) : Number F) = -ofInt v := by
  refine value_injective ?_
  rw [value_neg, value_ofInt, value_ofInt, F.wrap_eq_wrap_iff]
  exact (F.wrap_modEq v).neg.symm

/-! ## The ring of numbers -/

instance : Zero (Number F) := ⟨zero⟩

instance : One (Number F) := ⟨one⟩

instance : NatCast (Number F) := ⟨fun n => ofInt n⟩

instance : IntCast (Number F) := ⟨ofInt⟩

instance : SMul Nat (Number F) := ⟨fun n x => ofInt (n * x.value)⟩

instance : SMul Int (Number F) := ⟨fun v x => ofInt (v * x.value)⟩

instance : Pow (Number F) Nat := ⟨fun x n => ofInt (x.value ^ n)⟩

theorem ofInt_smul (u v : Int) : (ofInt (u * v) : Number F) = u • (ofInt v : Number F) := by
  change ofInt _ = ofInt (u * (ofInt v : Number F).value)
  rw [value_ofInt, ofInt_eq_ofInt_iff]
  exact ((F.wrap_modEq v).mul_left u).symm

theorem ofInt_pow (v : Int) (n : Nat) : (ofInt (v ^ n) : Number F) = (ofInt v : Number F) ^ n := by
  change ofInt _ = ofInt ((ofInt v : Number F).value ^ n)
  rw [value_ofInt, ofInt_eq_ofInt_iff]
  exact ((F.wrap_modEq v).pow n).symm

/-- The ring laws hold for numbers because they hold for the integers that the numbers stand for. -/
instance : CommRing (Number F) :=
  ofInt_surjective.commRing ofInt ofInt_zero ofInt_one ofInt_add ofInt_mul ofInt_neg ofInt_sub
    (fun n v => ofInt_smul n v) ofInt_smul ofInt_pow (fun _ => rfl) (fun _ => rfl)

/-! ## Significant bits -/

/-- The significant bits of an integer are its remainder. -/
theorem toNat_significant_ofInt (v : Int) :
    ((ofInt v : Number F).significant.toNat : Int) = v % 2 ^ F.width.bits := by
  rw [toNat_significant, Int.natCast_emod, Nat.cast_pow]
  exact ((ofInt v).carrier_emod).trans ((congrArg (· % F.modulus) (value_ofInt v)).trans
    (F.wrap_emod v))

/-- The significant bits as an integer modulo `2 ^ w`. -/
def residue (x : Number F) : ZMod (2 ^ F.width.bits) := x.significant.toNat

theorem val_residue (x : Number F) : x.residue.val = x.significant.toNat := by
  rw [residue, ZMod.val_natCast, toNat_significant, Nat.mod_mod]

theorem residue_ofInt (v : Int) : (ofInt v : Number F).residue = v := by
  have h := congrArg (Int.cast : Int → ZMod (2 ^ F.width.bits)) (toNat_significant_ofInt (F := F) v)
  rw [Int.cast_natCast] at h
  rw [residue, h]
  exact_mod_cast ZMod.intCast_mod v (2 ^ F.width.bits)

theorem residue_bijective : Function.Bijective (residue : Number F → ZMod (2 ^ F.width.bits)) := by
  constructor
  · intro x y h
    obtain ⟨u, rfl⟩ := ofInt_surjective x
    obtain ⟨v, rfl⟩ := ofInt_surjective y
    rw [residue_ofInt, residue_ofInt, ZMod.intCast_eq_intCast_iff, Nat.cast_pow] at h
    exact ofInt_eq_ofInt_iff.2 h
  · intro r
    obtain ⟨v, rfl⟩ := ZMod.intCast_surjective r
    exact ⟨ofInt v, residue_ofInt v⟩

/-- The numbers of a family of `w` bits are the integers modulo `2 ^ w`. -/
noncomputable def residueEquiv : Number F ≃+* ZMod (2 ^ F.width.bits) where
  toEquiv := Equiv.ofBijective residue residue_bijective
  map_mul' x y := by
    obtain ⟨u, rfl⟩ := ofInt_surjective x
    obtain ⟨v, rfl⟩ := ofInt_surjective y
    show residue (ofInt u * ofInt v) = residue (ofInt u) * residue (ofInt v)
    rw [← ofInt_mul, residue_ofInt, residue_ofInt, residue_ofInt, Int.cast_mul]
  map_add' x y := by
    obtain ⟨u, rfl⟩ := ofInt_surjective x
    obtain ⟨v, rfl⟩ := ofInt_surjective y
    show residue (ofInt u + ofInt v) = residue (ofInt u) + residue (ofInt v)
    rw [← ofInt_add, residue_ofInt, residue_ofInt, residue_ofInt, Int.cast_add]

end Number

end NarrowInt
