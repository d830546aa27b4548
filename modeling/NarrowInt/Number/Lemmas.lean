import Mathlib
import NarrowInt.Carrier.Lemmas
import NarrowInt.Number.Arithmetic

/-!
# Values of numbers

The logical value determines a number, and each operation acts on logical values as on integers,
wrapped back into the domain.

## Main results

* `Number.value_injective`: numbers with the same value are equal
* `Number.value_ofCarrier`, `Number.value_ofInt`: the value of a carrier and of an integer
* `Number.value_neg`, `Number.value_add`, `Number.value_sub`, `Number.value_mul`,
  `Number.value_div`: the values of the operations
* `Number.ofInt?_eq_some_iff`: the integers that have a number of their own
-/

namespace NarrowInt.Number

variable {F : Family}

@[simp] theorem value_ofCarrier (c : Carrier) :
    (ofCarrier c : Number F).value = F.wrap c.toNat := by
  rw [value, carrier_ofCarrier, F.decode_canonical, F.decode_eq_wrap]

@[simp] theorem value_ofInt (v : Int) : (ofInt v : Number F).value = F.wrap v :=
  F.decode_encode v

theorem contains_value (x : Number F) : F.Contains x.value := F.contains_decode _

/-- Numbers with the same value are equal. -/
theorem value_injective {x y : Number F} (h : x.value = y.value) : x = y := by
  refine ext ?_
  rw [← x.canonical, ← y.canonical]
  exact F.canonical_eq_of_decode_eq h

theorem value_inj {x y : Number F} : x.value = y.value ↔ x = y :=
  ⟨value_injective, congrArg value⟩

@[simp] theorem wrap_value (x : Number F) : F.wrap x.value = x.value :=
  F.wrap_of_contains x.contains_value

@[simp] theorem ofInt_value (x : Number F) : ofInt x.value = x :=
  value_injective (by simp)

theorem ofInt_eq_ofInt_iff {u v : Int} :
    (ofInt u : Number F) = ofInt v ↔ u % F.modulus = v % F.modulus := by
  rw [← value_inj, value_ofInt, value_ofInt, F.wrap_eq_wrap_iff]

/-- The integers that have a number of their own are those of the domain. -/
theorem ofInt?_eq_some_iff {v : Int} {x : Number F} : ofInt? v = some x ↔ x.value = v := by
  unfold ofInt?
  constructor
  · intro h
    split at h
    · next hv =>
      cases h
      rw [value_ofInt, F.wrap_of_contains (F.fits_iff.1 hv)]
    · cases h
  · rintro rfl
    rw [if_pos (F.fits_iff.2 x.contains_value), ofInt_value]

theorem ofInt?_eq_none_iff {v : Int} : (ofInt? v : Option (Number F)) = none ↔ ¬ F.Contains v := by
  rw [← F.fits_iff]
  unfold ofInt?
  split <;> simp_all

/-- The carrier and the value of a number are congruent. -/
theorem carrier_emod (x : Number F) : (x.carrier.toNat : Int) % F.modulus = x.value % F.modulus :=
  (F.decode_emod x.carrier).symm

theorem toNat_significant (x : Number F) :
    x.significant.toNat = x.carrier.toNat % 2 ^ F.width.bits :=
  F.width.toNat_lowBits x.carrier

/-- The junk bits of a carrier are not significant. -/
theorem significant_ofCarrier (c : Carrier) :
    (ofCarrier c : Number F).significant = F.width.lowBits c := by
  rw [significant, carrier_ofCarrier]
  refine BitVec.eq_of_getLsbD_eq fun i _ => ?_
  rw [Width.getLsbD_lowBits, Width.getLsbD_lowBits, F.getLsbD_canonical]
  by_cases hi : i < F.width.bits <;> simp [hi]

theorem carrier_eq_zero_iff {x : Number F} : x.carrier = 0 ↔ x.value = 0 := by
  have h : (zero : Number F).value = 0 :=
    (F.decode_eq_wrap 0).trans (F.wrap_of_contains F.contains_zero)
  constructor
  · intro hx
    rw [← h]
    exact congrArg value (ext hx)
  · intro hx
    exact congrArg carrier (value_injective (hx.trans h.symm))

@[simp] theorem value_zero : (zero : Number F).value = 0 :=
  carrier_eq_zero_iff.1 rfl

@[simp] theorem value_one : (one : Number F).value = F.wrap 1 :=
  value_ofCarrier 1

@[simp] theorem value_least : (least : Number F).value = F.least := F.decode_leastCarrier

@[simp] theorem value_greatest : (greatest : Number F).value = F.greatest :=
  F.decode_greatestCarrier

theorem value_ofCarrier_eq {c : Carrier} {v : Int}
    (h : (c.toNat : Int) % F.modulus = v % F.modulus) :
    (ofCarrier c : Number F).value = F.wrap v := by
  rw [value_ofCarrier, F.wrap_eq_wrap_iff.2 h]

theorem natCast_emod_two_pow (n : Nat) :
    ((n % 2 ^ 32 : Nat) : Int) % F.modulus = n % F.modulus := by
  rw [Int.natCast_emod]
  exact Int.emod_emod_of_dvd _ F.modulus_dvd

/-- A sum has the wrapped sum of the values. -/
@[simp] theorem value_add (a b : Number F) : (a + b).value = F.wrap (a.value + b.value) := by
  refine value_ofCarrier_eq ?_
  rw [BitVec.toNat_add, natCast_emod_two_pow, Int.natCast_add, Int.add_emod, a.carrier_emod,
    b.carrier_emod, ← Int.add_emod]

/-- A product has the wrapped product of the values. -/
@[simp] theorem value_mul (a b : Number F) : (a * b).value = F.wrap (a.value * b.value) := by
  refine value_ofCarrier_eq ?_
  rw [BitVec.toNat_mul, natCast_emod_two_pow, Int.natCast_mul, Int.mul_emod, a.carrier_emod,
    b.carrier_emod, ← Int.mul_emod]

theorem two_pow_sub_emod {n : Nat} (hn : n ≤ 2 ^ 32) :
    ((2 ^ 32 - n : Nat) : Int) % F.modulus = -n % F.modulus := by
  obtain ⟨k, hk⟩ := F.modulus_dvd
  have hpow : ((2 ^ 32 : Nat) : Int) = F.modulus * k := hk
  have h : ((2 ^ 32 - n : Nat) : Int) = -n + F.modulus * k := by
    rw [← hpow]
    omega
  rw [h, Int.add_mul_emod_self_left]

/-- A difference has the wrapped difference of the values. -/
@[simp] theorem value_sub (a b : Number F) : (a - b).value = F.wrap (a.value - b.value) := by
  refine value_ofCarrier_eq ?_
  have hb : b.carrier.toNat ≤ 2 ^ 32 := Nat.le_of_lt b.carrier.isLt
  rw [BitVec.toNat_sub, natCast_emod_two_pow, Int.natCast_add, Int.add_emod, two_pow_sub_emod hb,
    ← Int.add_emod, Int.add_comm, ← Int.sub_eq_add_neg, Int.sub_emod, a.carrier_emod,
    b.carrier_emod, ← Int.sub_emod]

/-- A negation has the wrapped negation of the value. -/
@[simp] theorem value_neg (a : Number F) : (-a).value = F.wrap (-a.value) := by
  refine value_ofCarrier_eq ?_
  have ha : a.carrier.toNat ≤ 2 ^ 32 := Nat.le_of_lt a.carrier.isLt
  rw [BitVec.toNat_neg, natCast_emod_two_pow, two_pow_sub_emod ha, ← Int.zero_sub, Int.sub_emod,
    a.carrier_emod, ← Int.sub_emod, Int.zero_sub]

theorem value_ofCarrier_allOnes :
    (ofCarrier (BitVec.allOnes 32) : Number F).value = F.wrap (-1) := by
  refine value_ofCarrier_eq ?_
  exact two_pow_sub_emod (n := 1) (by decide)

/-- A quotient has the wrapped quotient of the values, toward zero; a quotient by zero has the
wrapped value of `-1`. -/
theorem value_div (a b : Number F) :
    (a / b).value = if b.value = 0 then F.wrap (-1) else F.wrap (a.value.tdiv b.value) := by
  rw [div_eq]
  by_cases h : b.value = 0
  · rw [if_pos h, if_pos (carrier_eq_zero_iff.2 h), value_ofCarrier_allOnes]
  · rw [if_neg h, if_neg (mt carrier_eq_zero_iff.1 h), value_ofInt]

theorem div?_eq (a b : Number F) :
    a.div? b = if b.value = 0 then none else some (a / b) := by
  unfold div?
  by_cases h : b.value = 0
  · rw [if_pos h, if_pos (carrier_eq_zero_iff.2 h)]
  · rw [if_neg h, if_neg (mt carrier_eq_zero_iff.1 h)]
    rfl

/-- The sign of a number is the sign of its value. -/
theorem isNegative_iff {x : Number F} : x.isNegative ↔ x.value < 0 := by
  unfold isNegative value Family.decode
  by_cases hs : F.signed
  · rw [if_pos hs, x.canonical, hs, Bool.true_and, BitVec.msb_eq_toInt, decide_eq_true_eq]
  · rw [if_neg hs]
    simp only [hs, Bool.false_and]
    constructor
    · intro h
      cases h
    · intro h
      omega

end NarrowInt.Number
