import Mathlib
import NarrowInt.Proofs.Residue
import NarrowInt.Proofs.Value

/-!
# Division

A quotient is taken on machine integers of 64 bits, where a division can fail in two ways: by a zero
divisor, and by a quotient that the type does not represent. Neither happens to the values of
numbers. A number of value zero has no bit set, so the test of the divisor's carrier keeps every
zero divisor away, and values of 33 bits have quotients of 33 bits.

Toward zero, a quotient is at most as far from zero as the dividend, and on the same side of zero if
the divisor is positive; by a negative divisor other than `-1` it is at most half as far. So every
quotient is a value of the family again, except for that of the least number by `-1`, which wraps
back to the least number. The remainder, zero in that case, makes up for the quotient in all cases
when the product and the sum wrap as well.

## Main definitions

* `IsRemainder`: the remainder of a division toward zero
* `MachineType.divide`: division of machine integers, with its faults
* `Number.divideOn64`, `Number.divideOn64?`: the divisions of numbers on machine integers
* `Number.Overflows`: the least number, divided by `-1`

## Main results

* `Family.contains_tdiv_iff`: the quotients that are values of the family
* `Number.divideOn64_eq`, `Number.divideOn64?_eq`: no division of numbers faults
* `Number.div_mul_add_tmod`: the quotient and the remainder at the width of the family
* `Number.division_faultless_and_exact`: what the divisions of two numbers give
-/

namespace NarrowInt

/-! ## Remainders -/

/-- The remainder `r` of a division of `a` by `b` toward zero. -/
structure IsRemainder (a b r : Int) : Prop where
  abs_lt : |r| < |b|
  sign : r = 0 ∨ r.sign = a.sign

theorem isRemainder_tmod (a : Int) {b : Int} (hb : b ≠ 0) : IsRemainder a b (a.tmod b) := by
  constructor
  · rw [Int.abs_eq_natAbs, Int.abs_eq_natAbs, Int.natAbs_tmod]
    exact_mod_cast Nat.mod_lt a.natAbs (Int.natAbs_pos.2 hb)
  · by_cases h : b ∣ a
    · exact .inl (Int.tmod_eq_zero_of_dvd h)
    · exact .inr (by rw [Int.sign_tmod, if_neg h])

/-! ## Quotients in the domain of a family -/

namespace Family

variable {F : Family} {a b : Int}

/-- What brings every integer closer to zero, on its own side, does not leave the domain. -/
theorem Contains.of_odd (f : Int → Int) (hneg : ∀ v, f (-v) = -f v)
    (hle : ∀ v, 0 ≤ v → 0 ≤ f v ∧ f v ≤ v) (ha : F.Contains a) : F.Contains (f a) := by
  have hzero := F.contains_zero
  unfold Contains at ha hzero ⊢
  rcases le_total 0 a with h | h
  · have := hle a h
    omega
  · have := hle (-a) (by omega)
    rw [hneg] at this
    omega

theorem Contains.tmod (ha : F.Contains a) (b : Int) : F.Contains (a.tmod b) := by
  refine ha.of_odd (·.tmod b) (fun v => Int.neg_tmod v b) fun v hv => ?_
  have hnonneg := Int.tmod_nonneg b hv
  have hle : (v.tmod b).natAbs ≤ v.natAbs := by
    rw [Int.natAbs_tmod]
    exact Nat.mod_le _ _
  omega

theorem Contains.tdiv_of_nonneg (ha : F.Contains a) (hb : 0 ≤ b) : F.Contains (a.tdiv b) := by
  refine ha.of_odd (·.tdiv b) (fun v => Int.neg_tdiv v b) fun v hv => ?_
  exact ⟨Int.tdiv_nonneg hv hb, Int.tdiv_le_self b hv⟩

/-- Only with a sign does the domain have a negative element. -/
theorem Contains.signed_of_neg (hb : F.Contains b) (hneg : b < 0) : F.signed := by
  by_contra hs
  have hlo := hb.1
  rw [F.least_of_unsigned hs] at hlo
  omega

/-- By a divisor below `-1` the quotient is at most half as far from zero as the dividend. -/
theorem Contains.tdiv_of_lt (ha : F.Contains a) (hs : F.signed) (hb : b < -1) :
    F.Contains (a.tdiv b) := by
  obtain ⟨hlo, hhi⟩ := ha
  have hl := F.least_of_signed hs
  have hm := F.modulus_eq_two_mul
  have hpos : (0 : Int) < 2 ^ (F.width.bits - 1) := by positivity
  have hhalf : (a.tdiv b).natAbs ≤ a.natAbs / 2 := by
    rw [Int.natAbs_tdiv]
    exact Nat.div_le_div_left (by omega) (by decide)
  unfold greatest at hhi
  unfold Contains greatest
  omega

/-- **The quotients in the domain**: of two values of the family, all quotients toward zero but that
of the least one by `-1`. -/
theorem contains_tdiv_iff (ha : F.Contains a) (hb : F.Contains b) :
    F.Contains (a.tdiv b) ↔ ¬ (F.signed ∧ a = F.least ∧ b = -1) := by
  rcases eq_or_ne b (-1) with rfl | hne
  · -- the quotient is the negated dividend, and the domain reaches one further down than up
    have hs := hb.signed_of_neg (by decide)
    have hl := F.least_of_signed hs
    have hm := F.modulus_eq_two_mul
    rw [Int.tdiv_neg, Int.tdiv_one]
    unfold Contains greatest at ha ⊢
    simp only [hs, true_and, and_true]
    omega
  · refine iff_of_true ?_ fun h => hne h.2.2
    rcases le_or_gt 0 b with h | h
    · exact ha.tdiv_of_nonneg h
    · exact ha.tdiv_of_lt (hb.signed_of_neg h) (by omega)

end Family

/-! ## Division of machine integers -/

/-- Why two machine integers have no quotient. -/
inductive DivisionFault
  | zeroDivisor
  | overflow
deriving DecidableEq

namespace MachineType

/-- Integers of 64 bits with a sign. -/
def signed64 : MachineType := ⟨64, true⟩

/-- The quotient of two machine integers toward zero. There is none by zero, and none where the
exact quotient is no integer of the type. -/
def divide (t : MachineType) (x y : BitVec t.bits) : Except DivisionFault (BitVec t.bits) :=
  if t.decode y = 0 then .error .zeroDivisor
  else if t.Represents ((t.decode x).tdiv (t.decode y)) then
    .ok (t.encode ((t.decode x).tdiv (t.decode y)))
  else .error .overflow

theorem represents_signed64 {v : Int} (hv : v.natAbs ≤ 2 ^ 32) : signed64.Represents v := by
  change (BitVec.ofInt 64 v).toInt = v
  apply BitVec.toInt_ofInt_eq_self (by decide) <;> omega

/-- A division faults neither by a divisor other than zero nor by a quotient that the type
represents. -/
theorem divide_encode {t : MachineType} {u v : Int} (hu : t.Represents u) (hv : t.Represents v)
    (h₀ : v ≠ 0) (hq : t.Represents (u.tdiv v)) :
    t.divide (t.encode u) (t.encode v) = .ok (t.encode (u.tdiv v)) := by
  rw [Represents] at hu hv
  rw [divide, hu, hv, if_neg h₀, if_pos hq]

end MachineType

/-! ## Division of numbers -/

namespace Number

variable {F : Family} (a b : Number F)

/-- Division with the quotient of the values taken on machine integers of 64 bits, where it may
fault. -/
def divideOn64 : Except DivisionFault (Number F) :=
  if b.carrier = 0 then .ok (ofCarrier (BitVec.allOnes 32))
  else
    (MachineType.signed64.divide (MachineType.signed64.encode a.value)
      (MachineType.signed64.encode b.value)).map (ofMachine MachineType.signed64)

/-- The same division, refusing a zero divisor. -/
def divideOn64? : Except DivisionFault (Option (Number F)) :=
  if b.carrier = 0 then .ok none else (a.divideOn64 b).map some

/-- The least number divided by `-1`. -/
def Overflows : Prop := F.signed ∧ a = least ∧ b.value = -1

variable {a b}

theorem div_eq_ofInt (hb : b.value ≠ 0) : a / b = ofInt (a.value.tdiv b.value) := by
  rw [div_eq, if_neg (mt carrier_eq_zero_iff.1 hb)]

/-- No division of numbers faults. -/
theorem divideOn64_eq (a b : Number F) : a.divideOn64 b = .ok (a / b) := by
  unfold divideOn64
  rw [div_eq]
  by_cases hb : b.carrier = 0
  · rw [if_pos hb, if_pos hb]
  · rw [if_neg hb, if_neg hb]
    have h₀ : b.value ≠ 0 := mt carrier_eq_zero_iff.2 hb
    have ha := MachineType.represents_signed64 a.natAbs_value_le
    have hv := MachineType.represents_signed64 b.natAbs_value_le
    have hq : MachineType.signed64.Represents (a.value.tdiv b.value) := by
      apply MachineType.represents_signed64
      exact (Int.natAbs_tdiv_le_natAbs _ _).trans a.natAbs_value_le
    rw [MachineType.divide_encode ha hv h₀ hq]
    -- the quotient passes through its bit pattern unchanged
    refine congrArg Except.ok (value_injective ?_)
    rw [value_ofMachine, value_ofInt, hq]

theorem divideOn64?_eq (a b : Number F) : a.divideOn64? b = .ok (a.div? b) := by
  unfold divideOn64? div?
  by_cases hb : b.carrier = 0
  · rw [if_pos hb, if_pos hb]
  · rw [if_neg hb, if_neg hb, divideOn64_eq]
    rfl

/-- A quotient by zero has every significant bit set. -/
theorem getLsbD_carrier_div_of_eq_zero (a : Number F) (hb : b.value = 0) {i : Nat}
    (hi : i < F.width.bits) : (a / b).carrier.getLsbD i := by
  have hle := F.width.le_carrier
  rw [div_eq, if_pos (carrier_eq_zero_iff.2 hb), carrier_ofCarrier, F.getLsbD_canonical, if_pos hi,
    BitVec.getLsbD_allOnes]
  exact decide_eq_true (by omega)

/-- **The quotient and the remainder at the width of the family** make up the dividend, also where
the quotient wraps. -/
theorem div_mul_add_tmod (a : Number F) (hb : b.value ≠ 0) :
    a / b * b + ofInt (a.value.tmod b.value) = a := by
  calc a / b * b + ofInt (a.value.tmod b.value)
      = ofInt (a.value.tdiv b.value) * ofInt b.value + ofInt (a.value.tmod b.value) := by
        rw [div_eq_ofInt hb, ofInt_value]
    _ = ofInt (a.value.tdiv b.value * b.value + a.value.tmod b.value) := by
        rw [ofInt_add, ofInt_mul]
    _ = a := by rw [Int.tdiv_mul_add_tmod, ofInt_value]

theorem value_ofInt_tmod (a b : Number F) :
    (ofInt (a.value.tmod b.value) : Number F).value = a.value.tmod b.value := by
  rw [value_ofInt, F.wrap_of_contains (a.contains_value.tmod _)]

theorem value_div_of_not_overflows (hb : b.value ≠ 0) (h : ¬ a.Overflows b) :
    (a / b).value = a.value.tdiv b.value := by
  rw [div_eq_ofInt hb, value_ofInt]
  refine F.wrap_of_contains ((Family.contains_tdiv_iff a.contains_value b.contains_value).2 ?_)
  rintro ⟨hs, ha, hv⟩
  exact h ⟨hs, value_injective (ha.trans value_least.symm), hv⟩

theorem div_of_overflows (h : a.Overflows b) : a / b = least := by
  obtain ⟨hs, rfl, hv⟩ := h
  have hl := F.least_of_signed hs
  have hm := F.modulus_eq_two_mul
  refine value_injective ?_
  rw [div_eq_ofInt (by omega), hv, Int.tdiv_neg, Int.tdiv_one, value_ofInt, value_least]
  -- the negated least value is one modulus further up
  refine (F.eq_wrap F.contains_least ?_).symm
  have hmod : -F.least = F.least + F.modulus := by omega
  rw [hmod, Int.add_emod_right]

/-- The dividend is the exact quotient times the divisor plus the remainder, unless the quotient
wraps. -/
theorem value_eq_div_mul_add_tmod_iff (hb : b.value ≠ 0) :
    a.value = (a / b).value * b.value + a.value.tmod b.value ↔ ¬ a.Overflows b := by
  constructor
  · intro heq hover
    -- the least value would be its own negation
    have hq := div_of_overflows hover
    obtain ⟨hs, rfl, hv⟩ := hover
    have hl := F.least_of_signed hs
    have hpos : (0 : Int) < 2 ^ (F.width.bits - 1) := by positivity
    rw [hq, hv, value_least, Int.tmod_neg, Int.tmod_one] at heq
    omega
  · intro h
    rw [value_div_of_not_overflows hb h, Int.tdiv_mul_add_tmod]

/-- **Division never faults, and is exact but for one pair of operands.** Of two numbers from any
carriers, the divisions on machine integers of 64 bits give the quotient, and refuse the zero
divisors only. A quotient by zero has every significant bit set. Any other one comes with a
remainder, which is smaller than the divisor and zero or of the sign of the dividend: as integers,
the quotient times the divisor plus the remainder is the dividend, unless the least number is divided
by `-1`. That quotient wraps to the least number, with the remainder zero; at the width of the
family the quotient and the remainder make up the dividend even so. -/
theorem division_faultless_and_exact (F : Family) (c d : Carrier) :
    let a : Number F := ofCarrier c
    let b : Number F := ofCarrier d
    a.divideOn64 b = .ok (a / b) ∧ a.divideOn64? b = .ok (a.div? b) ∧
    (a.div? b = none ↔ b.value = 0) ∧ (b.value ≠ 0 → a.div? b = some (a / b)) ∧
    (b.value = 0 → ∀ i < F.width.bits, (a / b).carrier.getLsbD i) ∧
    (b.value ≠ 0 → ∃ r : Number F, IsRemainder a.value b.value r.value ∧ a / b * b + r = a ∧
      (a.value = (a / b).value * b.value + r.value ↔ ¬ a.Overflows b) ∧
      (a.Overflows b → a / b = least ∧ r = zero)) := by
  intro a b
  refine ⟨divideOn64_eq a b, divideOn64?_eq a b, ?_, fun hb => ?_, fun hb i hi => ?_, fun hb => ?_⟩
  · rw [div?_eq]
    split <;> simp [*]
  · rw [div?_eq, if_neg hb]
  · exact getLsbD_carrier_div_of_eq_zero a hb hi
  · refine ⟨ofInt (a.value.tmod b.value), ?_, div_mul_add_tmod a hb, ?_, fun h => ?_⟩
    · rw [value_ofInt_tmod]
      exact isRemainder_tmod a.value hb
    · rw [value_ofInt_tmod]
      exact value_eq_div_mul_add_tmod_iff hb
    · refine ⟨div_of_overflows h, value_injective ?_⟩
      rw [value_ofInt_tmod, h.2.2, Int.tmod_neg, Int.tmod_one, value_zero]

/-- In the signed family of one bit the least number is `-1` itself, so that it overflows when it is
divided by itself; here both operands come under junk bits. -/
theorem division_faultless_and_exact_one_bit :
    let F : Family := ⟨{ bits := 1 }, true⟩
    let a : Number F := ofCarrier 0x2d
    let b : Number F := ofCarrier 0xfffffff3
    b.value ≠ 0 ∧ a.Overflows b ∧ a.div? b = some (a / b) ∧ a / b = least := by
  intro F a b
  have hb : b.value ≠ 0 := by decide
  have hover : a.Overflows b := ⟨rfl, by decide, by decide⟩
  obtain ⟨-, -, -, hsome, -, hquot⟩ := division_faultless_and_exact F 0x2d 0xfffffff3
  obtain ⟨r, -, -, -, hwrap⟩ := hquot hb
  exact ⟨hb, hover, hsome hb, (hwrap hover).1⟩

end Number

end NarrowInt
