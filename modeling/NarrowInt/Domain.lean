import Mathlib
import NarrowInt.Family

/-!
# The domain of a family

The logical values of a family are the integers of an interval of `2 ^ w` elements: `0` up to
`2 ^ w - 1` without a sign, `-2 ^ (w - 1)` up to `2 ^ (w - 1) - 1` with one. Every integer is
congruent modulo `2 ^ w` to exactly one of them.

## Main definitions

* `Family.least`, `Family.greatest`: the ends of the domain
* `Family.Contains`: membership in the domain
* `Family.wrap`: the element of the domain congruent to an integer

## Main results

* `Family.contains_wrap`, `Family.wrap_emod`: the wrapped integer lies in the domain and is
  congruent to the integer
* `Family.eq_wrap`: it is the only such element
* `Family.Contains.bounds`: how far from zero a value can be
-/

namespace NarrowInt.Family

variable (F : Family)

/-- The number of elements of the domain. -/
def modulus : Int := 2 ^ F.width.bits

/-- The smallest element of the domain. -/
def least : Int := if F.signed then -2 ^ (F.width.bits - 1) else 0

/-- The largest element of the domain. -/
def greatest : Int := F.least + F.modulus - 1

/-- The integer is a logical value of the family. -/
def Contains (v : Int) : Prop := F.least ≤ v ∧ v ≤ F.greatest

instance (v : Int) : Decidable (F.Contains v) :=
  inferInstanceAs (Decidable (F.least ≤ v ∧ v ≤ F.greatest))

/-- The element of the domain congruent to `v` modulo `2 ^ w`. -/
def wrap (v : Int) : Int := F.least + (v - F.least) % F.modulus

theorem modulus_pos : 0 < F.modulus := Int.pow_pos (by decide)

theorem modulus_eq_two_mul : F.modulus = 2 * 2 ^ (F.width.bits - 1) := by
  rw [modulus, ← Int.pow_succ', Nat.sub_add_cancel F.width.one_le]

theorem least_of_signed (hs : F.signed) : F.least = -2 ^ (F.width.bits - 1) := if_pos hs

theorem least_of_unsigned (hs : ¬ F.signed) : F.least = 0 := if_neg hs

theorem contains_wrap (v : Int) : F.Contains (F.wrap v) := by
  have h₁ := Int.emod_nonneg (v - F.least) (Int.ne_of_gt F.modulus_pos)
  have h₂ := Int.emod_lt_of_pos (v - F.least) F.modulus_pos
  unfold Contains wrap greatest
  omega

theorem wrap_emod (v : Int) : F.wrap v % F.modulus = v % F.modulus := by
  have h : F.wrap v - v = F.modulus * -((v - F.least) / F.modulus) := by
    have := Int.mul_ediv_add_emod (v - F.least) F.modulus
    rw [Int.mul_neg]
    unfold wrap
    omega
  exact Int.emod_eq_emod_iff_emod_sub_eq_zero.2 (by rw [h]; exact Int.mul_emod_right _ _)

/-- The domain holds one element of each residue class. -/
theorem eq_wrap {u v : Int} (hu : F.Contains u) (h : u % F.modulus = v % F.modulus) :
    u = F.wrap v := by
  have hw := F.contains_wrap v
  have hd : (u - F.wrap v) % F.modulus = 0 :=
    Int.emod_eq_emod_iff_emod_sub_eq_zero.1 (h.trans (F.wrap_emod v).symm)
  obtain ⟨k, hk⟩ := Int.dvd_of_emod_eq_zero hd
  have hm := F.modulus_pos
  unfold Contains greatest at hu hw
  have h₀ : k = 0 := by
    rcases Int.lt_trichotomy k 0 with hlt | heq | hgt
    · have := Int.mul_le_mul_of_nonneg_left (show k ≤ -1 by omega) (Int.le_of_lt hm)
      omega
    · exact heq
    · have := Int.mul_le_mul_of_nonneg_left (show (1 : Int) ≤ k by omega) (Int.le_of_lt hm)
      omega
  rw [h₀] at hk
  omega

theorem wrap_of_contains {v : Int} (h : F.Contains v) : F.wrap v = v :=
  (F.eq_wrap h rfl).symm

/-- Every value lies between the negated weight of the sign bit and the modulus. -/
theorem Contains.bounds {F : Family} {v : Int} (hv : F.Contains v) :
    -2 ^ (F.width.bits - 1) ≤ v ∧ v < F.modulus := by
  have hpos : (0 : Int) < 2 ^ (F.width.bits - 1) := Int.pow_pos (by decide)
  unfold Contains greatest least at hv
  split at hv <;> omega

end NarrowInt.Family
