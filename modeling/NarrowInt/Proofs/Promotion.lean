import Mathlib
import NarrowInt.Proofs.Computation
import NarrowInt.Proofs.Floating.Conversion

/-!
# Computing in a wider family

A family has all the values of the narrower families of its signedness. So numbers are promoted to
it by value, and its numbers are narrowed by wrapping their values. An operation carried out in
between need not give what promotes to the narrow result: `-128 / -1` overflows in 8 bits but not in
16, a quotient by zero has more bits to set, and a difference without a sign borrows through them.
But both results are congruent to the exact one, the wide result modulo a multiple of the narrow
modulus, so narrowing makes them equal.

## Main definitions

* `Number.convert`: the number of the same value in another family, wrapped into its domain

## Main results

* `Family.contains_of_le`: a wider domain of the same signedness holds the values of a narrower one
* `Family.wrap_wrap_of_le`: wrapping into a wider domain first makes no difference
* `Number.convert_eq_of_value_eq`: a wide and a narrow result of one exact value
* `Number.narrowing_undoes_promotion`: operations may be carried out in a wider family
-/

namespace NarrowInt

namespace Family

variable {F G : Family}

theorem modulus_dvd_modulus (hw : F.width.bits ≤ G.width.bits) : F.modulus ∣ G.modulus :=
  pow_dvd_pow 2 hw

/-- A wider domain of the same signedness holds the values of a narrower one. -/
theorem contains_of_le (hs : F.signed = G.signed) (hw : F.width.bits ≤ G.width.bits) {v : Int}
    (hv : F.Contains v) : G.Contains v := by
  have hF := F.modulus_eq_two_mul
  have hG := G.modulus_eq_two_mul
  have hle : (2 : Int) ^ (F.width.bits - 1) ≤ 2 ^ (G.width.bits - 1) :=
    pow_le_pow_right₀ (by norm_num) (Nat.sub_le_sub_right hw 1)
  unfold Contains greatest least at hv ⊢
  by_cases h : G.signed
  · -- both ends of the domain move outward
    rw [if_pos (hs.trans h)] at hv
    rw [if_pos h]
    omega
  · -- only the upper end moves
    rw [hs, if_neg h] at hv
    rw [if_neg h]
    omega

/-- Wrapping into a wider domain first makes no difference: what it adds is a multiple of the
narrower modulus. -/
theorem wrap_wrap_of_le (hw : F.width.bits ≤ G.width.bits) (v : Int) :
    F.wrap (G.wrap v) = F.wrap v := by
  refine F.wrap_eq_wrap_iff.2 ?_
  calc G.wrap v % F.modulus = G.wrap v % G.modulus % F.modulus :=
        (Int.emod_emod_of_dvd _ (modulus_dvd_modulus hw)).symm
    _ = v % G.modulus % F.modulus := by rw [G.wrap_emod]
    _ = v % F.modulus := Int.emod_emod_of_dvd _ (modulus_dvd_modulus hw)

end Family

namespace Number

variable {F G : Family}

/-- The number of the same value in the family `G`, wrapped into its domain. -/
def convert (G : Family) (x : Number F) : Number G := ofInt x.value

@[simp] theorem value_convert (x : Number F) : (x.convert G).value = G.wrap x.value :=
  value_ofInt x.value

/-- A number promoted to a wider family of its signedness keeps its value. -/
theorem value_convert_of_le (hs : F.signed = G.signed) (hw : F.width.bits ≤ G.width.bits)
    (x : Number F) : (x.convert G).value = x.value := by
  rw [value_convert, G.wrap_of_contains (Family.contains_of_le hs hw x.contains_value)]

/-- When the numbers `y` and `x` are the wide and the narrow result of one exact value, `y` narrows
to `x`. -/
theorem convert_eq_of_value_eq (hw : F.width.bits ≤ G.width.bits) {y : Number G} {x : Number F}
    {v : Int} (hy : y.value = G.wrap v) (hx : x.value = F.wrap v) : y.convert F = x := by
  refine value_injective ?_
  rw [value_convert, hy, hx, Family.wrap_wrap_of_le hw]

section Promotion

variable (hs : F.signed = G.signed) (hw : F.width.bits ≤ G.width.bits)

include hs hw

theorem convert_onNumbers (op : Arithmetic) (a b : Number F) :
    (op.onNumbers (a.convert G) (b.convert G)).convert F = op.onNumbers a b := by
  refine convert_eq_of_value_eq hw ?_ (op.value_onNumbers a b)
  rw [op.value_onNumbers, value_convert_of_le hs hw, value_convert_of_le hs hw]

theorem convert_neg (a : Number F) : (-a.convert G).convert F = -a := by
  refine convert_eq_of_value_eq hw ?_ (value_neg a)
  rw [value_neg, value_convert_of_le hs hw]

/-- A zero divisor is zero in both families, so the quotient is refused in both or in neither. -/
theorem map_convert_div? (a b : Number F) :
    ((a.convert G).div? (b.convert G)).map (convert F) = a.div? b := by
  rw [div?_eq, div?_eq, value_convert_of_le hs hw]
  split
  · rfl
  · exact congrArg some (convert_onNumbers hs hw .div a b)

end Promotion

/-- **Operations may be carried out in a wider family.** Two numbers promoted by value to a wider
family of their signedness have a sum, a difference, a product, a quotient, a maximum and a minimum
there that narrow to those of the numbers themselves, whatever overflows on either side; so does a
negation, and a quotient that refuses a zero divisor. A float that is converted in the wider family
narrows to the number that it converts to in the narrower one. -/
theorem narrowing_undoes_promotion {F G : Family} (hs : F.signed = G.signed)
    (hw : F.width.bits ≤ G.width.bits) :
    (∀ (op : Arithmetic) (a b : Number F),
      (op.onNumbers (a.convert G) (b.convert G)).convert F = op.onNumbers a b) ∧
    (∀ a b : Number F, ((a.convert G).div? (b.convert G)).map (convert F) = a.div? b) ∧
    (∀ a : Number F, (-a.convert G).convert F = -a) ∧
    (∀ p : Double, (ofDouble p : Number G).convert F = ofDouble p) ∧
    ∀ p : Single, (ofSingle p : Number G).convert F = ofSingle p := by
  refine ⟨convert_onNumbers hs hw, map_convert_div? hs hw, convert_neg hs hw, fun p => ?_,
    fun p => ?_⟩
  · exact convert_eq_of_value_eq hw (value_ofDouble p) (value_ofDouble p)
  · exact convert_eq_of_value_eq hw (value_ofSingle p) (value_ofSingle p)

/-- The least number of 8 bits divided by `-1` overflows in 8 bits, but not in 16. -/
theorem narrowing_undoes_promotion_least :
    let F : Family := ⟨{ bits := 8 }, true⟩
    let G : Family := ⟨{ bits := 16 }, true⟩
    let a : Number F := .least
    let b : Number F := ofInt (-1)
    (F.signed = G.signed ∧ F.width.bits ≤ G.width.bits) ∧ (a.convert G / b.convert G).value = 128 ∧
      a / b = .least ∧ (a.convert G / b.convert G).convert F = a / b := by
  intro F G a b
  have hs : F.signed = G.signed := rfl
  have hw : F.width.bits ≤ G.width.bits := by decide
  refine ⟨⟨hs, hw⟩, by decide, by decide, ?_⟩
  exact (narrowing_undoes_promotion hs hw).1 .div a b

end Number

end NarrowInt
