import Mathlib
import NarrowInt.Proofs.Floating.Integer

/-!
# Products of numbers and floats

A number is multiplied by a float of 32 bits in the format of 64 bits. Both factors are held there
exactly, but their product may have more digits than the format, so it is rounded, once and to the
nearest float. It is far too small to overflow. A product of zero is zero with the sign that the two
signs make, and a float that is a NaN or an infinity makes a product that is none either.

## Main definitions

* `Double.IsProduct`: the float is the product of an integer and a float of 32 bits, rounded once

## Main results

* `Datum.value?_mul`: the exact value of a product
* `Number.isProduct_scaled`: the product of a number and a float
* `Double.IsProduct.value?_eq`: the value of the product is determined
-/

namespace NarrowInt

namespace Datum

theorem sign_xor (s t : Bool) :
    (if s ^^ t then -1 else 1 : ℚ) = (if s then -1 else 1) * if t then -1 else 1 := by
  cases s <;> cases t <;> norm_num

/-- The exact value of a product is the product of the exact values; an infinity and a NaN have
none. -/
theorem value?_mul (a b : Datum) :
    (a * b).value? = a.value?.bind fun x => b.value?.map (x * ·) := by
  cases a with
  | nan => cases b <;> rfl
  | infinite s =>
    cases b with
    | nan => rfl
    | infinite t => rfl
    | finite t n f =>
      show (if n = 0 then nan else infinite (s ^^ t)).value? = none
      split <;> rfl
  | finite s m e =>
    cases b with
    | nan => rfl
    | infinite t =>
      show (if m = 0 then nan else infinite (s ^^ t)).value? = none
      split <;> rfl
    | finite t n f =>
      -- the significands are multiplied, and the exponents added
      show some ((if s ^^ t then -1 else 1 : ℚ) * ((m * n : Nat) * 2 ^ (e + f))) = some _
      rw [sign_xor, zpow_add₀ (by norm_num)]
      push_cast
      congr 1
      ring

/-- A datum of a number other than zero has the sign of the number. -/
theorem sign_of_value? {s : Bool} {m : Nat} {e : Int} {x : ℚ}
    (hx : (finite s m e).value? = some x) (h₀ : x ≠ 0) : s = decide (x < 0) := by
  obtain rfl := Option.some.inj hx
  have hpos : (0 : ℚ) ≤ m * 2 ^ e := by positivity
  cases s with
  | false => exact (decide_eq_false (by simpa using hpos)).symm
  | true =>
    refine (decide_eq_true (lt_of_le_of_ne ?_ h₀)).symm
    simpa using hpos

end Datum

/-- A finite pattern of 32 bits is less than `2 ^ 129` in magnitude. -/
theorem Single.abs_value?_le {p : Single} {y : ℚ} (hy : p.datum.value? = some y) :
    |y| ≤ 2 ^ (129 : Int) := by
  obtain ⟨m, e, hd⟩ := Format.exists_decode_eq hy
  obtain ⟨hm, -, he⟩ := p.datum_finite hd
  change p.datum = _ at hd
  rw [hd] at hy
  have hm' : (m : ℚ) ≤ 2 ^ (24 : Int) := by exact_mod_cast hm.le
  calc |y| = m * 2 ^ e := Datum.abs_of_value? hy
    _ ≤ 2 ^ (24 : Int) * 2 ^ (105 : Int) := by gcongr; norm_num
    _ = 2 ^ (129 : Int) := by rw [← zpow_add₀ (by norm_num)]; norm_num

/-- Widening keeps the sign bit of a finite pattern. -/
theorem Single.negative_toDouble {p : Single} {y : ℚ} (hy : p.datum.value? = some y) :
    Format.double.negative p.toDouble.toNat = Format.single.negative p.toNat := by
  obtain ⟨m, e, hd⟩ := Format.exists_decode_eq hy
  change p.datum = _ at hd
  rw [toDouble, Double.toNat_ofDatum, hd, Format.negative_encode]

/-- The float is the product of an integer and a float of 32 bits, rounded once: the nearest float
to a product other than zero, the zero with the sign that the two signs make, or no number at all if
the second factor is none. -/
structure Double.IsProduct (v : Int) (k : Single) (p : Double) : Prop where
  nearest : ∀ y, k.datum.value? = some y → v * y ≠ 0 → Format.double.IsNearest (v * y) p.toNat
  zero : ∀ y, k.datum.value? = some y → v * y = 0 → p.datum.value? = some 0 ∧
    Format.double.negative p.toNat = (decide (v < 0) ^^ Format.single.negative k.toNat)
  none : k.datum.value? = none → p.datum.value? = none

/-- The value of a product is determined. -/
theorem Double.IsProduct.value?_eq {v : Int} {k : Single} {p q : Double} (hp : IsProduct v k p)
    (hq : IsProduct v k q) : p.datum.value? = q.datum.value? := by
  cases hy : k.datum.value? with
  | none => rw [hp.none hy, hq.none hy]
  | some y =>
    rcases eq_or_ne (v * y) 0 with h₀ | h₀
    · rw [(hp.zero y hy h₀).1, (hq.zero y hy h₀).1]
    · rw [(hp.nearest y hy h₀).unique (hq.nearest y hy h₀)]

namespace Number

variable {F : Family} (x : Number F) {k : Single} {y : ℚ}

/-- The datum that is rounded is finite, has the product for its value, and has the sign that the
two signs make. -/
theorem exists_datum_mul (hy : k.datum.value? = some y) :
    ∃ m e, x.toDouble.datum * k.toDouble.datum =
        .finite (decide (x.value < 0) ^^ Format.single.negative k.toNat) m e ∧
      (x.toDouble.datum * k.toDouble.datum).value? = some (x.value * y) := by
  have hk := k.value?_toDouble.trans hy
  obtain ⟨m, e, hx⟩ := Format.exists_decode_eq x.value?_toDouble
  obtain ⟨n, f, hk'⟩ := Format.exists_decode_eq hk
  have hsign : decide ((x.value : ℚ) < 0) = decide (x.value < 0) := by
    simp
  refine ⟨m * n, e + f, ?_, ?_⟩
  · rw [Double.datum, Double.datum, hx, hk', x.negative_toDouble, Single.negative_toDouble hy, hsign]
    rfl
  · rw [Datum.value?_mul, x.value?_toDouble, hk]
    rfl

/-- **A product is rounded once.** The product of a number and a float of 32 bits is exact up to the
one rounding to the nearest float of 64 bits. -/
theorem isProduct_scaled (k : Single) : Double.IsProduct x.value k (x.scaled k) where
  nearest := by
    intro y hy h₀
    obtain ⟨m, e, hd, hval⟩ := x.exists_datum_mul hy
    rw [hd] at hval
    rw [scaled, Double.mul, Double.toNat_ofDatum, hd]
    -- at most 33 digits before the point are multiplied by at most 129
    have hle : |(x.value : ℚ) * y| ≤ 2 ^ (161 : Int) := by
      rw [abs_mul]
      calc |(x.value : ℚ)| * |y| ≤ 2 ^ (32 : Int) * 2 ^ (129 : Int) :=
            mul_le_mul x.abs_value_le (Single.abs_value?_le hy) (abs_nonneg y) (by positivity)
        _ = 2 ^ (161 : Int) := by rw [← zpow_add₀ (by norm_num)]; norm_num
    exact Format.isNearest_encode_of_abs_le hval (Datum.sign_of_value? hval h₀) hle (by decide)
  zero := by
    intro y hy h₀
    obtain ⟨m, e, hd, hval⟩ := x.exists_datum_mul hy
    have hm : m = 0 := by
      rw [hd, h₀] at hval
      have habs := Datum.abs_of_value? hval
      rw [abs_zero, eq_comm, mul_eq_zero] at habs
      exact_mod_cast habs.resolve_right (by positivity)
    subst hm
    rw [Double.datum, scaled, Double.mul, Double.toNat_ofDatum, hd]
    refine ⟨?_, Format.negative_encode _ _ _⟩
    rw [Format.encode, Format.round_zero, Nat.add_zero]
    exact Format.value?_decode_zero _
  none := by
    intro hk
    have hval : (x.toDouble.datum * k.toDouble.datum).value? = none := by
      rw [Datum.value?_mul, x.value?_toDouble, k.value?_toDouble, hk]
      rfl
    rw [scaled, Double.mul, Double.value?_ofDatum]
    · exact hval
    · intro s m e hd
      rw [hd] at hval
      cases hval

end Number

end NarrowInt
