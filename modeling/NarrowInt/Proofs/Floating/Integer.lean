import Mathlib
import NarrowInt.Proofs.Floating.Conversion

/-!
# The floats of numbers

The value of a number has 33 binary digits at most, so a float of 64 bits holds it exactly. From
there the float of 32 bits is reached by one rounding, to the nearest float and to the even one on a
tie. No other float is reached by two conversions that each round to nearest, however they are
carried out. Both floats are finite, and zero has the pattern without any bits set.

## Main results

* `Number.isNearest_toDouble`: the float of 64 bits is the nearest one as well
* `Number.toSingle_eq_ofDatum`: the float of 32 bits is that of the integer, rounded at once
* `Number.value_eq_zero_of_value?_toSingle`: no other value is rounded to zero
* `Number.floats_exact_or_rounded_once`: the floats of a number
-/

namespace NarrowInt.Number

variable {F : Family} (x : Number F)

/-! ## The nearest floats -/

theorem isNearest_toDouble : Format.double.IsNearest (x.value : ℚ) x.toDouble.toNat :=
  Format.isNearest_of_value? x.negative_toDouble x.value?_toDouble

theorem eq_toDouble_of_isNearest {d : Double}
    (h : Format.double.IsNearest (x.value : ℚ) d.toNat) : d = x.toDouble :=
  h.unique x.isNearest_toDouble

/-- The float of 32 bits is that of the integer, rounded at once. -/
theorem toSingle_eq_ofDatum : x.toSingle = .ofDatum (.ofInt x.value) := by
  refine ((x.isNearest_iff _).1 ?_).symm
  refine Single.isNearest_ofDatum (value?_ofInt x.value) ?_ x.abs_value_le
  simp

/-- Two conversions that each round to nearest lead to one float. -/
theorem exists_isNearest_isNearest_iff (q : Single) :
    (∃ (d : Double) (y : ℚ), Format.double.IsNearest (x.value : ℚ) d.toNat ∧
      d.datum.value? = some y ∧ Format.single.IsNearest y q.toNat) ↔ q = x.toSingle := by
  rw [← isNearest_iff]
  constructor
  · rintro ⟨d, y, hd, hy, hq⟩
    -- the first conversion is exact, so the second one starts from the value itself
    obtain rfl := x.eq_toDouble_of_isNearest hd
    obtain rfl : (x.value : ℚ) = y := Option.some.inj (x.value?_toDouble.symm.trans hy)
    exact hq
  · intro hq
    exact ⟨x.toDouble, x.value, x.isNearest_toDouble, x.value?_toDouble, hq⟩

/-! ## Zero -/

/-- The patterns of `-1` and of `1`. -/
theorem value?_datum_unit (s : Bool) :
    (Single.datum (if s then 0xbf800000 else 0x3f800000)).value? = some (if s then -1 else 1) := by
  have hd : Single.datum (if s then 0xbf800000 else 0x3f800000) = .finite s (2 ^ 23) (-23) := by
    revert s
    decide
  rw [hd]
  norm_num [Datum.value?]

/-- No value but zero is rounded to zero, since `1` or `-1` is nearer to it. -/
theorem value_eq_zero_of_value?_toSingle (h : x.toSingle.datum.value? = some 0) :
    (x.value : ℚ) = 0 := by
  obtain ⟨-, y, hy, hnear⟩ := x.isNearest_toSingle
  obtain rfl : 0 = y := Option.some.inj (h.symm.trans hy)
  rcases lt_trichotomy x.value 0 with hlt | heq | hgt
  · have hle := (hnear _ _ (value?_datum_unit true)).1
    have hv : (x.value : ℚ) ≤ -1 := by exact_mod_cast Int.le_sub_one_of_lt hlt
    rw [if_pos rfl, abs_of_nonneg (by linarith), abs_of_nonneg (by linarith)] at hle
    linarith
  · exact_mod_cast heq
  · have hle := (hnear _ _ (value?_datum_unit false)).1
    have hv : (1 : ℚ) ≤ x.value := by exact_mod_cast hgt
    rw [if_neg Bool.false_ne_true, abs_of_nonpos (by linarith), abs_of_nonpos (by linarith)] at hle
    linarith

theorem value_eq_zero_of_value?_toDouble (h : x.toDouble.datum.value? = some 0) :
    (x.value : ℚ) = 0 :=
  Option.some.inj (x.value?_toDouble.symm.trans h)

theorem value_eq_zero_iff_toDouble : x.value = 0 ↔ x.toDouble = 0 := by
  rw [← Int.cast_eq_zero (α := ℚ)]
  exact x.isNearest_toDouble.eq_zero_iff x.value_eq_zero_of_value?_toDouble

theorem value_eq_zero_iff_toSingle : x.value = 0 ↔ x.toSingle = 0 := by
  rw [← Int.cast_eq_zero (α := ℚ)]
  exact x.isNearest_toSingle.eq_zero_iff x.value_eq_zero_of_value?_toSingle

/-- The pattern with only the sign bit set stands for zero as well, but no number has it. -/
theorem toDouble_ne_negative_zero : x.toDouble ≠ 0x8000000000000000 := by
  intro h
  exact x.isNearest_toDouble.ne_signWeight x.value_eq_zero_of_value?_toDouble
    (congrArg BitVec.toNat h)

theorem toSingle_ne_negative_zero : x.toSingle ≠ 0x80000000 := by
  intro h
  exact x.isNearest_toSingle.ne_signWeight x.value_eq_zero_of_value?_toSingle
    (congrArg BitVec.toNat h)

/-- **The floats of a number**: that of 64 bits has exactly its value, and that of 32 bits is the
only one nearest to it, the even one on a tie. The float of 32 bits is rounded once, as if it came
from the integer itself, and any two conversions that round to nearest on the way lead to it. Both
floats are finite. Zero has the pattern without any bits set, and no other number has it; that of
negative zero does not occur. -/
theorem floats_exact_or_rounded_once (x : Number F) :
    x.toDouble.datum.value? = some (x.value : ℚ) ∧
    (∀ q : Single, Format.single.IsNearest (x.value : ℚ) q.toNat ↔ q = x.toSingle) ∧
    x.toSingle = .ofDatum (.ofInt x.value) ∧
    (∀ q : Single, (∃ (d : Double) (y : ℚ), Format.double.IsNearest (x.value : ℚ) d.toNat ∧
      d.datum.value? = some y ∧ Format.single.IsNearest y q.toNat) ↔ q = x.toSingle) ∧
    (∃ s m e, x.toDouble.datum = .finite s m e) ∧ (∃ s m e, x.toSingle.datum = .finite s m e) ∧
    (x.value = 0 ↔ x.toDouble = 0) ∧ (x.value = 0 ↔ x.toSingle = 0) ∧
    x.toDouble ≠ 0x8000000000000000 ∧ x.toSingle ≠ 0x80000000 := by
  refine ⟨x.value?_toDouble, x.isNearest_iff, x.toSingle_eq_ofDatum,
    x.exists_isNearest_isNearest_iff, ?_, ?_, x.value_eq_zero_iff_toDouble,
    x.value_eq_zero_iff_toSingle, x.toDouble_ne_negative_zero, x.toSingle_ne_negative_zero⟩
  · obtain ⟨m, e, hd⟩ := Format.exists_decode_eq x.value?_toDouble
    exact ⟨_, m, e, hd⟩
  · obtain ⟨-, y, hy, -⟩ := x.isNearest_toSingle
    obtain ⟨m, e, hd⟩ := Format.exists_decode_eq hy
    exact ⟨_, m, e, hd⟩

/-- The greatest number of 32 bits carries into the exponent, and a tie goes to the even float. -/
example : (greatest : Number ⟨{ bits := 32 }, false⟩).toSingle = 0x4f800000 ∧
    (ofInt 16777217 : Number ⟨{ bits := 26 }, false⟩).toSingle = 0x4b800000 := by
  decide

end NarrowInt.Number
