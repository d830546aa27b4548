import Mathlib
import NarrowInt.Floating.Format
import NarrowInt.Floating.IntegerPart

/-!
# Exact values of floating-point data

A finite datum has an exact rational value, and its integer part is that value without its
fraction. The low 32 bits that are read off the fields of a pattern of 64 bits are those of the
integer part, at every exponent: bits that fall off at the left stand for multiples of `2 ^ 32`.

## Main definitions

* `towardZero`: a rational number without its fraction
* `Datum.value?`: the exact value of a finite datum

## Main results

* `towardZero_mono`: dropping fractions keeps the order
* `Datum.truncate_eq`: the integer part is the exact value without its fraction
* `Double.integerPart_eq`: the bits read off a finite pattern are those of its integer part
-/

namespace NarrowInt

/-- A rational number without its fraction. -/
def towardZero (x : ℚ) : Int := if 0 ≤ x then ⌊x⌋ else ⌈x⌉

theorem towardZero_neg (x : ℚ) : towardZero (-x) = -towardZero x := by
  unfold towardZero
  rcases lt_trichotomy x 0 with h | rfl | h
  · rw [if_pos (by linarith), if_neg (not_le.2 h), Int.floor_neg]
  · simp
  · rw [if_neg (by linarith), if_pos h.le, Int.ceil_neg]

@[simp] theorem towardZero_intCast (v : Int) : towardZero (v : ℚ) = v := by
  unfold towardZero
  split
  · exact Int.floor_intCast v
  · exact Int.ceil_intCast v

/-- Dropping the fractions keeps the order, also across zero. -/
theorem towardZero_mono : Monotone towardZero := by
  intro x y hxy
  unfold towardZero
  split_ifs with hx hy hy
  · exact Int.floor_le_floor hxy
  · exact absurd (hx.trans hxy) hy
  · -- zero stands between the two integers
    have hceil : ⌈x⌉ ≤ 0 := Int.ceil_le.2 (by simpa using (not_le.1 hx).le)
    exact hceil.trans (Int.floor_nonneg.2 hy)
  · exact Int.ceil_le_ceil hxy

namespace Datum

/-- The exact value of a finite datum. -/
def value? : Datum → Option ℚ
  | .finite s m e => some ((if s then -1 else 1) * (m * 2 ^ e))
  | _ => none

theorem abs_of_value? {s : Bool} {m : Nat} {e : Int} {x : ℚ}
    (hx : (finite s m e).value? = some x) : |x| = m * 2 ^ e := by
  obtain rfl := Option.some.inj hx
  have hsign : |(if s then -1 else 1 : ℚ)| = 1 := by cases s <;> simp
  rw [abs_mul, hsign, one_mul, abs_of_nonneg (by positivity)]

/-- Shifting a significand by its exponent drops the fraction of the magnitude. -/
theorem floorScaled_eq (m : Nat) (e : Int) : (floorScaled m e : Int) = ⌊(m : ℚ) * 2 ^ e⌋ := by
  unfold floorScaled
  split
  · -- nothing is dropped
    next h =>
    obtain ⟨n, rfl⟩ := Int.eq_ofNat_of_zero_le h
    rw [Int.toNat_natCast, Nat.shiftLeft_eq]
    have hx : (m : ℚ) * 2 ^ (n : Int) = ((m * 2 ^ n : Nat) : Int) := by
      push_cast
      rw [zpow_natCast]
    rw [hx, Int.floor_intCast]
  · -- a shift to the right rounds down, as the floor does
    next h =>
    obtain ⟨n, hn⟩ := Int.eq_ofNat_of_zero_le (show 0 ≤ -e by omega)
    have he : e = -(n : Int) := by omega
    rw [he, neg_neg, Int.toNat_natCast, Nat.shiftRight_eq_div_pow]
    have hx : (m : ℚ) * 2 ^ (-(n : Int)) = ((m : Int) : ℚ) / ((2 ^ n : Nat) : ℚ) := by
      push_cast
      rw [zpow_neg, zpow_natCast, div_eq_mul_inv]
    rw [hx, Rat.floor_intCast_div_natCast]
    push_cast
    rfl

/-- The integer part of a finite datum is its exact value without its fraction; a NaN and the
infinities have the integer part 0. -/
theorem truncate_eq (d : Datum) : d.truncate = (d.value?.map towardZero).getD 0 := by
  cases d with
  | nan => rfl
  | infinite s => rfl
  | finite s m e =>
    have hpos : (0 : ℚ) ≤ m * 2 ^ e := by positivity
    have hfloor : towardZero (m * 2 ^ e) = floorScaled m e := by
      rw [floorScaled_eq, towardZero, if_pos hpos]
    cases s with
    | false =>
      have hx : ((if false then -1 else 1 : ℚ)) * (m * 2 ^ e) = m * 2 ^ e := one_mul _
      exact (hfloor.symm.trans (congrArg towardZero hx.symm))
    | true =>
      have hx : ((if true then -1 else 1 : ℚ)) * (m * 2 ^ e) = -(m * 2 ^ e) := neg_one_mul _
      refine Eq.trans ?_ (congrArg towardZero hx.symm)
      rw [towardZero_neg, hfloor]
      rfl

theorem truncate_of_value? {d : Datum} {x : ℚ} (h : d.value? = some x) :
    d.truncate = towardZero x := by
  rw [truncate_eq, h, Option.map_some, Option.getD_some]

/-- A magnitude with all its digits behind the point has no integer part. -/
theorem truncate_eq_zero {m n : Nat} {e : Int} (s : Bool) (hm : m < 2 ^ n) (he : e ≤ -n) :
    (finite s m e).truncate = 0 := by
  have hfloor : floorScaled m e = 0 := by
    unfold floorScaled
    split
    · -- there are no digits at all
      obtain rfl : n = 0 := by omega
      rw [Nat.lt_one_iff.1 hm, Nat.zero_shiftLeft]
    · have hle : 2 ^ n ≤ 2 ^ (-e).toNat := Nat.pow_le_pow_right (by decide) (by omega)
      rw [Nat.shiftRight_eq_div_pow]
      exact Nat.div_eq_of_lt (hm.trans_le hle)
  cases s <;> simp [truncate, hfloor]

end Datum

/-! ## The fields of a pattern -/

namespace Format

variable (f : Format)

theorem fractionField_lt (n : Nat) : f.fractionField n < 2 ^ f.fractionBits := by
  rw [fractionField, Nat.one_shiftLeft]
  exact Nat.mod_lt _ (Nat.two_pow_pos _)

theorem exponentField_lt (n : Nat) : f.exponentField n < 2 ^ f.exponentBits := by
  rw [exponentField, Nat.one_shiftLeft]
  exact Nat.mod_lt _ (Nat.two_pow_pos _)

theorem minExponent_single : single.minExponent = -149 := rfl

theorem maxField_single : single.maxField = 255 := rfl

theorem minExponent_double : double.minExponent = -1074 := rfl

theorem maxField_double : double.maxField = 2047 := rfl

end Format

/-! ## The low bits of an integer part -/

namespace Alignment

/-- A significand of 64 bits keeps the low 32 bits of its integer part through each of the three
kinds of shift. -/
theorem apply_ofShift (c : BitVec 64) (e : Int) :
    (ofShift e).apply c = BitVec.ofNat 32 (Datum.floorScaled c.toNat e) := by
  refine BitVec.eq_of_toNat_eq ?_
  unfold ofShift Datum.floorScaled
  by_cases h₀ : e < 0
  · -- fraction bits fall off at the right
    rw [if_pos h₀, if_neg (show ¬ 0 ≤ e by omega)]
    simp [apply]
  · rw [if_neg h₀, if_pos (show 0 ≤ e by omega)]
    by_cases h₁ : e < 32
    · -- what falls off at the left is a multiple of `2 ^ 64`
      rw [if_pos h₁]
      have hd : (2 : Nat) ^ 32 ∣ 2 ^ 64 := Nat.pow_dvd_pow 2 (by omega)
      simp only [apply, BitVec.toNat_setWidth, BitVec.toNat_shiftLeft, BitVec.toNat_ofNat]
      exact Nat.mod_mod_of_dvd _ hd
    · -- the whole significand is shifted past bit 31
      rw [if_neg h₁]
      have hd : (2 : Nat) ^ 32 ∣ c.toNat <<< e.toNat := by
        rw [Nat.shiftLeft_eq]
        exact Dvd.dvd.mul_left (Nat.pow_dvd_pow 2 (by omega)) _
      rw [apply, BitVec.toNat_ofNat, Nat.mod_eq_zero_of_dvd hd]
      rfl

end Alignment

namespace Double

variable (p : Double)

theorem exponentField_eq : p.exponentField = Format.double.exponentField p.toNat := by
  simp [exponentField, Format.exponentField, Format.double, BitVec.extractLsb'_toNat]

theorem negative_eq : p.negative = Format.double.negative p.toNat := by
  rw [negative, BitVec.msb_eq_getLsbD_last]
  rfl

theorem toNat_significand :
    p.significand.toNat = 1 <<< 52 + Format.double.fractionField p.toNat := by
  have hf : p.toNat % 2 ^ 52 < 2 ^ 52 := Nat.mod_lt _ (by decide)
  simp only [significand, BitVec.toNat_append, BitVec.extractLsb'_toNat, Format.fractionField,
    Format.double, Nat.shiftRight_zero, Nat.one_shiftLeft]
  exact (Nat.shiftLeft_add_eq_or_of_lt hf 1).symm

theorem isFinite_iff :
    p.isFinite ↔ Format.double.exponentField p.toNat ≠ Format.double.maxField := by
  rw [isFinite, bne_iff_ne, exponentField_eq]
  rfl

/-- A finite pattern with an exponent field below 1023 is less than one in magnitude. -/
theorem truncate_datum_of_lt (h : p.exponentField < 1023) : p.datum.truncate = 0 := by
  rw [exponentField_eq] at h
  have hf : Format.double.fractionField p.toNat < 2 ^ 52 := Format.fractionField_lt _ _
  have hm : Format.double.exponentField p.toNat ≠ Format.double.maxField := by
    rw [Format.maxField_double]
    omega
  unfold datum Format.decode
  rw [if_neg hm, Format.minExponent_double]
  split
  · exact Datum.truncate_eq_zero _ (n := 53) (by omega) (by omega)
  · -- with the hidden bit there are 53 digits
    have hlt : 1 <<< Format.double.fractionBits + Format.double.fractionField p.toNat < 2 ^ 53 := by
      rw [Nat.one_shiftLeft]
      exact Nat.add_lt_add_left hf (2 ^ 52)
    exact Datum.truncate_eq_zero _ hlt (by omega)

/-- The bits read off a finite pattern are the low 32 bits of its integer part, in two's
complement. -/
theorem integerPart_eq (h : p.isFinite) : p.integerPart = BitVec.ofInt 32 p.datum.truncate := by
  rw [isFinite_iff] at h
  unfold integerPart
  by_cases hE : p.exponentField < 1023
  · rw [if_pos hE, p.truncate_datum_of_lt hE]
    rfl
  · rw [if_neg hE]
    -- a pattern with the exponent of one, or a larger one, is not subnormal
    have hd : p.datum = .finite p.negative p.significand.toNat p.shift := by
      have h₀ : Format.double.exponentField p.toNat ≠ 0 := by
        rw [exponentField_eq] at hE
        omega
      rw [datum, Format.decode, if_neg h, if_neg h₀, negative_eq, toNat_significand, shift,
        exponentField_eq, Format.minExponent_double]
      congr 1
      omega
    rw [hd, Alignment.apply_ofShift]
    cases p.negative with
    | false => exact (BitVec.ofInt_natCast 32 _).symm
    | true =>
      change -BitVec.ofNat 32 _ = BitVec.ofInt 32 (-_)
      rw [BitVec.ofInt_neg, BitVec.ofInt_natCast]

end Double

end NarrowInt
