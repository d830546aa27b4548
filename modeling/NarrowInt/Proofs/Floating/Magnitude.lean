import Mathlib
import NarrowInt.Proofs.Floating.Exact

/-!
# The numbers of a format

A pattern without its sign bit counts the nonnegative numbers of its format upward from zero. It
consists of a place, the number of binary places between its last digit and that of the smallest
numbers, and a significand, which has its leading bit unless the place is 0. Finite patterns stand
below the pattern of infinity.

## Main definitions

* `Format.place`, `Format.magnitude`: the place of a pattern, and the number it stands for
* `Format.body`: a pattern without its sign bit

## Main results

* `Format.magnitude_layout`: the number of a place and a significand
* `Format.magnitude_strictMono`: the numbers ascend with the patterns
* `Format.value?_decode`: the exact value of a pattern
-/

namespace NarrowInt.Format

variable (f : Format)

/-- The number of binary places between the last digit of a pattern and that of the smallest
numbers. -/
def place (p : Nat) : Nat := p / 2 ^ f.fractionBits - 1

/-- The number of a pattern without its sign bit, infinity aside. -/
def magnitude (p : Nat) : ℚ :=
  ((p - f.place p * 2 ^ f.fractionBits : Nat) : ℚ) * 2 ^ (f.minExponent + f.place p)

/-- A pattern without its sign bit. -/
def body (n : Nat) : Nat := n % 2 ^ (f.exponentBits + f.fractionBits)

theorem signWeight_eq : f.signWeight = 2 ^ (f.exponentBits + f.fractionBits) :=
  Nat.one_shiftLeft _

theorem infinity_eq : f.infinity = (2 ^ f.exponentBits - 1) * 2 ^ f.fractionBits := by
  rw [infinity, maxField, Nat.shiftLeft_eq, Nat.one_shiftLeft]

theorem infinity_lt : f.infinity < f.signWeight := by
  rw [infinity_eq, signWeight_eq, Nat.pow_add]
  exact Nat.mul_lt_mul_of_pos_right (Nat.sub_lt (Nat.two_pow_pos _) Nat.one_pos)
    (Nat.two_pow_pos _)

/-- A significand at the place `k` stands for that many last places, also when it has grown to the
next power of two. -/
theorem magnitude_layout {k m : Nat} (hk : k = 0 ∨ 2 ^ f.fractionBits ≤ m)
    (hm : m ≤ 2 ^ (f.fractionBits + 1)) :
    f.magnitude (k * 2 ^ f.fractionBits + m) = m * 2 ^ (f.minExponent + k) := by
  have hpos := Nat.two_pow_pos f.fractionBits
  rw [Nat.pow_succ'] at hm
  have hdiv : (k * 2 ^ f.fractionBits + m) / 2 ^ f.fractionBits = k + m / 2 ^ f.fractionBits := by
    rw [Nat.add_comm, Nat.add_mul_div_right _ _ hpos, Nat.add_comm]
  rcases Nat.lt_or_ge m (2 * 2 ^ f.fractionBits) with hlt | hge
  · have hplace : f.place (k * 2 ^ f.fractionBits + m) = k := by
      rw [place, hdiv]
      rcases hk with rfl | hk
      · have : m / 2 ^ f.fractionBits < 2 := Nat.div_lt_of_lt_mul (by rwa [Nat.mul_comm])
        omega
      · have : m / 2 ^ f.fractionBits = 1 := Nat.div_eq_of_lt_le (by omega) (by omega)
        omega
    rw [magnitude, hplace, Nat.add_sub_cancel_left]
  · -- the significand `2 ^ (fractionBits + 1)` is the smallest one of the next place
    obtain rfl : m = 2 * 2 ^ f.fractionBits := Nat.le_antisymm hm hge
    have hplace : f.place (k * 2 ^ f.fractionBits + 2 * 2 ^ f.fractionBits) = k + 1 := by
      rw [place, hdiv, Nat.mul_div_cancel _ hpos]
      omega
    have hrest : k * 2 ^ f.fractionBits + 2 * 2 ^ f.fractionBits - (k + 1) * 2 ^ f.fractionBits =
        2 ^ f.fractionBits := by
      rw [← Nat.add_mul, ← Nat.sub_mul]
      have : k + 2 - (k + 1) = 1 := by omega
      rw [this, Nat.one_mul]
    rw [magnitude, hplace, hrest]
    have he : f.minExponent + ((k + 1 : Nat) : Int) = f.minExponent + k + 1 := by
      push_cast
      ring
    rw [he, zpow_add_one₀ (by norm_num)]
    push_cast
    ring

/-- Every pattern has a place and a significand, and the significand has its leading bit unless
the place is 0. -/
theorem exists_layout (p : Nat) : ∃ k m, p = k * 2 ^ f.fractionBits + m ∧
    (k = 0 ∨ 2 ^ f.fractionBits ≤ m) ∧ m < 2 ^ (f.fractionBits + 1) := by
  have hpos := Nat.two_pow_pos f.fractionBits
  have hp := Nat.div_add_mod p (2 ^ f.fractionBits)
  have hlt := Nat.mod_lt p hpos
  rw [Nat.pow_succ']
  cases hE : p / 2 ^ f.fractionBits with
  | zero =>
    rw [hE, Nat.mul_zero] at hp
    exact ⟨0, p, by omega, .inl rfl, by omega⟩
  | succ k =>
    rw [hE, Nat.mul_succ] at hp
    refine ⟨k, 2 ^ f.fractionBits + p % 2 ^ f.fractionBits, ?_, .inr (by omega), by omega⟩
    rw [Nat.mul_comm k]
    omega

theorem magnitude_nonneg (p : Nat) : 0 ≤ f.magnitude p := by
  unfold magnitude
  positivity

@[simp] theorem magnitude_zero : f.magnitude 0 = 0 := by
  simp [magnitude]

/-- The numbers of a format ascend with their patterns. -/
theorem magnitude_strictMono : StrictMono f.magnitude := by
  refine strictMono_nat_of_lt_succ fun p => ?_
  -- the next pattern is the next significand at the same place
  obtain ⟨k, m, rfl, hk, hm⟩ := f.exists_layout p
  have hk' : k = 0 ∨ 2 ^ f.fractionBits ≤ m + 1 := hk.imp_right fun h => by omega
  rw [Nat.add_assoc, f.magnitude_layout hk hm.le, f.magnitude_layout hk' hm]
  have hpos : (0 : ℚ) < 2 ^ (f.minExponent + k) := by positivity
  push_cast
  linarith

/-! ## The exact value of a pattern -/

theorem exponentField_eq (n : Nat) : f.exponentField n = f.body n / 2 ^ f.fractionBits := by
  rw [exponentField, body, Nat.one_shiftLeft, Nat.shiftRight_eq_div_pow, Nat.pow_add,
    Nat.mul_comm (2 ^ f.exponentBits), Nat.mod_mul_right_div_self]

theorem fractionField_eq (n : Nat) : f.fractionField n = f.body n % 2 ^ f.fractionBits := by
  rw [fractionField, body, Nat.one_shiftLeft]
  exact (Nat.mod_mod_of_dvd n (Nat.pow_dvd_pow 2 (Nat.le_add_left _ _))).symm

theorem exponentField_eq_maxField_iff (n : Nat) :
    f.exponentField n = f.maxField ↔ f.infinity ≤ f.body n := by
  have hpos := Nat.two_pow_pos f.fractionBits
  have hlt := f.exponentField_lt n
  rw [infinity_eq, ← Nat.le_div_iff_mul_le hpos, ← exponentField_eq, maxField, Nat.one_shiftLeft]
  omega

theorem value?_decode (n : Nat) : (f.decode n).value? =
    if f.body n < f.infinity then
      some ((if f.negative n then -1 else 1) * f.magnitude (f.body n))
    else none := by
  have hmax := f.exponentField_eq_maxField_iff n
  unfold decode
  by_cases hinf : f.body n < f.infinity
  · rw [if_pos hinf, if_neg (by rw [hmax]; omega)]
    have hp := Nat.div_add_mod (f.body n) (2 ^ f.fractionBits)
    rw [← f.exponentField_eq, ← f.fractionField_eq] at hp
    have hlt := f.fractionField_lt n
    split
    · next hE =>
      -- no hidden bit: the fraction field at the place 0
      have h := f.magnitude_layout (k := 0) (m := f.fractionField n) (.inl rfl)
        (hlt.le.trans (Nat.pow_le_pow_right (by decide) (Nat.le_succ _)))
      rw [hE, Nat.mul_zero] at hp
      rw [Nat.zero_mul, hp] at h
      rw [h]
      simp [Datum.value?]
    · next hE =>
      -- the hidden bit leads the significand
      obtain ⟨k, hk⟩ := Nat.exists_eq_succ_of_ne_zero hE
      rw [Nat.succ_eq_add_one] at hk
      rw [hk, Nat.mul_succ, Nat.add_assoc, Nat.mul_comm] at hp
      have h := f.magnitude_layout (k := k)
        (m := 2 ^ f.fractionBits + f.fractionField n) (.inr (by omega))
        (by rw [Nat.pow_succ']; omega)
      rw [hp] at h
      have he : f.minExponent + ((k + 1 : Nat) : Int) - 1 = f.minExponent + k := by
        push_cast
        ring
      rw [h, hk, he, Nat.one_shiftLeft]
      rfl
  · rw [if_neg hinf, if_pos (by rw [hmax]; omega)]
    split <;> rfl

end NarrowInt.Format
