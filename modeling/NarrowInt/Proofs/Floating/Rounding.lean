import Mathlib
import NarrowInt.Floating.Rounding
import NarrowInt.Proofs.Floating.Magnitude

/-!
# The rounded pattern

A rounded significand is the integer nearest to the scaled number, the even one on a tie. So is the
rounded pattern among all patterns without a sign bit: a number with its last digit above the last
place is counted in last places, and a number with a smaller last digit lies below the first
significand with a leading bit, which is nearer.

## Main results

* `roundShift_nearest`: a rounded quotient is the nearest integer
* `Format.magnitude_round`: the number of a rounded pattern
* `Format.magnitude_round_nearest`: no pattern is nearer than the rounded one
* `Format.magnitude_round_exact`: a number with few enough digits is kept
-/

namespace NarrowInt

/-! ## Rounding a quotient by a power of two -/

/-- The distance of a multiple of `2 ^ k` from `m`: the remainder, or what is missing to the next
multiple, and at least `2 ^ k` more unless the multiple is next to `m`. -/
theorem abs_mul_two_pow_sub (m k : Nat) (n : Int) :
    (n ≤ (m / 2 ^ k : Nat) ∧ ∃ t : Int,
      (n = (m / 2 ^ k : Nat) ∧ t = 0 ∨ n ≠ (m / 2 ^ k : Nat) ∧ 2 ^ k ≤ t) ∧
      |n * 2 ^ k - m| = t + (m % 2 ^ k : Nat)) ∨
    ((m / 2 ^ k : Nat) < n ∧ ∃ t : Int,
      (n = (m / 2 ^ k : Nat) + 1 ∧ t = 0 ∨ n ≠ (m / 2 ^ k : Nat) + 1 ∧ 2 ^ k ≤ t) ∧
      |n * 2 ^ k - m| = t + (2 ^ k - (m % 2 ^ k : Nat))) := by
  have hpos : (0 : Int) < 2 ^ k := by positivity
  have hm : (m : Int) = (m / 2 ^ k : Nat) * 2 ^ k + (m % 2 ^ k : Nat) := by
    have h := Nat.div_add_mod m (2 ^ k)
    rw [Nat.mul_comm] at h
    exact_mod_cast h.symm
  have hlt : ((m % 2 ^ k : Nat) : Int) < 2 ^ k := by
    exact_mod_cast Nat.mod_lt m (Nat.two_pow_pos k)
  generalize (m / 2 ^ k : Nat) = Q at *
  generalize (m % 2 ^ k : Nat) = R at *
  rw [hm]
  rcases lt_or_ge (Q : Int) n with h | h
  · -- above `m`, the multiples are counted from the next one
    have ht : (0 : Int) ≤ (n - (Q + 1)) * 2 ^ k := mul_nonneg (by omega) hpos.le
    refine .inr ⟨h, (n - (Q + 1)) * 2 ^ k, ?_, ?_⟩
    · rcases eq_or_ne n (Q + 1) with rfl | h'
      · exact .inl ⟨rfl, by rw [sub_self, zero_mul]⟩
      · exact .inr ⟨h', le_mul_of_one_le_left hpos.le (by omega)⟩
    · rw [abs_of_nonneg (by linarith)]
      ring
  · -- below `m`, they are counted from the quotient
    have ht : (0 : Int) ≤ (Q - n) * 2 ^ k := mul_nonneg (by omega) hpos.le
    refine .inl ⟨h, (Q - n) * 2 ^ k, ?_, ?_⟩
    · rcases eq_or_ne n Q with rfl | h'
      · exact .inl ⟨rfl, by rw [sub_self, zero_mul]⟩
      · exact .inr ⟨h', le_mul_of_one_le_left hpos.le (by omega)⟩
    · rw [abs_of_nonpos (by linarith)]
      ring

/-- A rounded quotient is the integer nearest to the quotient, the even one on a tie. -/
theorem roundShift_nearest (m k : Nat) (n : Int) :
    |(roundShift m k : Int) * 2 ^ k - m| ≤ |n * 2 ^ k - m| ∧
      (|n * 2 ^ k - m| = |(roundShift m k : Int) * 2 ^ k - m| →
        n = roundShift m k ∨ Even (roundShift m k)) := by
  have hr := abs_mul_two_pow_sub m k (roundShift m k)
  have hn := abs_mul_two_pow_sub m k n
  have hlt := Nat.mod_lt m (Nat.two_pow_pos k)
  have hcast : ((2 ^ k : Nat) : Int) = 2 ^ k := by push_cast; rfl
  have hround : roundShift m k = if 2 * (m % 2 ^ k) < 2 ^ k then m / 2 ^ k
      else if 2 ^ k < 2 * (m % 2 ^ k) then m / 2 ^ k + 1
      else m / 2 ^ k + m / 2 ^ k % 2 := by
    rw [roundShift, Nat.one_shiftLeft, Nat.shiftRight_eq_div_pow]
  rw [Nat.even_iff]
  -- the quotient and the remainder are all that counts from here on
  generalize |(roundShift m k : Int) * 2 ^ k - m| = a at *
  generalize |n * 2 ^ k - m| = b at *
  generalize roundShift m k = r at *
  rw [← hcast] at hr hn
  generalize 2 ^ k = D at *
  generalize m / D = Q at *
  generalize m % D = R at *
  rcases hr with ⟨hr, t, ht, ha⟩ | ⟨hr, t, ht, ha⟩ <;>
    rcases hn with ⟨hn, u, hu, hb⟩ | ⟨hn, u, hu, hb⟩ <;>
    split_ifs at hround <;> omega

namespace Format

variable (f : Format)

/-! ## The rounded significand -/

/-- Distances of multiples of `2 ^ q` from `m * 2 ^ e`, brought to the unit `2 ^ e`. -/
theorem abs_mul_zpow_sub {e q : Int} (h : e ≤ q) (m : Nat) (n : Int) :
    |(n : ℚ) * 2 ^ q - m * 2 ^ e| = (|n * 2 ^ (q - e).toNat - m| : Int) * 2 ^ e := by
  have hq : (2 : ℚ) ^ q = 2 ^ (q - e).toNat * 2 ^ e := by
    rw [← zpow_natCast, Int.toNat_of_nonneg (by omega), ← zpow_add₀ (by norm_num)]
    congr 1
    ring
  have hpos : (0 : ℚ) < 2 ^ e := by positivity
  rw [hq, ← mul_assoc, ← sub_mul, abs_mul, abs_of_pos hpos]
  push_cast
  rfl

/-- A significand is kept at a last place that is no greater than its own. -/
theorem significandAt_exact (m : Nat) {e q : Int} (h : q ≤ e) :
    (significandAt m e q : ℚ) * 2 ^ q = m * 2 ^ e := by
  have hs : significandAt m e q = m * 2 ^ (e - q).toNat := by
    unfold significandAt
    split
    · next h' =>
      obtain rfl : e = q := le_antisymm h' h
      simp
    · exact Nat.shiftLeft_eq _ _
  rw [hs]
  push_cast
  rw [← zpow_natCast, Int.toNat_of_nonneg (by omega), mul_assoc, ← zpow_add₀ (by norm_num)]
  congr 2
  ring

/-- A significand at the last place `q` is the number of last places nearest to `m * 2 ^ e`, the
even one on a tie. -/
theorem significandAt_nearest (m : Nat) (e q : Int) (n : Int) :
    |(significandAt m e q : ℚ) * 2 ^ q - m * 2 ^ e| ≤ |(n : ℚ) * 2 ^ q - m * 2 ^ e| ∧
      (|(n : ℚ) * 2 ^ q - m * 2 ^ e| = |(significandAt m e q : ℚ) * 2 ^ q - m * 2 ^ e| →
        n = significandAt m e q ∨ Even (significandAt m e q)) := by
  rcases le_or_gt e q with h | h
  · have hs : significandAt m e q = roundShift m (q - e).toNat := if_pos h
    obtain ⟨hle, htie⟩ := roundShift_nearest m (q - e).toNat n
    have hpos : (0 : ℚ) < 2 ^ e := by positivity
    have hr := abs_mul_zpow_sub h m (roundShift m (q - e).toNat)
    rw [Int.cast_natCast] at hr
    rw [hs, hr, abs_mul_zpow_sub h m n]
    refine ⟨mul_le_mul_of_nonneg_right (by exact_mod_cast hle) hpos.le, fun heq => htie ?_⟩
    exact_mod_cast mul_right_cancel₀ hpos.ne' heq
  · -- the shift is exact, so no other multiple is as near
    have hx := significandAt_exact m h.le
    have hpos : (0 : ℚ) < 2 ^ q := by positivity
    rw [hx, sub_self, abs_zero]
    refine ⟨abs_nonneg _, fun heq => .inl ?_⟩
    rw [abs_eq_zero, sub_eq_zero, ← hx] at heq
    have hn := mul_right_cancel₀ hpos.ne' heq
    rw [← Int.cast_natCast] at hn
    exact Int.cast_injective hn

/-- At its last place a number has at most `fractionBits + 1` binary digits. -/
theorem mul_zpow_lt (m : Nat) (e : Int) :
    (m : ℚ) * 2 ^ e < 2 ^ (f.fractionBits + 1) * 2 ^ f.lastPlace m e := by
  have hm : (m : ℚ) < 2 ^ (m.log2 + 1) := by exact_mod_cast Nat.lt_log2_self
  have hpos : (0 : ℚ) < 2 ^ e := by positivity
  have hle : e + m.log2 - f.fractionBits ≤ f.lastPlace m e := le_max_right _ _
  calc (m : ℚ) * 2 ^ e < 2 ^ (m.log2 + 1) * 2 ^ e := mul_lt_mul_of_pos_right hm hpos
    _ = 2 ^ (((m.log2 + 1 : Nat) : Int) + e) := by
      rw [← zpow_natCast, ← zpow_add₀ (by norm_num)]
    _ ≤ 2 ^ (((f.fractionBits + 1 : Nat) : Int) + f.lastPlace m e) :=
      zpow_le_zpow_right₀ (by norm_num) (by push_cast; omega)
    _ = 2 ^ (f.fractionBits + 1) * 2 ^ f.lastPlace m e := by
      rw [zpow_add₀ (by norm_num), zpow_natCast]

/-- Above the smallest last place a number has at least `fractionBits + 1` binary digits. -/
theorem le_mul_zpow {m : Nat} (hm : m ≠ 0) {e : Int} (h : f.minExponent < f.lastPlace m e) :
    (2 : ℚ) ^ f.fractionBits * 2 ^ f.lastPlace m e ≤ m * 2 ^ e := by
  have hle : (2 : ℚ) ^ m.log2 ≤ m := by exact_mod_cast Nat.log2_self_le hm
  have hq : f.lastPlace m e = e + m.log2 - f.fractionBits := by
    unfold lastPlace at h ⊢
    omega
  calc (2 : ℚ) ^ f.fractionBits * 2 ^ f.lastPlace m e = 2 ^ m.log2 * 2 ^ e := by
        rw [hq, ← zpow_natCast, ← zpow_natCast, ← zpow_add₀ (by norm_num),
          ← zpow_add₀ (by norm_num)]
        congr 1
        ring
    _ ≤ m * 2 ^ e := mul_le_mul_of_nonneg_right hle (by positivity)

theorem significandAt_le (m : Nat) (e : Int) :
    significandAt m e (f.lastPlace m e) ≤ 2 ^ (f.fractionBits + 1) := by
  by_contra h
  have hlt := f.mul_zpow_lt m e
  have hn :=
    (significandAt_nearest m e (f.lastPlace m e) ((2 ^ (f.fractionBits + 1) : Nat) : Int)).1
  have hpos : (0 : ℚ) < 2 ^ f.lastPlace m e := by positivity
  have hs : (2 : ℚ) ^ (f.fractionBits + 1) < significandAt m e (f.lastPlace m e) := by
    exact_mod_cast Nat.lt_of_not_le h
  have hs' := mul_lt_mul_of_pos_right hs hpos
  push_cast at hn
  rw [abs_of_pos (by linarith), abs_of_pos (by linarith)] at hn
  linarith

theorem le_significandAt {m : Nat} (hm : m ≠ 0) {e : Int} (h : f.minExponent < f.lastPlace m e) :
    2 ^ f.fractionBits ≤ significandAt m e (f.lastPlace m e) := by
  by_contra hlt
  have hle := f.le_mul_zpow hm h
  have hn := (significandAt_nearest m e (f.lastPlace m e) ((2 ^ f.fractionBits : Nat) : Int)).1
  have hpos : (0 : ℚ) < 2 ^ f.lastPlace m e := by positivity
  have hs : (significandAt m e (f.lastPlace m e) : ℚ) < 2 ^ f.fractionBits := by
    exact_mod_cast Nat.lt_of_not_le hlt
  have hs' := mul_lt_mul_of_pos_right hs hpos
  push_cast at hn
  rw [abs_of_nonpos (by linarith), abs_of_nonpos (by linarith)] at hn
  linarith

/-- The last place of a number with no more digits than the format has is at most its own. -/
theorem lastPlace_le {m : Nat} {e : Int} (hm : m < 2 ^ (f.fractionBits + 1))
    (he : f.minExponent ≤ e) : f.lastPlace m e ≤ e := by
  have hlog : m.log2 ≤ f.fractionBits := by
    rcases eq_or_ne m 0 with rfl | h₀
    · rw [Nat.log2_zero]
      exact Nat.zero_le _
    · exact Nat.lt_succ_iff.1 ((Nat.log2_lt h₀).2 hm)
  unfold lastPlace
  omega

/-! ## The rounded pattern -/

@[simp] theorem round_zero (e : Int) : f.round 0 e = 0 := if_pos rfl

theorem round_of_ne_zero {m : Nat} (hm : m ≠ 0) (e : Int) :
    f.round m e = min f.infinity
      ((f.lastPlace m e - f.minExponent).toNat * 2 ^ f.fractionBits +
        significandAt m e (f.lastPlace m e)) := by
  rw [← Nat.shiftLeft_eq]
  exact if_neg hm

theorem round_le_infinity (m : Nat) (e : Int) : f.round m e ≤ f.infinity := by
  rcases eq_or_ne m 0 with rfl | hm
  · rw [round_zero]
    exact Nat.zero_le _
  · rw [f.round_of_ne_zero hm]
    exact Nat.min_le_left _ _

/-- A rounded pattern that does not overflow is the rounded significand at its last place. -/
theorem round_eq {m : Nat} (hm : m ≠ 0) {e : Int} (h : f.round m e < f.infinity) :
    f.round m e = (f.lastPlace m e - f.minExponent).toNat * 2 ^ f.fractionBits +
      significandAt m e (f.lastPlace m e) := by
  rw [f.round_of_ne_zero hm] at h ⊢
  omega

theorem magnitude_round {m : Nat} {e : Int} (h : f.round m e < f.infinity) :
    f.magnitude (f.round m e) =
      significandAt m e (f.lastPlace m e) * 2 ^ f.lastPlace m e := by
  have hq : f.minExponent ≤ f.lastPlace m e := le_max_left _ _
  rcases eq_or_ne m 0 with rfl | hm
  · have h₀ : significandAt 0 e (f.lastPlace 0 e) = 0 := by
      unfold significandAt
      split <;> simp [roundShift]
    rw [h₀, round_zero]
    simp
  · have hk : (f.lastPlace m e - f.minExponent).toNat = 0 ∨
        2 ^ f.fractionBits ≤ significandAt m e (f.lastPlace m e) := by
      rcases hq.eq_or_lt with h' | h'
      · exact .inl (by omega)
      · exact .inr (f.le_significandAt hm h')
    rw [f.round_eq hm h, f.magnitude_layout hk (f.significandAt_le m e),
      Int.toNat_of_nonneg (by omega)]
    congr 2
    ring

/-- A number whose last place stands well below that of the largest numbers does not overflow. -/
theorem round_lt_infinity {m : Nat} {e : Int}
    (h : f.lastPlace m e + 3 ≤ f.minExponent + f.maxField) : f.round m e < f.infinity := by
  have hq : f.minExponent ≤ f.lastPlace m e := le_max_left _ _
  have hpos := Nat.two_pow_pos f.fractionBits
  have hs := f.significandAt_le m e
  obtain ⟨k, hk⟩ := Int.eq_ofNat_of_zero_le (show 0 ≤ f.lastPlace m e - f.minExponent by omega)
  have hmax : (k + 3) * 2 ^ f.fractionBits ≤ f.infinity := by
    rw [infinity, Nat.shiftLeft_eq]
    exact Nat.mul_le_mul_right _ (by omega)
  rw [Nat.add_mul] at hmax
  rw [Nat.pow_succ'] at hs
  rcases eq_or_ne m 0 with rfl | hm
  · rw [round_zero]
    omega
  · rw [f.round_of_ne_zero hm, hk, Int.toNat_natCast]
    omega

/-- No pattern stands for a number nearer to `m * 2 ^ e` than the rounded pattern, and none for
another one as near unless the rounded significand is even. -/
theorem magnitude_round_nearest {m : Nat} {e : Int} (h : f.round m e < f.infinity) (p : Nat) :
    |f.magnitude (f.round m e) - m * 2 ^ e| ≤ |f.magnitude p - m * 2 ^ e| ∧
      (|f.magnitude p - m * 2 ^ e| = |f.magnitude (f.round m e) - m * 2 ^ e| →
        f.magnitude p = f.magnitude (f.round m e) ∨
          Even (significandAt m e (f.lastPlace m e))) := by
  rcases eq_or_ne m 0 with rfl | hm
  · -- zero is kept, and is the only number at no distance from itself
    rw [round_zero, magnitude_zero, Nat.cast_zero, zero_mul, sub_zero, sub_zero, abs_zero]
    exact ⟨abs_nonneg _, fun heq => .inl (abs_eq_zero.1 heq)⟩
  rw [f.magnitude_round h]
  obtain ⟨k, n, rfl, hk, hn⟩ := f.exists_layout p
  rw [f.magnitude_layout hk hn.le]
  rcases le_or_gt (f.lastPlace m e) (f.minExponent + k) with hle | hlt
  · -- the other number is a multiple of the last place
    obtain ⟨j, hj⟩ := Int.eq_ofNat_of_zero_le (sub_nonneg.2 hle)
    have hp : (n : ℚ) * 2 ^ (f.minExponent + k) =
        ((n * 2 ^ j : Nat) : Int) * 2 ^ f.lastPlace m e := by
      have he : f.minExponent + k = j + f.lastPlace m e := by omega
      rw [he, zpow_add₀ (by norm_num), zpow_natCast]
      push_cast
      ring
    obtain ⟨h₁, h₂⟩ := significandAt_nearest m e (f.lastPlace m e) ((n * 2 ^ j : Nat) : Int)
    rw [hp]
    refine ⟨h₁, fun heq => (h₂ heq).imp_left fun h' => ?_⟩
    rw [h', Int.cast_natCast]
  · -- the other number lies below the smallest significand with a leading bit, which is nearer
    have hx := f.le_mul_zpow hm (e := e) (by omega)
    obtain ⟨h₁, -⟩ := significandAt_nearest m e (f.lastPlace m e) ((2 ^ f.fractionBits : Nat) : Int)
    have hn' : (n : ℚ) < 2 ^ (f.fractionBits + 1) := by exact_mod_cast hn
    have hp : (n : ℚ) * 2 ^ (f.minExponent + k) < 2 ^ f.fractionBits * 2 ^ f.lastPlace m e :=
      calc (n : ℚ) * 2 ^ (f.minExponent + k)
          < 2 ^ (f.fractionBits + 1) * 2 ^ (f.minExponent + k) :=
            mul_lt_mul_of_pos_right hn' (by positivity)
        _ = 2 ^ f.fractionBits * 2 ^ (f.minExponent + k + 1) := by
            rw [pow_succ, zpow_add_one₀ (by norm_num)]
            ring
        _ ≤ 2 ^ f.fractionBits * 2 ^ f.lastPlace m e :=
            mul_le_mul_of_nonneg_left (zpow_le_zpow_right₀ (by norm_num) (by omega))
              (by positivity)
    push_cast at h₁
    generalize (2 : ℚ) ^ f.fractionBits * 2 ^ f.lastPlace m e = b at *
    generalize (n : ℚ) * 2 ^ (f.minExponent + k) = y at *
    rw [abs_of_nonpos (a := b - _) (by linarith)] at h₁
    rw [abs_of_neg (a := y - _) (by linarith)]
    exact ⟨by linarith, fun heq => by linarith⟩

/-- A number with its last digit at or above the last place is kept. -/
theorem magnitude_round_exact {m : Nat} {e : Int} (h : f.round m e < f.infinity)
    (hq : f.lastPlace m e ≤ e) : f.magnitude (f.round m e) = m * 2 ^ e := by
  rw [f.magnitude_round h, significandAt_exact m hq]

end Format

end NarrowInt
