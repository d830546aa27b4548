import Mathlib
import NarrowInt.Proofs.Floating.Integer

/-!
# Numbers through floats and back

A number comes back from its float of 64 bits, which is exact. Its float of 32 bits holds an integer
as well, one of 24 significant bits: a float with a fraction is less than `2 ^ 24` in magnitude, and
integers up to there are exact. What comes back is that integer, wrapped. It is the value of the
number only if nothing was rounded, since the rounding error is smaller than the modulus, even where
rounding leaves the domain: zero is a float too, so the nearest float is at most as far away as zero.

In the other direction, a float whose integer part lies in the domain becomes the float of its
integer part, with the zero that has no bits set for every integer part zero.

## Main definitions

* `HasSignificantBits`: the integer has at most a given number of significant bits
* `Family.magnitudeBits`: the number of significant bits apart from a sign bit

## Main results

* `Single.exists_value?_eq`: the integers that a float of 32 bits holds
* `Number.exists_value?_toSingle`: the float of 32 bits of a number holds an integer
* `Number.ofSingle_toSingle_iff`: the numbers that come back from their floats of 32 bits
* `Number.forall_hasSignificantBits_iff`: the families in which all of them do
* `Number.toDouble_ofDouble_iff`: the float that a float becomes
* `Number.float_round_trips`: the round trips in both directions
-/

namespace NarrowInt

/-! ## Significant bits -/

/-- The integer has at most `n` significant bits, counted from the first one that is set to the last
one. -/
def HasSignificantBits (n : Nat) (v : Int) : Prop :=
  ∃ (m : Int) (e : Nat), |m| ≤ 2 ^ n ∧ v = m * 2 ^ e

namespace HasSignificantBits

variable {n : Nat} {v : Int}

theorem of_abs_le (h : |v| ≤ 2 ^ n) : HasSignificantBits n v :=
  ⟨v, 0, h, by rw [pow_zero, mul_one]⟩

/-- The power `2 ^ n` itself has a single significant bit, so it can be left out. -/
theorem exists_natAbs_lt (hn : n ≠ 0) (h : HasSignificantBits n v) :
    ∃ (m : Int) (e : Nat), m.natAbs < 2 ^ n ∧ v = m * 2 ^ e := by
  obtain ⟨m, e, hm, rfl⟩ := h
  have hm' : m.natAbs ≤ 2 ^ n := by
    rw [Int.abs_eq_natAbs] at hm
    exact_mod_cast hm
  rcases hm'.lt_or_eq with hlt | heq
  · exact ⟨m, e, hlt, rfl⟩
  · obtain ⟨k, rfl⟩ := Nat.exists_eq_succ_of_ne_zero hn
    have hpos := Nat.two_pow_pos k
    rw [Nat.pow_succ'] at heq ⊢
    have hhalf : m = m / 2 * 2 := by omega
    refine ⟨m / 2, e + 1, by omega, ?_⟩
    calc m * 2 ^ e = m / 2 * 2 * 2 ^ e := by rw [← hhalf]
      _ = m / 2 * 2 ^ (e + 1) := by ring

/-- The first integer with too many significant bits. -/
theorem not_two_pow_add_one (hn : n ≠ 0) : ¬ HasSignificantBits n (2 ^ n + 1) := by
  rintro ⟨m, e, hm, heq⟩
  obtain ⟨k, rfl⟩ := Nat.exists_eq_succ_of_ne_zero hn
  have hpos : (0 : Int) < 2 ^ k := by positivity
  rw [Nat.succ_eq_add_one, pow_succ'] at hm heq
  cases e with
  | zero =>
    rw [pow_zero, mul_one] at heq
    rw [← heq, abs_of_pos (by omega)] at hm
    omega
  | succ e =>
    -- an odd integer is no multiple of two
    rw [pow_succ, ← mul_assoc] at heq
    omega

end HasSignificantBits

/-- A float of 32 bits holds the integers of 24 significant bits. -/
theorem Single.exists_value?_eq {v : Int} (h : HasSignificantBits 24 v) (hle : v.natAbs ≤ 2 ^ 32) :
    ∃ p : Single, p.datum.value? = some (v : ℚ) := by
  obtain ⟨m, e, hm, rfl⟩ := h.exists_natAbs_lt (by decide)
  rcases eq_or_ne m 0 with rfl | h₀
  · refine ⟨0, ?_⟩
    rw [zero_mul, Int.cast_zero]
    exact Format.value?_decode_zero false
  · have he : e ≤ 32 := by
      rw [Int.natAbs_mul, Int.natAbs_pow] at hle
      have hm₁ : 1 ≤ m.natAbs := Int.natAbs_pos.2 h₀
      exact (Nat.pow_le_pow_iff_right (by decide)).1 ((Nat.le_mul_of_pos_left _ hm₁).trans hle)
    refine ⟨.ofDatum (.finite (decide (m < 0)) m.natAbs e), ?_⟩
    rw [value?_ofDatum, Number.value?_finite_natAbs]
    · push_cast
      rfl
    · rintro s m' e' hd
      cases hd
      exact ⟨hm, by omega, by omega⟩

theorem Single.exists_isNearest {v : Int} (h : HasSignificantBits 24 v) (hle : v.natAbs ≤ 2 ^ 32)
    (h₀ : v ≠ 0) :
    ∃ p : Single, p.datum.value? = some (v : ℚ) ∧ Format.single.IsNearest v p.toNat := by
  obtain ⟨p, hp⟩ := exists_value?_eq h hle
  have hsign := Format.negative_of_value? (Int.cast_ne_zero.2 h₀) hp
  exact ⟨p, hp, Format.isNearest_of_value? hsign hp⟩

namespace Number

variable {F : Family} (x : Number F)

/-! ## The way back from a float of 64 bits -/

theorem ofDouble_toDouble : ofDouble x.toDouble = x := by
  refine value_injective ?_
  rw [value_ofDouble, Datum.truncate_of_value? x.value?_toDouble, towardZero_intCast, wrap_value]

/-! ## The way back from a float of 32 bits -/

/-- A value of 24 significant bits is not rounded. -/
theorem value?_toSingle_of_hasSignificantBits (h : HasSignificantBits 24 x.value) :
    x.toSingle.datum.value? = some (x.value : ℚ) := by
  obtain ⟨p, hp⟩ := Single.exists_value?_eq h x.natAbs_value_le
  obtain ⟨-, y, hy, hnear⟩ := x.isNearest_toSingle
  -- the nearest float is as near as the one that holds the value
  have hle := (hnear _ _ hp).1
  rw [sub_self, abs_zero] at hle
  rw [← sub_eq_zero.1 (abs_nonpos_iff.1 hle)]
  exact hy

/-- Rounding keeps a value on its side of `2 ^ 24` and of `-2 ^ 24`. -/
theorem two_pow_le_abs_of_value? {y : ℚ} (hy : x.toSingle.datum.value? = some y)
    (hx : 2 ^ 24 < |x.value|) : 2 ^ 24 ≤ |y| := by
  rcases lt_abs.1 hx with h | h
  · obtain ⟨p, hp, hn⟩ := Single.exists_isNearest (v := 2 ^ 24) (.of_abs_le (by decide)) (by decide)
      (by decide)
    have hle := hn.value_le x.isNearest_toSingle (by exact_mod_cast h) hp hy
    push_cast at hle
    exact le_abs.2 (.inl hle)
  · obtain ⟨p, hp, hn⟩ := Single.exists_isNearest (v := -2 ^ 24) (.of_abs_le (by decide)) (by decide)
      (by decide)
    have hlt : x.value < -2 ^ 24 := lt_neg_of_lt_neg h
    have hle := x.isNearest_toSingle.value_le hn (by exact_mod_cast hlt) hy hp
    push_cast at hle
    exact le_abs.2 (.inr (le_neg_of_le_neg hle))

/-- The float of 32 bits holds an integer of 24 significant bits. -/
theorem exists_value?_toSingle :
    ∃ k : Int, HasSignificantBits 24 k ∧ x.toSingle.datum.value? = some (k : ℚ) := by
  rcases le_or_gt |x.value| (2 ^ 24) with h | h
  · have hbits := HasSignificantBits.of_abs_le h
    exact ⟨x.value, hbits, x.value?_toSingle_of_hasSignificantBits hbits⟩
  · obtain ⟨-, y, hy, -⟩ := x.isNearest_toSingle
    obtain ⟨m, e, hd⟩ := Format.exists_decode_eq hy
    generalize Format.single.negative x.toSingle.toNat = s at hd
    obtain ⟨hm, -, -⟩ := x.toSingle.datum_finite hd
    have hge := x.two_pow_le_abs_of_value? hy h
    rw [hd] at hy
    -- with a digit behind the point the float would be less than `2 ^ 24`
    have he : 0 ≤ e := by
      by_contra hneg
      have hone : (2 : ℚ) ^ e ≤ 1 := zpow_le_one_of_nonpos₀ (by norm_num) (by omega)
      have hm' : (m : ℚ) < 2 ^ 24 := by exact_mod_cast hm
      have hle : (m : ℚ) * 2 ^ e ≤ m := mul_le_of_le_one_right (by positivity) hone
      rw [Datum.abs_of_value? hy] at hge
      linarith
    obtain ⟨n, rfl⟩ := Int.eq_ofNat_of_zero_le he
    refine ⟨(if s then -1 else 1) * m * 2 ^ n, ⟨(if s then -1 else 1) * m, n, ?_, rfl⟩, ?_⟩
    · have hsign : |(if s then -1 else 1 : Int)| = 1 := by cases s <;> rfl
      rw [abs_mul, hsign, one_mul, Nat.abs_cast]
      exact_mod_cast hm.le
    · change x.toSingle.datum = _ at hd
      rw [hd]
      simp only [Datum.value?, zpow_natCast]
      push_cast
      rw [mul_assoc]

/-- The rounding error is smaller than the modulus, since zero is a float. -/
theorem abs_sub_value_lt {k : Int} (hk : x.toSingle.datum.value? = some (k : ℚ)) :
    |k - x.value| < F.modulus := by
  obtain ⟨-, y, hy, hnear⟩ := x.isNearest_toSingle
  obtain rfl : (k : ℚ) = y := Option.some.inj (hk.symm.trans hy)
  have hle := (hnear 0 0 (Format.value?_decode_zero false)).1
  rw [zero_sub, abs_neg] at hle
  have hle' : |k - x.value| ≤ |x.value| := by exact_mod_cast hle
  obtain ⟨hlo, hhi⟩ := x.contains_value.bounds
  have hm := F.modulus_eq_two_mul
  have hpos : (0 : Int) < 2 ^ (F.width.bits - 1) := by positivity
  have hlt : |x.value| < F.modulus := abs_lt.2 ⟨by omega, hhi⟩
  exact hle'.trans_lt hlt

/-- The numbers that come back from their floats of 32 bits are those that are not rounded. -/
theorem ofSingle_toSingle_iff :
    (ofSingle x.toSingle : Number F) = x ↔ HasSignificantBits 24 x.value := by
  obtain ⟨k, hk, hval⟩ := x.exists_value?_toSingle
  have hback : (ofSingle x.toSingle : Number F).value = F.wrap k := by
    rw [value_ofSingle, Datum.truncate_of_value? hval, towardZero_intCast]
  constructor
  · intro h
    -- the integer is congruent to the value, and too near to be another one
    rw [h, ← x.wrap_value, F.wrap_eq_wrap_iff] at hback
    have hdvd : F.modulus ∣ k - x.value := Int.ModEq.dvd hback
    have heq := Int.eq_zero_of_abs_lt_dvd hdvd (x.abs_sub_value_lt hval)
    rwa [← sub_eq_zero.1 heq]
  · intro h
    have hexact := x.value?_toSingle_of_hasSignificantBits h
    obtain rfl : k = x.value := Int.cast_injective (Option.some.inj (hval.symm.trans hexact))
    exact value_injective (hback.trans x.wrap_value)

end Number

/-! ## Families of few significant bits -/

namespace Family

/-- The number of significant bits apart from a sign bit. -/
def magnitudeBits (F : Family) : Nat := if F.signed then F.width.bits - 1 else F.width.bits

theorem magnitudeBits_le_iff (F : Family) (n : Nat) :
    F.magnitudeBits ≤ n ↔ F.width.bits ≤ if F.signed then n + 1 else n := by
  have := F.width.one_le
  unfold magnitudeBits
  split <;> omega

theorem greatest_eq (F : Family) : F.greatest = 2 ^ F.magnitudeBits - 1 := by
  have hm := F.modulus_eq_two_mul
  unfold greatest least magnitudeBits
  split
  · omega
  · rw [zero_add, modulus]

theorem Contains.abs_le_two_pow {F : Family} {v : Int} (hv : F.Contains v) :
    |v| ≤ 2 ^ F.magnitudeBits := by
  obtain ⟨hlo, hhi⟩ := hv
  have hg := F.greatest_eq
  have hpos : (0 : Int) < 2 ^ F.magnitudeBits := by positivity
  have hl : -2 ^ F.magnitudeBits ≤ F.least := by
    by_cases hs : F.signed
    · rw [F.least_of_signed hs, magnitudeBits, if_pos hs]
    · rw [F.least_of_unsigned hs]
      omega
  exact abs_le.2 ⟨by omega, by omega⟩

end Family

namespace Number

variable {F : Family}

/-- All values of a family have few enough significant bits, or else the first integer with too many
of them is one of the values. -/
theorem forall_hasSignificantBits_iff {n : Nat} (hn : n ≠ 0) :
    (∀ x : Number F, HasSignificantBits n x.value) ↔ F.magnitudeBits ≤ n := by
  constructor
  · intro h
    by_contra hlt
    -- the integer after a power of two has a one at each end
    have hv : F.Contains (2 ^ n + 1) := by
      have hpow : (2 : Int) ^ (n + 1) ≤ 2 ^ F.magnitudeBits :=
        pow_le_pow_right₀ (by norm_num) (by omega)
      have htwo : (2 : Int) ^ 1 ≤ 2 ^ n := pow_le_pow_right₀ (by norm_num) (by omega)
      have hg := F.greatest_eq
      have hl := F.contains_zero.1
      rw [pow_succ'] at hpow
      unfold Family.Contains
      omega
    have hx := h (ofInt (2 ^ n + 1))
    rw [value_ofInt, F.wrap_of_contains hv] at hx
    exact HasSignificantBits.not_two_pow_add_one hn hx
  · intro hle x
    refine .of_abs_le (x.contains_value.abs_le_two_pow.trans ?_)
    exact pow_le_pow_right₀ (by norm_num) hle

/-! ## The float of an integer part -/

/-- A float with its integer part in the domain becomes the only float that holds its integer part,
with no bits set when that is zero. -/
theorem toDouble_ofDouble_iff {p : Double} {y : ℚ} (hy : p.datum.value? = some y)
    (hv : F.Contains (towardZero y)) (q : Double) :
    q = (ofDouble p : Number F).toDouble ↔
      q.datum.value? = some (towardZero y : ℚ) ∧ (towardZero y = 0 → q = 0) := by
  have hval := (ofDouble p : Number F).value?_toDouble
  have hzero := (ofDouble p : Number F).value_eq_zero_iff_toDouble
  rw [value_ofDouble_of_contains hy hv] at hval hzero
  constructor
  · rintro rfl
    exact ⟨hval, hzero.1⟩
  · rintro ⟨hq, hq₀⟩
    by_cases h₀ : towardZero y = 0
    · rw [hq₀ h₀, hzero.1 h₀]
    · -- a number other than zero has one pattern only
      refine Format.eq_of_value?_eq (f := Format.double) ?_ hq hval
      exact_mod_cast h₀

/-- **Numbers through floats and back.** A number comes back from its float of 64 bits. From its
float of 32 bits it comes back exactly when its value has 24 significant bits at most, so that all
numbers of a family do up to a width of 24 bits, or 25 with a sign. A finite float with its integer
part in the domain becomes, by way of a number, the float of its integer part, and the zero without
any bits set if that is zero. -/
theorem float_round_trips (F : Family) :
    (∀ x : Number F, ofDouble x.toDouble = x) ∧
    (∀ x : Number F, ofSingle x.toSingle = x ↔
      ∃ (m : Int) (e : Nat), |m| ≤ 2 ^ 24 ∧ x.value = m * 2 ^ e) ∧
    ((∀ x : Number F, ofSingle x.toSingle = x) ↔ F.width.bits ≤ if F.signed then 25 else 24) ∧
    ∀ (p : Double) (y : ℚ), p.datum.value? = some y → F.Contains (towardZero y) →
      ∀ q : Double, q = (ofDouble p : Number F).toDouble ↔
        q.datum.value? = some (towardZero y : ℚ) ∧ (towardZero y = 0 → q = 0) := by
  refine ⟨ofDouble_toDouble, ofSingle_toSingle_iff, ?_, fun p y hy hv => toDouble_ofDouble_iff hy hv⟩
  rw [← F.magnitudeBits_le_iff 24, ← forall_hasSignificantBits_iff (by decide)]
  exact forall_congr' ofSingle_toSingle_iff

/-- The float `-0.5` becomes the zero without a sign. -/
theorem float_round_trips_half :
    let F : Family := ⟨{ bits := 8 }, true⟩
    let p : Double := 0xbfe0000000000000
    p.datum.value? = some (-1 / 2) ∧ F.Contains (towardZero (-1 / 2)) ∧
      (ofDouble p : Number F).toDouble = 0 := by
  intro F p
  have hd : p.datum = .finite true (2 ^ 52) (-53) := by decide
  have hy : p.datum.value? = some (-1 / 2) := by
    rw [hd]
    norm_num [Datum.value?]
  have hzero : towardZero (-1 / 2) = 0 := by
    norm_num [towardZero]
  have hv : F.Contains (towardZero (-1 / 2)) := by
    rw [hzero]
    exact F.contains_zero
  obtain ⟨-, -, -, hback⟩ := float_round_trips F
  exact ⟨hy, hv, ((hback p _ hy hv _).1 rfl).2 hzero⟩

/-- The greatest number of 25 bits without a sign is rounded up and comes back as zero. -/
example : (ofSingle (greatest : Number ⟨{ bits := 25 }, false⟩).toSingle) =
    (zero : Number ⟨{ bits := 25 }, false⟩) := by
  decide

end Number

end NarrowInt
