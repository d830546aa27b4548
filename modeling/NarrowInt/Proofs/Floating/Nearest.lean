import Mathlib
import NarrowInt.Proofs.Floating.Rounding

/-!
# The nearest pattern of a format

A pattern is a sign bit above its body, so a datum is encoded by the nearest pattern when its
magnitude is rounded to the nearest body. At most one pattern is nearest, since a pattern between
two even ones is nearer than both.

## Main definitions

* `Format.OfWidth`: the format is one of patterns of a given width
* `Format.IsNearest`: the pattern is the one nearest to a number, the even one on a tie

## Main results

* `Format.value?_decode_encode`: a number with few enough digits is kept
* `Format.isNearest_of_value?`: a number that is held exactly has its nearest pattern
* `Format.isNearest_encode`: a datum that does not overflow is encoded by the nearest pattern
* `Format.IsNearest.unique`: only one pattern is nearest
* `Format.IsNearest.value_le`: rounding to nearest keeps the order
* `Format.eq_of_value?_eq`: only one pattern holds a number other than zero
* `Format.IsNearest.eq_zero_iff`: the pattern of zero
-/

namespace NarrowInt

namespace Format

variable {f : Format} {w : Nat}

/-! ## Formats of a width -/

/-- The patterns of the format have `w` bits: one for the sign, at least two for the exponent, and
at least one for the fraction, so that even and odd patterns take turns. -/
class OfWidth (f : Format) (w : outParam Nat) : Prop where
  fractionBits_pos : 0 < f.fractionBits
  two_le_exponentBits : 2 ≤ f.exponentBits
  width_eq : f.exponentBits + f.fractionBits + 1 = w

instance : single.OfWidth 32 := ⟨by decide, by decide, rfl⟩

instance : double.OfWidth 64 := ⟨by decide, by decide, rfl⟩

theorem two_pow_eq [hf : f.OfWidth w] : 2 ^ w = 2 * f.signWeight := by
  rw [← hf.width_eq, signWeight_eq, Nat.pow_succ']

theorem three_le_maxField [hf : f.OfWidth w] : 3 ≤ f.maxField := by
  have h : 2 ^ 2 ≤ 2 ^ f.exponentBits := Nat.pow_le_pow_right two_pos hf.two_le_exponentBits
  rw [maxField, Nat.one_shiftLeft]
  omega

theorem infinity_pos [f.OfWidth w] : 0 < f.infinity := by
  have h := three_le_maxField (f := f)
  rw [infinity, Nat.shiftLeft_eq]
  exact Nat.mul_pos (by omega) (Nat.two_pow_pos _)

/-! ## The encoded datum -/

theorem negative_add_body {s : Bool} {p : Nat} (hp : p < f.signWeight) :
    f.negative ((if s then f.signWeight else 0) + p) = s ∧
      f.body ((if s then f.signWeight else 0) + p) = p := by
  rw [signWeight_eq] at hp ⊢
  unfold negative body
  cases s with
  | false =>
    rw [if_neg Bool.false_ne_true, Nat.zero_add]
    exact ⟨Nat.testBit_lt_two_pow hp, Nat.mod_eq_of_lt hp⟩
  | true =>
    rw [if_pos rfl]
    refine ⟨?_, ?_⟩
    · rw [Nat.testBit_two_pow_add_eq, Nat.testBit_lt_two_pow hp]
      rfl
    · rw [Nat.add_mod_left, Nat.mod_eq_of_lt hp]

theorem negative_encode (s : Bool) (m : Nat) (e : Int) :
    f.negative (f.encode (.finite s m e)) = s :=
  (negative_add_body ((f.round_le_infinity m e).trans_lt f.infinity_lt)).1

/-- Every pattern is its sign bit above its body. -/
theorem eq_add_body {n : Nat} (hn : n < 2 * f.signWeight) :
    n = (if f.negative n then f.signWeight else 0) + f.body n := by
  rw [signWeight_eq] at hn ⊢
  unfold negative body
  have hpos := Nat.two_pow_pos (f.exponentBits + f.fractionBits)
  have h := Nat.div_add_mod n (2 ^ (f.exponentBits + f.fractionBits))
  have hlt : n / 2 ^ (f.exponentBits + f.fractionBits) < 2 :=
    Nat.div_lt_of_lt_mul (by rwa [Nat.mul_comm])
  rw [Nat.testBit_eq_decide_div_mod_eq]
  rcases Nat.lt_succ_iff_lt_or_eq.1 hlt with h' | h'
  · rw [Nat.lt_one_iff.1 h'] at h ⊢
    simpa using h.symm
  · rw [h'] at h ⊢
    simpa using h.symm

theorem value?_decode_add {s : Bool} {p : Nat} (hp : p < f.infinity) :
    (f.decode ((if s then f.signWeight else 0) + p)).value? =
      some ((if s then -1 else 1) * f.magnitude p) := by
  obtain ⟨hs, hb⟩ := negative_add_body (s := s) (hp.trans f.infinity_lt)
  rw [value?_decode, hs, hb, if_pos hp]

/-- Zero has a pattern of either sign. -/
theorem value?_decode_zero [f.OfWidth w] (s : Bool) :
    (f.decode (if s then f.signWeight else 0)).value? = some 0 := by
  have h := value?_decode_add (s := s) (infinity_pos (f := f))
  rwa [magnitude_zero, mul_zero, Nat.add_zero] at h

theorem infinity_add (f : Format) : f.infinity + 2 ^ f.fractionBits = f.signWeight := by
  have hpos := Nat.two_pow_pos f.exponentBits
  rw [infinity_eq, signWeight_eq, Nat.pow_add, ← Nat.succ_mul, Nat.succ_eq_add_one,
    Nat.sub_add_cancel hpos]

/-- The pattern of the NaN is no finite one. -/
theorem encode_nan_lt [hf : f.OfWidth w] :
    f.infinity ≤ f.encode .nan ∧ f.encode .nan < f.signWeight := by
  have hadd := infinity_add f
  have hfraction := hf.fractionBits_pos
  have hlt : 2 ^ (f.fractionBits - 1) < 2 ^ f.fractionBits :=
    Nat.pow_lt_pow_right one_lt_two (by omega)
  have hpos := Nat.two_pow_pos (f.fractionBits - 1)
  rw [encode, Nat.one_shiftLeft]
  omega

/-- A pattern has one bit more than the weight of its sign bit. -/
theorem encode_lt [f.OfWidth w] (d : Datum) : f.encode d < 2 * f.signWeight := by
  have hinf := f.infinity_lt
  cases d with
  | nan =>
    have := (encode_nan_lt (f := f)).2
    omega
  | infinite s =>
    rw [encode]
    split <;> omega
  | finite s m e =>
    have := f.round_le_infinity m e
    rw [encode]
    split <;> omega

/-- A datum with no more digits than the format has, and with an exponent in its reach, is encoded
exactly; a NaN and the infinities keep having no value. -/
theorem value?_decode_encode [f.OfWidth w] (d : Datum)
    (h : ∀ s m e, d = .finite s m e → m < 2 ^ (f.fractionBits + 1) ∧ f.minExponent ≤ e ∧
      e + 3 ≤ f.minExponent + f.maxField) :
    (f.decode (f.encode d)).value? = d.value? := by
  cases d with
  | nan =>
    obtain ⟨hle, hlt⟩ := encode_nan_lt (f := f)
    have hb := (negative_add_body (s := false) hlt).2
    rw [if_neg Bool.false_ne_true, Nat.zero_add] at hb
    rw [value?_decode, hb, if_neg (by omega)]
    rfl
  | infinite s =>
    obtain ⟨-, hb⟩ := negative_add_body (s := s) f.infinity_lt
    rw [value?_decode, encode, hb, if_neg (lt_irrefl _)]
    rfl
  | finite s m e =>
    obtain ⟨hm, hlo, hhi⟩ := h s m e rfl
    have hq := f.lastPlace_le hm hlo
    have hlt : f.round m e < f.infinity := f.round_lt_infinity (by omega)
    rw [encode, value?_decode_add hlt, f.magnitude_round_exact hlt hq]
    rfl

/-! ## The nearest pattern -/

/-- The pattern has the sign of `x` and a value; no pattern has a value nearer to `x`, and one of
another value is as near only if the pattern is even. -/
structure IsNearest (f : Format) (x : ℚ) (n : Nat) : Prop where
  sign : f.negative n = decide (x < 0)
  nearest : ∃ y, (f.decode n).value? = some y ∧ ∀ p z, (f.decode p).value? = some z →
    |y - x| ≤ |z - x| ∧ (|z - x| = |y - x| → z = y ∨ Even n)

/-- A pattern that holds a number exactly is the nearest one, if it has the sign of the number. -/
theorem isNearest_of_value? {x : ℚ} {n : Nat} (hs : f.negative n = decide (x < 0))
    (hx : (f.decode n).value? = some x) : f.IsNearest x n := by
  refine ⟨hs, x, hx, fun p z _ => ?_⟩
  rw [sub_self, abs_zero]
  exact ⟨abs_nonneg _, fun heq => .inl (sub_eq_zero.1 (abs_eq_zero.1 heq))⟩

theorem abs_signed_sub (s : Bool) (a b : ℚ) :
    |(if s then -1 else 1) * a - (if s then -1 else 1) * b| = |a - b| := by
  cases s
  · simp
  · rw [if_pos rfl, neg_one_mul, neg_one_mul, ← abs_neg (a - b)]
    congr 1
    ring

theorem abs_opposite_sub (s : Bool) {a b : ℚ} (ha : 0 ≤ a) (hb : 0 ≤ b) :
    |(if !s then -1 else 1) * a - (if s then -1 else 1) * b| = a + b := by
  cases s
  · simp only [Bool.not_false, if_true, Bool.false_eq_true, if_false]
    rw [abs_of_nonpos (by linarith)]
    ring
  · simp only [Bool.not_true, if_true, Bool.false_eq_true, if_false]
    rw [abs_of_nonneg (by linarith)]
    ring

theorem even_encode [hf : f.OfWidth w] (s : Bool) {m : Nat} {e : Int}
    (h : f.round m e < f.infinity) (hs : Even (significandAt m e (f.lastPlace m e))) :
    Even (f.encode (.finite s m e)) := by
  have hfraction := hf.fractionBits_pos
  have hw : Even f.signWeight := by
    rw [signWeight_eq]
    exact (Nat.even_pow' (by omega)).2 even_two
  have hr : Even (f.round m e) := by
    rcases eq_or_ne m 0 with rfl | hm
    · rw [round_zero]
      exact Even.zero
    · rw [f.round_eq hm h]
      exact (((Nat.even_pow' hfraction.ne').2 even_two).mul_left _).add hs
  rw [encode]
  split
  · exact hw.add hr
  · exact Even.zero.add hr

/-- **Rounding to nearest**: a finite datum that does not overflow is encoded by the nearest
pattern, the even one on a tie. -/
theorem isNearest_encode [f.OfWidth w] {s : Bool} {m : Nat} {e : Int} {x : ℚ}
    (hx : (Datum.finite s m e).value? = some x) (hs : s = decide (x < 0))
    (h : f.round m e < f.infinity) : f.IsNearest x (f.encode (.finite s m e)) := by
  cases hx
  refine ⟨?_, _, value?_decode_add h, ?_⟩
  · rw [← hs]
    exact negative_encode s m e
  intro p z hz
  rw [value?_decode] at hz
  split at hz
  · next hp =>
    cases hz
    have hpos : (0 : ℚ) ≤ m * 2 ^ e := by positivity
    have hb := f.magnitude_nonneg (f.body p)
    rcases Bool.eq_or_eq_not (f.negative p) s with hsign | hsign
    · -- on the same side of zero the magnitudes decide
      obtain ⟨hle, htie⟩ := f.magnitude_round_nearest h (f.body p)
      rw [hsign, abs_signed_sub, abs_signed_sub]
      refine ⟨hle, fun heq => (htie heq).imp ?_ ?_⟩
      · intro h'
        rw [h']
      · exact even_encode s h
    · -- on the other side zero is at least as near
      obtain ⟨hle, htie⟩ := f.magnitude_round_nearest h 0
      rw [magnitude_zero, zero_sub, abs_neg, abs_of_nonneg hpos] at hle htie
      rw [hsign, abs_signed_sub, abs_opposite_sub s hb hpos]
      refine ⟨by linarith, fun heq => ?_⟩
      have hb₀ : f.magnitude (f.body p) = 0 := by linarith
      rw [hb₀, zero_add] at heq
      refine (htie heq).imp ?_ ?_
      · intro h'
        rw [hb₀, ← h', mul_zero, mul_zero]
      · exact even_encode s h
  · cases hz

theorem even_body [hf : f.OfWidth w] {n : Nat} (h : Even n) : Even (f.body n) := by
  have hfraction := hf.fractionBits_pos
  rw [Nat.even_iff] at h ⊢
  rw [body, Nat.mod_mod_of_dvd n (dvd_pow_self 2 (by omega))]
  exact h

/-- A number in the middle between two even patterns is nearer to the pattern after the first. -/
theorem abs_magnitude_succ_sub_lt {x : ℚ} {a b : Nat} (hab : a < b) (ha : Even a) (hb : Even b)
    (h : |f.magnitude a - x| = |f.magnitude b - x|) :
    |f.magnitude (a + 1) - x| < |f.magnitude a - x| := by
  have hne : a + 1 ≠ b := by
    rintro rfl
    exact Nat.even_add_one.1 hb ha
  have h₁ := f.magnitude_strictMono (Nat.lt_add_one a)
  have h₂ := f.magnitude_strictMono (show a + 1 < b by omega)
  rcases abs_eq_abs.1 h with h | h
  · linarith
  · rw [abs_of_neg (a := f.magnitude a - x) (by linarith), abs_lt]
    exact ⟨by linarith, by linarith⟩

theorem IsNearest.body_le [f.OfWidth w] {x : ℚ} {n n' : Nat} (h : f.IsNearest x n)
    (h' : f.IsNearest x n') : f.body n' ≤ f.body n := by
  obtain ⟨hs, y, hy, H⟩ := h
  obtain ⟨hs', y', hy', H'⟩ := h'
  by_contra hlt
  rw [not_le] at hlt
  have heq : |y' - x| = |y - x| := le_antisymm (H' n y hy).1 (H n' y' hy').1
  have hor := (H n' y' hy').2 heq
  have hor' := (H' n y hy).2 heq.symm
  rw [value?_decode, hs] at hy
  rw [value?_decode, hs'] at hy'
  generalize hσ : decide (x < 0) = s at *
  split at hy
  · split at hy'
    · next hi hi' =>
      cases hy
      cases hy'
      -- the two values differ, so both patterns are even
      have hmag := f.magnitude_strictMono hlt
      have hy : ¬ (if s then -1 else 1) * f.magnitude (f.body n') =
          (if s then -1 else 1) * f.magnitude (f.body n) := by
        intro hmul
        have hσ₀ : (if s then -1 else 1 : ℚ) ≠ 0 := by
          cases s <;> simp
        exact hmag.ne (mul_left_cancel₀ hσ₀ hmul).symm
      have ha : Even (f.body n) := even_body (hor.resolve_left hy)
      have hb : Even (f.body n') := even_body (hor'.resolve_left fun h => hy h.symm)
      -- the pattern after the first is nearer, on the side of zero where `x` is
      have hx : x = (if s then -1 else 1) * ((if s then -1 else 1) * x) := by
        cases s <;> simp
      rw [hx, abs_signed_sub, abs_signed_sub] at heq
      have hlt' := abs_magnitude_succ_sub_lt hlt ha hb heq.symm
      have hle := (H _ _ (value?_decode_add (s := s) (show f.body n + 1 < f.infinity by omega))).1
      rw [hx, abs_signed_sub, abs_signed_sub] at hle
      exact absurd hle (not_le.2 hlt')
    · cases hy'
  · cases hy

/-- Only one pattern is nearest. -/
theorem IsNearest.unique [f.OfWidth w] {x : ℚ} {p q : BitVec w} (h : f.IsNearest x p.toNat)
    (h' : f.IsNearest x q.toNat) : p = q := by
  have hp : p.toNat < 2 * f.signWeight := two_pow_eq (f := f) ▸ p.isLt
  have hq : q.toNat < 2 * f.signWeight := two_pow_eq (f := f) ▸ q.isLt
  refine BitVec.eq_of_toNat_eq ?_
  rw [eq_add_body hp, eq_add_body hq, h.sign, h'.sign,
    Nat.le_antisymm (h'.body_le h) (h.body_le h')]

/-- A pattern of a number other than zero has the sign of the number. -/
theorem negative_of_value? {x : ℚ} {n : Nat} (h₀ : x ≠ 0) (hx : (f.decode n).value? = some x) :
    f.negative n = decide (x < 0) := by
  rw [value?_decode] at hx
  split at hx
  · have hpos := f.magnitude_nonneg (f.body n)
    have hx' := Option.some.inj hx
    cases hs : f.negative n with
    | false =>
      rw [hs, if_neg Bool.false_ne_true, one_mul] at hx'
      exact (decide_eq_false (by linarith)).symm
    | true =>
      rw [hs, if_pos rfl, neg_one_mul] at hx'
      have hneg : x < 0 := lt_of_le_of_ne (by linarith) h₀
      exact (decide_eq_true hneg).symm
  · cases hx

/-- Only one pattern holds a number other than zero. -/
theorem eq_of_value?_eq [f.OfWidth w] {x : ℚ} {p q : BitVec w} (h₀ : x ≠ 0)
    (hp : (f.decode p.toNat).value? = some x) (hq : (f.decode q.toNat).value? = some x) : p = q :=
  (isNearest_of_value? (negative_of_value? h₀ hp) hp).unique
    (isNearest_of_value? (negative_of_value? h₀ hq) hq)

/-! ## The order of nearest patterns -/

theorem mul_nonpos_of_abs_sub_le {a b x : ℚ} (h : |a - x| ≤ |b - x|) :
    (a - b) * (a + b - 2 * x) ≤ 0 := by
  have hsq := sq_le_sq.2 h
  calc (a - b) * (a + b - 2 * x) = (a - x) ^ 2 - (b - x) ^ 2 := by ring
    _ ≤ 0 := by linarith

/-- The nearest patterns of two numbers hold values in the order of the numbers. -/
theorem IsNearest.value_le {x x' : ℚ} {n n' : Nat} (h : f.IsNearest x n) (h' : f.IsNearest x' n')
    (hlt : x < x') {y y' : ℚ} (hy : (f.decode n).value? = some y)
    (hy' : (f.decode n').value? = some y') : y ≤ y' := by
  obtain ⟨-, z, hz, hnear⟩ := h
  obtain ⟨-, z', hz', hnear'⟩ := h'
  obtain rfl : y = z := Option.some.inj (hy.symm.trans hz)
  obtain rfl : y' = z' := Option.some.inj (hy'.symm.trans hz')
  by_contra hgt
  rw [not_le] at hgt
  -- `x` would lie on the side of `y` from the middle of the two values, and `x'` on the other one
  have hx := mul_nonpos_of_abs_sub_le (hnear n' y' hy').1
  have hx' := mul_nonpos_of_abs_sub_le (hnear' n y hy).1
  have hpos : 0 < (y - y') * (x' - x) := mul_pos (sub_pos.2 hgt) (sub_pos.2 hlt)
  linarith

/-! ## The pattern of zero -/

/-- Where zero alone is rounded to zero, its nearest pattern is the one without any bits set. -/
theorem IsNearest.eq_zero_iff [f.OfWidth w] {x : ℚ} {p : BitVec w} (h : f.IsNearest x p.toNat)
    (hzero : (f.decode p.toNat).value? = some 0 → x = 0) : x = 0 ↔ p = 0 := by
  have hval : (f.decode (0 : BitVec w).toNat).value? = some 0 := value?_decode_zero false
  constructor
  · rintro rfl
    have hsign : f.negative (0 : BitVec w).toNat = decide ((0 : ℚ) < 0) := by
      simp [negative]
    exact h.unique (isNearest_of_value? hsign hval)
  · rintro rfl
    exact hzero hval

/-- Where zero alone is rounded to zero, the negative pattern of zero is nearest to no number. -/
theorem IsNearest.ne_signWeight [f.OfWidth w] {x : ℚ} {n : Nat} (h : f.IsNearest x n)
    (hzero : (f.decode n).value? = some 0 → x = 0) : n ≠ f.signWeight := by
  rintro rfl
  -- the sign bit would be that of a number below zero
  have hx : x = 0 := hzero (value?_decode_zero true)
  have hsign := h.sign
  have hneg := (negative_add_body (f := f) (s := true) (infinity_pos.trans f.infinity_lt)).1
  rw [if_pos rfl, Nat.add_zero] at hneg
  rw [hneg, hx] at hsign
  simp at hsign

end Format

end NarrowInt
