import Mathlib
import NarrowInt.Number.Machine
import NarrowInt.Proofs.Floating.Nearest
import NarrowInt.Proofs.Value

/-!
# Converting between floats and numbers

A float becomes the number congruent to its exact value without its fraction, at any magnitude; a
NaN and the infinities become zero. A pattern of 32 bits is widened first, which keeps its exact
value: the double format has more digits and a longer range, so that no number of the single format
is rounded, and the subnormal ones get a hidden bit. In the other direction the float of 64 bits is
exact, so the float of 32 bits is rounded once.

## Main definitions

* `Family.Wraps`: the carrier holds the exact value without its fraction, modulo `2 ^ w`

## Main results

* `Double.value?_ofDatum`, `Single.value?_ofDatum`: a datum of at most 53 or 24 digits within range
  is held exactly
* `Single.value?_toDouble`: widening keeps the exact value
* `Number.wraps_ofDouble_ofSingle`: the carriers that floats convert to
* `Number.value?_toDouble`, `Number.isNearest_toSingle`: the floats that numbers convert to
-/

namespace NarrowInt

namespace Format

/-- The sizes of the significand and of the exponent that a pattern can have. -/
theorem decode_finite {f : Format} {n : Nat} {s : Bool} {m : Nat} {e : Int}
    (h : f.decode n = .finite s m e) :
    m < 2 ^ (f.fractionBits + 1) ∧ f.minExponent ≤ e ∧ e + 1 ≤ f.minExponent + f.maxField := by
  have hf := f.fractionField_lt n
  have hE := f.exponentField_lt n
  have hmax : f.maxField = 2 ^ f.exponentBits - 1 := by rw [maxField, Nat.one_shiftLeft]
  rw [Nat.pow_succ']
  unfold decode at h
  split at h
  · split at h <;> cases h
  · next hfin =>
    -- a normal number has its leading bit besides the fraction
    split at h
    · next h₀ =>
      cases h
      omega
    · next h₀ =>
      cases h
      rw [Nat.one_shiftLeft]
      omega

theorem exponentField_ne_of_value? {f : Format} {n : Nat} {x : ℚ}
    (h : (f.decode n).value? = some x) : f.exponentField n ≠ f.maxField := by
  intro hE
  rw [decode, if_pos hE] at h
  split at h <;> cases h

/-- A pattern with an exact value denotes a finite number with its own sign bit. -/
theorem exists_decode_eq {f : Format} {n : Nat} {x : ℚ} (h : (f.decode n).value? = some x) :
    ∃ m e, f.decode n = .finite (f.negative n) m e := by
  rw [decode, if_neg (exponentField_ne_of_value? h)]
  split <;> exact ⟨_, _, rfl⟩

end Format

theorem Single.toNat_ofDatum (d : Datum) : (ofDatum d).toNat = Format.single.encode d := by
  have h := Format.encode_lt (f := Format.single) d
  exact Nat.mod_eq_of_lt h

/-! ## Data that the formats hold -/

namespace Double

theorem toNat_ofDatum (d : Datum) : (ofDatum d).toNat = Format.double.encode d := by
  have h := Format.encode_lt (f := Format.double) d
  exact Nat.mod_eq_of_lt h

/-- A datum with at most 53 digits, and with an exponent in reach of the format, is held exactly. -/
theorem value?_ofDatum {d : Datum}
    (h : ∀ s m e, d = .finite s m e → m < 2 ^ 53 ∧ -1074 ≤ e ∧ e ≤ 970) :
    (ofDatum d).datum.value? = d.value? := by
  rw [datum, toNat_ofDatum]
  refine Format.value?_decode_encode d ?_
  intro s m e hd
  obtain ⟨hm, hlo, hhi⟩ := h s m e hd
  rw [Format.minExponent_double, Format.maxField_double]
  exact ⟨hm, hlo, by omega⟩

end Double

/-- A datum with at most 24 digits, and with an exponent in reach of the format, is held exactly. -/
theorem Single.value?_ofDatum {d : Datum}
    (h : ∀ s m e, d = .finite s m e → m < 2 ^ 24 ∧ -149 ≤ e ∧ e ≤ 103) :
    (ofDatum d).datum.value? = d.value? := by
  rw [datum, toNat_ofDatum]
  refine Format.value?_decode_encode d ?_
  intro s m e hd
  obtain ⟨hm, hlo, hhi⟩ := h s m e hd
  rw [Format.minExponent_single, Format.maxField_single]
  exact ⟨hm, hlo, by omega⟩

namespace Single

variable (p : Single)

/-- A finite pattern of 32 bits has at most 24 digits, and an exponent of -149 to 105. -/
theorem datum_finite {s : Bool} {m : Nat} {e : Int} (h : p.datum = .finite s m e) :
    m < 2 ^ 24 ∧ -149 ≤ e ∧ e ≤ 105 := by
  obtain ⟨hm, hlo, hhi⟩ := Format.decode_finite h
  rw [Format.minExponent_single] at hlo hhi
  rw [Format.maxField_single] at hhi
  exact ⟨hm, hlo, by omega⟩

/-- Widening keeps the exact value. -/
theorem value?_toDouble : p.toDouble.datum.value? = p.datum.value? := by
  refine Double.value?_ofDatum ?_
  intro s m e h
  obtain ⟨hm, hlo, hhi⟩ := p.datum_finite h
  exact ⟨by omega, by omega, by omega⟩

end Single

namespace Double

variable (p : Double)

/-- A finite pattern without a hidden bit is less than `2 ^ -1022` in magnitude. -/
theorem abs_lt_of_exponentField_eq_zero {x : ℚ} (h : p.exponentField = 0)
    (hx : p.datum.value? = some x) : |x| < 2 ^ (-1022 : Int) := by
  rw [exponentField_eq] at h
  have hf : Format.double.fractionField p.toNat < 2 ^ 52 := Format.fractionField_lt _ _
  rw [datum, Format.decode, h, Format.maxField_double, if_neg (by omega), if_pos rfl,
    Format.minExponent_double] at hx
  have hpos : (0 : ℚ) < 2 ^ (-1074 : Int) := by positivity
  have hlt : (Format.double.fractionField p.toNat : ℚ) < 2 ^ 52 := by exact_mod_cast hf
  rw [Datum.abs_of_value? hx]
  calc (Format.double.fractionField p.toNat : ℚ) * 2 ^ (-1074 : Int)
      < 2 ^ 52 * 2 ^ (-1074 : Int) := mul_lt_mul_of_pos_right hlt hpos
    _ = 2 ^ (-1022 : Int) := by
      rw [← zpow_natCast, ← zpow_add₀ (by norm_num)]
      norm_num

theorem isFinite_of_value? {x : ℚ} (hx : p.datum.value? = some x) : p.isFinite :=
  p.isFinite_iff.2 (Format.exponentField_ne_of_value? hx)

end Double

/-- A number of the single format other than zero is widened to a pattern with a hidden bit, the
subnormal ones included. -/
theorem Single.isNormal_toDouble (p : Single) {x : ℚ} (hx : p.datum.value? = some x)
    (h₀ : x ≠ 0) : p.toDouble.isNormal := by
  have hd := p.value?_toDouble.trans hx
  rw [Double.isNormal, p.toDouble.isFinite_of_value? hd, Bool.true_and, bne_iff_ne]
  intro hE
  have hlt := p.toDouble.abs_lt_of_exponentField_eq_zero hE hd
  -- the least magnitude of the single format is far above the numbers without a hidden bit
  have hge : (2 : ℚ) ^ (-149 : Int) ≤ |x| := by
    cases hdat : p.datum with
    | nan => rw [hdat] at hx; cases hx
    | infinite s => rw [hdat] at hx; cases hx
    | finite s m e =>
      obtain ⟨-, hlo, -⟩ := p.datum_finite hdat
      rw [hdat] at hx
      have habs := Datum.abs_of_value? hx
      have hm : m ≠ 0 := by
        rintro rfl
        rw [Nat.cast_zero, zero_mul, abs_eq_zero] at habs
        exact h₀ habs
      have hm' : (1 : ℚ) ≤ m := by exact_mod_cast Nat.one_le_iff_ne_zero.2 hm
      have hle : (2 : ℚ) ^ (-149 : Int) ≤ 2 ^ e := zpow_le_zpow_right₀ (by norm_num) hlo
      rw [habs]
      exact hle.trans (le_mul_of_one_le_left (by positivity) hm')
  have hlt' : (2 : ℚ) ^ (-1022 : Int) < 2 ^ (-149 : Int) :=
    zpow_lt_zpow_right₀ (by norm_num) (by norm_num)
  linarith

/-- A datum far below the largest number of a format is rounded to the nearest pattern. -/
theorem Format.isNearest_encode_of_abs_le {f : Format} {w : Nat} [f.OfWidth w] {s : Bool} {m : Nat}
    {e : Int} {x : ℚ} (hx : (Datum.finite s m e).value? = some x) (hs : s = decide (x < 0)) {n : Int}
    (hle : |x| ≤ 2 ^ n) (hn : n + 3 ≤ f.minExponent + f.maxField + f.fractionBits) :
    f.IsNearest x (f.encode (.finite s m e)) := by
  refine isNearest_encode hx hs ?_
  rcases eq_or_ne m 0 with rfl | hm
  · rw [round_zero]
    exact infinity_pos
  · apply f.round_lt_infinity
    -- the leading digit stands at the place `n` at most
    have hlog : (2 : ℚ) ^ ((m.log2 : Int) + e) ≤ 2 ^ n := by
      rw [Datum.abs_of_value? hx] at hle
      refine le_trans ?_ hle
      rw [zpow_add₀ (by norm_num), zpow_natCast]
      refine mul_le_mul_of_nonneg_right ?_ (by positivity)
      exact_mod_cast Nat.log2_self_le hm
    have hplace := (zpow_le_zpow_iff_right₀ (by norm_num : (1 : ℚ) < 2)).1 hlog
    have hmax := three_le_maxField (f := f)
    rw [lastPlace]
    omega

/-- A datum of at most `2 ^ 32` in magnitude is far from overflowing the single format, so it is
rounded to the nearest pattern. -/
theorem Single.isNearest_ofDatum {s : Bool} {m : Nat} {e : Int} {x : ℚ}
    (hx : (Datum.finite s m e).value? = some x) (hs : s = decide (x < 0)) (hle : |x| ≤ 2 ^ 32) :
    Format.single.IsNearest x (ofDatum (.finite s m e)).toNat := by
  rw [toNat_ofDatum]
  have hle' : |x| ≤ 2 ^ (32 : Int) := hle.trans_eq (zpow_natCast 2 32).symm
  exact Format.isNearest_encode_of_abs_le hx hs hle' (by decide)

/-! ## The carriers of floats -/

/-- The carrier is the canonical one of the element of the domain that is congruent to the exact
value without its fraction, and the zero carrier when there is no exact value. -/
structure Family.Wraps (F : Family) (x : Option ℚ) (c : Carrier) : Prop where
  canonical : F.canonical c = c
  congruent : ∀ y, x = some y → F.decode c % F.modulus = towardZero y % F.modulus
  zero : x = none → c = 0

theorem Family.wraps_iff {F : Family} {x : Option ℚ} {c : Carrier} :
    F.Wraps x c ↔ F.Holds c (F.wrap ((x.map towardZero).getD 0)) := by
  have hw := F.wrap_of_contains F.contains_zero
  constructor
  · intro h
    refine ⟨h.canonical, ?_⟩
    cases hx : x with
    | none =>
      rw [h.zero hx, Option.map_none, Option.getD_none, F.decode_eq_wrap]
      rfl
    | some y => exact F.eq_wrap (F.contains_decode c) (h.congruent y hx)
  · intro h
    refine ⟨h.1, ?_, ?_⟩
    · rintro y rfl
      rw [h.2, F.wrap_emod]
      rfl
    · rintro rfl
      rw [h.eq_ofInt, Option.map_none, Option.getD_none, hw]
      rfl

namespace Number

variable {F : Family}

/-- The number of a float has the wrapped integer part as its value. -/
theorem value_ofDouble (p : Double) : (ofDouble p : Number F).value = F.wrap p.datum.truncate := by
  unfold ofDouble
  split
  · next h =>
    have hfin : p.isFinite := (Bool.and_eq_true _ _ ▸ h).1
    refine value_ofCarrier_eq ?_
    rw [p.integerPart_eq hfin]
    exact F.toNat_ofInt_emod _
  · next h =>
    -- zero and the subnormal numbers have no integer part, and NaN and the infinities no value
    have h₀ : p.datum.truncate = 0 := by
      by_cases hfin : p.isFinite
      · refine p.truncate_datum_of_lt ?_
        rw [Double.isNormal, hfin, Bool.true_and, bne_iff_ne, not_not] at h
        omega
      · rw [Double.isFinite_iff, not_not] at hfin
        rw [Double.datum, Format.decode, if_pos hfin]
        split <;> rfl
    rw [value_zero, h₀, F.wrap_of_contains F.contains_zero]

/-- An integer part in the domain is kept. -/
theorem value_ofDouble_of_contains {p : Double} {y : ℚ} (hy : p.datum.value? = some y)
    (hv : F.Contains (towardZero y)) : (ofDouble p : Number F).value = towardZero y := by
  rw [value_ofDouble, Datum.truncate_of_value? hy, F.wrap_of_contains hv]

/-- A float of 32 bits has the same integer part before and after it is widened. -/
theorem value_ofSingle (p : Single) : (ofSingle p : Number F).value = F.wrap p.datum.truncate := by
  rw [ofSingle, value_ofDouble, Datum.truncate_eq, Datum.truncate_eq, p.value?_toDouble]

theorem wraps_iff_of_value_eq {d : Datum} {x : Number F} (hx : x.value = F.wrap d.truncate)
    (c : Carrier) : F.Wraps d.value? c ↔ c = x.carrier := by
  rw [F.wraps_iff, ← Datum.truncate_eq]
  exact holds_value_iff hx c

/-- **The carriers that floats convert to.** A pattern of 64 or of 32 bits converts to the only
carrier that holds its exact value without the fraction, modulo `2 ^ w`; NaNs and infinities convert
to zero. Widening keeps the exact value of a pattern of 32 bits, and leaves no number other than
zero without a hidden bit. -/
theorem wraps_ofDouble_ofSingle (F : Family) :
    (∀ (p : Double) (c : Carrier),
      F.Wraps p.datum.value? c ↔ c = (ofDouble p : Number F).carrier) ∧
    (∀ (p : Single) (c : Carrier),
      F.Wraps p.datum.value? c ↔ c = (ofSingle p : Number F).carrier) ∧
    ∀ p : Single, p.toDouble.datum.value? = p.datum.value? ∧
      ∀ x, p.datum.value? = some x → x ≠ 0 → p.toDouble.isNormal := by
  refine ⟨fun p c => ?_, fun p c => ?_, fun p => ⟨p.value?_toDouble, fun x hx h₀ => ?_⟩⟩
  · exact wraps_iff_of_value_eq (value_ofDouble p) c
  · exact wraps_iff_of_value_eq (value_ofSingle p) c
  · exact p.isNormal_toDouble hx h₀

/-- The least number of the single format, a subnormal one. -/
theorem isNormal_toDouble_one :
    Single.datum 1 = .finite false 1 (-149) ∧ (2 : ℚ) ^ (-149 : Int) ≠ 0 ∧
      (Single.toDouble 1).isNormal := by
  have hd : Single.datum 1 = .finite false 1 (-149) := by decide
  have hx : (Single.datum 1).value? = some (2 ^ (-149 : Int)) := by
    rw [hd]
    simp [Datum.value?]
  have h₀ : (2 : ℚ) ^ (-149 : Int) ≠ 0 := by positivity
  obtain ⟨-, -, hwiden⟩ := wraps_ofDouble_ofSingle ⟨{ bits := 1 }, true⟩
  exact ⟨hd, h₀, (hwiden 1).2 _ hx h₀⟩

/-! ## The floats of numbers -/

theorem abs_value_le (x : Number F) : |(x.value : ℚ)| ≤ 2 ^ 32 := by
  have h : ((x.value.natAbs : Nat) : ℚ) ≤ ((2 ^ 32 : Nat) : ℚ) := Nat.cast_le.2 x.natAbs_value_le
  rw [Nat.cast_natAbs] at h
  exact_mod_cast h

/-- The sign and the magnitude of an integer make it up again, also when it is scaled. -/
theorem value?_finite_natAbs (v e : Int) :
    (Datum.finite (decide (v < 0)) v.natAbs e).value? = some ((v : ℚ) * 2 ^ e) := by
  simp only [Datum.value?, Option.some_inj, ← mul_assoc]
  congr 1
  rcases lt_or_ge v 0 with h | h
  · rw [decide_eq_true h, if_pos rfl, ← Int.cast_natCast, Int.natCast_natAbs, abs_of_neg h]
    push_cast
    ring
  · rw [decide_eq_false (not_lt.2 h), if_neg (by decide), ← Int.cast_natCast, Int.natCast_natAbs,
      abs_of_nonneg h, one_mul]

theorem value?_ofInt (v : Int) : (Datum.ofInt v).value? = some (v : ℚ) := by
  rw [Datum.ofInt, value?_finite_natAbs, zpow_zero, mul_one]

/-- The float of 64 bits has exactly the value of the number. -/
theorem value?_toDouble (x : Number F) : x.toDouble.datum.value? = some (x.value : ℚ) := by
  rw [← value?_ofInt]
  refine Double.value?_ofDatum ?_
  intro s m e h
  cases h
  have := x.natAbs_value_le
  omega

/-- The float of a number has the sign of its value; zero is positive. -/
theorem negative_toDouble (x : Number F) :
    Format.double.negative x.toDouble.toNat = decide ((x.value : ℚ) < 0) := by
  rw [toDouble, Double.toNat_ofDatum, Datum.ofInt, Format.negative_encode]
  simp

/-- The float of 32 bits is the one nearest to the value of the number: the float of 64 bits on the
way to it is exact, so there is one rounding only. -/
theorem isNearest_toSingle (x : Number F) :
    Format.single.IsNearest (x.value : ℚ) x.toSingle.toNat := by
  have hval := x.value?_toDouble
  obtain ⟨m, e, hd⟩ := Format.exists_decode_eq hval
  change x.toDouble.datum = _ at hd
  rw [toSingle, Double.toSingle, hd]
  rw [hd] at hval
  exact Single.isNearest_ofDatum hval x.negative_toDouble x.abs_value_le

theorem isNearest_iff (x : Number F) (p : Single) :
    Format.single.IsNearest (x.value : ℚ) p.toNat ↔ p = x.toSingle := by
  constructor
  · intro h
    exact h.unique x.isNearest_toSingle
  · rintro rfl
    exact x.isNearest_toSingle

end Number

end NarrowInt
