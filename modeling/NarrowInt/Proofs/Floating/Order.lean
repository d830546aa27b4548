import Mathlib
import NarrowInt.Proofs.Floating.Integer

/-!
# The order of numbers and of their floats

Rounding to nearest keeps the order of the numbers that are rounded: of two numbers whose nearest
floats stood in the other order, the smaller one would lie above the middle of the two floats and
the greater one below it. So the order of numbers, which is that of their values with or without a
sign, is kept by their floats of 32 bits, although several numbers may share one. The greater and
the lesser of two numbers therefore have the greater and the lesser float, down to the pattern:
patterns of the same value that come from numbers are the same, zero included.

In the other direction, dropping the fraction keeps the order of floats, and so does the conversion
as long as the integer parts are values of the family and are not wrapped.

## Main definitions

* `Datum.AtMost`: both data have exact values, and the first is at most the second
* `Single.IsExtreme`: one of two floats that stands in a relation to both

## Main results

* `Number.toSingle_eq_of_value?_eq`: floats of numbers with the same value are the same
* `Number.toSingle_atMost`: the floats of numbers in their order
* `Number.isExtreme_toSingle_iff`: the extreme one of the floats of two numbers
* `Number.float_conversions_keep_order`: the conversions in both directions keep the order
-/

namespace NarrowInt

/-- Both data have exact values, and the first is at most the second. -/
def Datum.AtMost (d d' : Datum) : Prop :=
  ∃ y z : ℚ, d.value? = some y ∧ d'.value? = some z ∧ y ≤ z

theorem Datum.AtMost.value?_eq {d d' : Datum} (h : d.AtMost d') (h' : d'.AtMost d) :
    d.value? = d'.value? := by
  obtain ⟨y, z, hy, hz, hle⟩ := h
  obtain ⟨z', y', hz', hy', hle'⟩ := h'
  obtain rfl : y = y' := Option.some.inj (hy.symm.trans hy')
  obtain rfl : z = z' := Option.some.inj (hz.symm.trans hz')
  rw [hy, hz, le_antisymm hle hle']

/-- The float `m` is one of `p` and `q`, and both of them stand in the relation `r` to it. -/
structure Single.IsExtreme (r : Datum → Datum → Prop) (p q m : Single) : Prop where
  mem : m = p ∨ m = q
  left : r p.datum m.datum
  right : r q.datum m.datum

namespace Number

variable {F : Family}

/-! ## The order of floats of 32 bits -/

/-- Numbers with floats of the same value have the same float. -/
theorem toSingle_eq_of_value?_eq {a b : Number F}
    (h : a.toSingle.datum.value? = b.toSingle.datum.value?) : a.toSingle = b.toSingle := by
  obtain ⟨-, y, hy, -⟩ := a.isNearest_toSingle
  have hy' : b.toSingle.datum.value? = some y := h ▸ hy
  rcases eq_or_ne y 0 with rfl | h₀
  · -- only zero itself is rounded to zero, so the numbers are both zero
    have ha := a.value_eq_zero_of_value?_toSingle hy
    have hb := b.value_eq_zero_of_value?_toSingle hy'
    have hab : a = b := value_injective (by exact_mod_cast ha.trans hb.symm)
    rw [hab]
  · exact Format.eq_of_value?_eq (f := Format.single) h₀ hy hy'

/-- The floats of numbers stand in the order of the numbers. -/
theorem toSingle_atMost {a b : Number F} (h : a ≤ b) :
    a.toSingle.datum.AtMost b.toSingle.datum := by
  obtain ⟨-, y, hy, -⟩ := a.isNearest_toSingle
  obtain ⟨-, z, hz, -⟩ := b.isNearest_toSingle
  refine ⟨y, z, hy, hz, ?_⟩
  rcases (le_def.1 h).lt_or_eq with hlt | heq
  · exact a.isNearest_toSingle.value_le b.isNearest_toSingle (by exact_mod_cast hlt) hy hz
  · obtain rfl := value_injective heq
    exact (Option.some.inj (hy.symm.trans hz)).le

/-! ## The greater and the lesser float -/

/-- Where one of two numbers has a float to which both of their floats stand in a relation, no other
pattern is the extreme one. -/
theorem isExtreme_toSingle_iff {r : Datum → Datum → Prop}
    (hr : ∀ {d d' : Datum}, r d d' → r d' d → d.value? = d'.value?) {a b c : Number F}
    (hc : c = a ∨ c = b) (ha : r a.toSingle.datum c.toSingle.datum)
    (hb : r b.toSingle.datum c.toSingle.datum) (m : Single) :
    Single.IsExtreme r a.toSingle b.toSingle m ↔ m = c.toSingle := by
  constructor
  · rintro ⟨hm, hma, hmb⟩
    rcases hm with rfl | rfl
    · -- the float of `a` stands in the relation to that of `c`, and the other way round
      apply toSingle_eq_of_value?_eq
      rcases hc with rfl | rfl
      · rfl
      · exact hr ha hmb
    · apply toSingle_eq_of_value?_eq
      rcases hc with rfl | rfl
      · exact hr hb hma
      · rfl
  · rintro rfl
    refine ⟨?_, ha, hb⟩
    rcases hc with rfl | rfl
    · exact .inl rfl
    · exact .inr rfl

theorem max_cases (a b : Number F) :
    (a.max b = a ∨ a.max b = b) ∧ a ≤ a.max b ∧ b ≤ a.max b := by
  simp only [le_def, value_max]
  refine ⟨?_, le_max_left _ _, le_max_right _ _⟩
  unfold max
  split
  · exact .inr rfl
  · exact .inl rfl

theorem min_cases (a b : Number F) :
    (a.min b = a ∨ a.min b = b) ∧ a.min b ≤ a ∧ a.min b ≤ b := by
  simp only [le_def, value_min]
  refine ⟨?_, min_le_left _ _, min_le_right _ _⟩
  unfold min
  split
  · exact .inr rfl
  · exact .inl rfl

/-! ## The order of numbers from floats -/

/-- Floats with their integer parts in the domain become numbers in their order. -/
theorem ofDouble_le {p q : Double} {y z : ℚ} (hp : p.datum.value? = some y)
    (hq : q.datum.value? = some z) (hle : y ≤ z) (hy : F.Contains (towardZero y))
    (hz : F.Contains (towardZero z)) : (ofDouble p : Number F) ≤ ofDouble q := by
  rw [le_def, value_ofDouble_of_contains hp hy, value_ofDouble_of_contains hq hz]
  exact towardZero_mono hle

/-- **The conversions between numbers and floats keep the order.** The floats of 32 bits of numbers
stand in the order of the numbers. So the greater of two numbers has the greater one of their
floats, which is one pattern only, and the lesser number has the lesser float. Finite floats of 64
bits that have their integer parts in the domain become numbers in the order of the floats. -/
theorem float_conversions_keep_order (F : Family) :
    (∀ a b : Number F, a ≤ b → a.toSingle.datum.AtMost b.toSingle.datum) ∧
    (∀ (a b : Number F) (m : Single),
      Single.IsExtreme Datum.AtMost a.toSingle b.toSingle m ↔ m = (a.max b).toSingle) ∧
    (∀ (a b : Number F) (m : Single),
      Single.IsExtreme (flip Datum.AtMost) a.toSingle b.toSingle m ↔ m = (a.min b).toSingle) ∧
    ∀ (p q : Double) (y z : ℚ), p.datum.value? = some y → q.datum.value? = some z → y ≤ z →
      F.Contains (towardZero y) → F.Contains (towardZero z) →
      (ofDouble p : Number F) ≤ ofDouble q := by
  refine ⟨fun a b h => toSingle_atMost h, fun a b m => ?_, fun a b m => ?_,
    fun p q y z hp hq hle hy hz => ofDouble_le hp hq hle hy hz⟩
  · obtain ⟨hc, ha, hb⟩ := max_cases a b
    exact isExtreme_toSingle_iff Datum.AtMost.value?_eq hc (toSingle_atMost ha)
      (toSingle_atMost hb) m
  · obtain ⟨hc, ha, hb⟩ := min_cases a b
    have hr : ∀ {d d' : Datum}, flip Datum.AtMost d d' → flip Datum.AtMost d' d →
        d.value? = d'.value? := fun h h' => Datum.AtMost.value?_eq h' h
    exact isExtreme_toSingle_iff hr hc (toSingle_atMost ha) (toSingle_atMost hb) m

/-- The values `-2 ^ 24 - 1` and `-2 ^ 24` share a float, and the floats `-1.5` and `-0.5` become
the numbers `-1` and zero. -/
theorem float_conversions_keep_order_negative :
    let F : Family := ⟨{ bits := 26 }, true⟩
    let a : Number F := ofInt (-16777217)
    let b : Number F := ofInt (-16777216)
    let p : Double := 0xbff8000000000000
    let q : Double := 0xbfe0000000000000
    (a ≤ b ∧ a.toSingle = b.toSingle ∧ a.toSingle.datum.AtMost b.toSingle.datum) ∧
    p.datum.value? = some (-3 / 2) ∧ q.datum.value? = some (-1 / 2) ∧
    F.Contains (towardZero (-3 / 2)) ∧ F.Contains (towardZero (-1 / 2)) ∧
    (ofDouble p : Number F) ≤ ofDouble q := by
  intro F a b p q
  have hab : a ≤ b := by decide
  have hshared : a.toSingle = b.toSingle := by decide
  have hp : p.datum.value? = some (-3 / 2) := by
    have hd : p.datum = .finite true (3 * 2 ^ 51) (-52) := by decide
    rw [hd]
    norm_num [Datum.value?]
  have hq : q.datum.value? = some (-1 / 2) := by
    have hd : q.datum = .finite true (2 ^ 52) (-53) := by decide
    rw [hd]
    norm_num [Datum.value?]
  have hy : F.Contains (towardZero (-3 / 2)) := by
    have h : towardZero (-3 / 2) = -1 := by
      norm_num [towardZero]
    rw [h]
    decide
  have hz : F.Contains (towardZero (-1 / 2)) := by
    have h : towardZero (-1 / 2) = 0 := by
      norm_num [towardZero]
    rw [h]
    exact F.contains_zero
  obtain ⟨htoSingle, -, -, hofDouble⟩ := float_conversions_keep_order F
  exact ⟨⟨hab, hshared, htoSingle a b hab⟩, hp, hq, hy, hz,
    hofDouble p q _ _ hp hq (by norm_num) hy hz⟩

end Number

end NarrowInt
