import Mathlib
import NarrowInt.Proofs.Value

/-!
# Carriers read in another family

A carrier that is canonical for one family can be read in any other. The reading is a cast of
values: a canonical carrier is the two's complement of the value it holds, and the other family
sees that value modulo its own number of bits, with the copies of a sign bit or the zeros above a
narrow value taken for significant bits. So a narrower family sees what it would have seen in the
first place, in however many steps the carrier gets there, and a wider one keeps every value that
it has; only a negative value read without a sign becomes another one.

## Main definitions

* `Family.canonicalThrough`: a carrier made canonical for one family after another

## Main results

* `Family.canonical_eq_ofInt`: a canonical carrier is the two's complement of its value
* `Family.decode_canonical_eq_wrap`: the value that another family reads
* `Family.decode_canonical_of_lt`: the value that a wider family reads
* `Family.reading_casts_value`: reading a carrier in another family casts its value
-/

namespace NarrowInt.Family

variable {F G : Family}

/-! ## The value that another family reads -/

/-- A canonical carrier is the two's complement of the value it holds. -/
theorem canonical_eq_ofInt (F : Family) (c : Carrier) :
    F.canonical c = BitVec.ofInt 32 (F.decode c) := by
  have h : F.Holds (F.canonical c) (F.decode c) := ⟨F.canonical_canonical c, F.decode_canonical c⟩
  exact h.eq_ofInt

/-- Read in another family, a canonical carrier is the one that the family gives the value. -/
theorem canonical_canonical_eq_encode (F G : Family) (c : Carrier) :
    G.canonical (F.canonical c) = G.encode (F.decode c) := by
  rw [F.canonical_eq_ofInt]
  rfl

/-- Another family reads the value of a canonical carrier modulo its own number of bits. -/
theorem decode_canonical_eq_wrap (F G : Family) (c : Carrier) :
    G.decode (F.canonical c) = G.wrap (F.decode c) := by
  rw [← G.decode_canonical, canonical_canonical_eq_encode, G.decode_encode]

/-! ## Wider families -/

theorem modulus_le_of_lt (hw : F.width.bits < G.width.bits) :
    F.modulus ≤ 2 ^ (G.width.bits - 1) :=
  pow_le_pow_right₀ (by norm_num) (by omega)

/-- A wider family has the values of a narrower one, the negative ones only with a sign. -/
theorem contains_of_lt (hw : F.width.bits < G.width.bits) {v : Int} (hv : F.Contains v)
    (hs : G.signed ∨ 0 ≤ v) : G.Contains v := by
  obtain ⟨hlo, hhi⟩ := hv.bounds
  have hle := modulus_le_of_lt hw
  have hF := F.modulus_eq_two_mul
  have hG := G.modulus_eq_two_mul
  unfold Contains greatest least
  rcases hs with hs | hs
  · rw [if_pos hs]
    omega
  · -- the lower end of the domain is zero or below
    split <;> omega

/-- A wider family without a sign has the value that a negative one wraps to. -/
theorem contains_add_modulus (hw : F.width.bits < G.width.bits) (hs : ¬ G.signed) {v : Int}
    (hv : F.Contains v) (hneg : v < 0) : G.Contains (v + G.modulus) := by
  obtain ⟨hlo, -⟩ := hv.bounds
  have hle := modulus_le_of_lt hw
  have hF := F.modulus_eq_two_mul
  have hG := G.modulus_eq_two_mul
  unfold Contains greatest least
  rw [if_neg hs]
  omega

/-- A wider family reads the same value, unless it is negative and the family has no sign. -/
theorem decode_canonical_of_lt (hw : F.width.bits < G.width.bits) (c : Carrier) :
    G.decode (F.canonical c) =
      if F.decode c < 0 ∧ ¬ G.signed then F.decode c + G.modulus else F.decode c := by
  have hv := F.contains_decode c
  rw [decode_canonical_eq_wrap]
  split
  · next h =>
    -- one modulus further up is the element of the domain
    have hmod : (F.decode c + G.modulus) % G.modulus = F.decode c % G.modulus :=
      Int.add_emod_right _ _
    exact (G.eq_wrap (contains_add_modulus hw h.2 hv h.1) hmod).symm
  · next h =>
    refine G.wrap_of_contains (contains_of_lt hw hv ?_)
    by_cases hs : G.signed
    · exact .inl hs
    · exact .inr (not_lt.1 fun hneg => h ⟨hneg, hs⟩)

/-! ## Several families in turn -/

/-- The carrier made canonical for one family after another. -/
def canonicalThrough (Fs : List Family) (c : Carrier) : Carrier :=
  Fs.foldl (fun c F => F.canonical c) c

/-- No step of the way matters to a family that is narrower than all of those on it. -/
theorem canonical_canonicalThrough {Fs : List Family}
    (h : ∀ F ∈ Fs, G.width.bits ≤ F.width.bits) (c : Carrier) :
    G.canonical (canonicalThrough Fs c) = G.canonical c := by
  -- the invariant: the carrier so far looks to `G` like the one it came from
  induction Fs generalizing c with
  | nil => rfl
  | cons F Fs ih =>
    have hF : G.width.bits ≤ F.width.bits := h F List.mem_cons_self
    have hFs : ∀ F' ∈ Fs, G.width.bits ≤ F'.width.bits := fun F' hF' =>
      h F' (List.mem_cons_of_mem F hF')
    exact (ih hFs (F.canonical c)).trans (canonical_canonical_of_le hF c)

/-- **Reading a carrier in another family casts its value.** Of the integers congruent to the value
of the carrier, the other family reads the only one in its domain, whatever the two widths and
signednesses, and makes the carrier canonical by encoding that value. So families on the way to a
narrower one make no difference to it, and a wider family reads the value itself, or the value plus
`2 ^ w` when it is negative and the family has no sign. -/
theorem reading_casts_value :
    (∀ (F G : Family) (c : Carrier) (v : Int),
      G.Contains v ∧ v ≡ F.decode c [ZMOD 2 ^ G.width.bits] ↔ v = G.decode (F.canonical c)) ∧
    (∀ (F G : Family) (c : Carrier), G.canonical (F.canonical c) = G.encode (F.decode c)) ∧
    (∀ (F G : Family) (c : Carrier), G.width.bits ≤ F.width.bits →
      G.canonical (F.canonical c) = G.canonical c) ∧
    (∀ (Fs : List Family) (G : Family) (c : Carrier), (∀ F ∈ Fs, G.width.bits ≤ F.width.bits) →
      G.canonical (canonicalThrough Fs c) = G.canonical c) ∧
    ∀ (F G : Family) (c : Carrier), F.width.bits < G.width.bits →
      G.decode (F.canonical c) =
        if F.decode c < 0 ∧ ¬ G.signed then F.decode c + 2 ^ G.width.bits else F.decode c := by
  refine ⟨fun F G c v => ?_, canonical_canonical_eq_encode, fun F G c h => ?_, fun Fs G c h => ?_,
    fun F G c h => decode_canonical_of_lt h c⟩
  · rw [decode_canonical_eq_wrap]
    constructor
    · rintro ⟨hv, hmod⟩
      exact G.eq_wrap hv hmod
    · rintro rfl
      exact ⟨G.contains_wrap _, G.wrap_emod _⟩
  · exact canonical_canonical_of_le h c
  · exact canonical_canonicalThrough h c

/-- The value `-3` of 4 bits under junk bits: read in 16 bits without a sign, and back from there by
way of 8 bits with a sign. -/
theorem reading_casts_value_negative :
    let F : Family := ⟨{ bits := 4 }, true⟩
    let G : Family := ⟨{ bits := 16 }, false⟩
    let H : Family := ⟨{ bits := 8 }, true⟩
    (F.width.bits < G.width.bits ∧ F.width.bits ≤ G.width.bits ∧
      ∀ E ∈ [G, H], F.width.bits ≤ E.width.bits) ∧
    F.decode 0x2d = -3 ∧ G.decode (F.canonical 0x2d) = 65533 ∧
    F.canonical (G.canonical 0x2d) = F.canonical 0x2d ∧
    F.canonical (canonicalThrough [G, H] 0x2d) = F.canonical 0x2d := by
  intro F G H
  have hlt : F.width.bits < G.width.bits := by decide
  have hle : F.width.bits ≤ G.width.bits := by decide
  have hall : ∀ E ∈ [G, H], F.width.bits ≤ E.width.bits := by decide
  have hv : F.decode 0x2d = -3 := by decide
  obtain ⟨-, -, hnarrow, hthrough, hwiden⟩ := reading_casts_value
  refine ⟨⟨hlt, hle, hall⟩, hv, ?_, hnarrow G F _ hle, hthrough [G, H] F _ hall⟩
  rw [hwiden F G _ hlt, hv]
  decide

end NarrowInt.Family
