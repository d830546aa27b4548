import NarrowInt.Family

/-!
# Carriers

Every value travels in a carrier, a word of 32 bits, whatever its family. Bits are numbered from 0,
the least significant. In a value of `w` bits the bits from `w` on are *junk*: ignored on input, and
on output copies of bit `w - 1` in a signed family and zero in an unsigned one. A carrier of that
form is canonical.

## Main definitions

* `Carrier`: a word of 32 bits
* `Width.lowBits`: clear the junk bits
* `Family.canonical`: the canonical carrier with the same significant bits
* `Family.encode`, `Family.decode`: from a logical value to its carrier and back
* `Family.leastCarrier`, `Family.greatestCarrier`: the carriers of the ends of the domain
* `Family.fits`: whether a logical value survives encoding

## Main results

* `Width.getLsbD_lowBits`, `Family.getLsbD_canonical`: the bits of the results
* `Family.canonical_canonical_of_le`: a canonical carrier keeps the significant bits of narrower
  families
* `Family.canonical_eq_canonical_iff`: the canonical carrier depends on the significant bits
  only
-/

namespace NarrowInt

/-- The cell that carries a value of any family. -/
abbrev Carrier := BitVec 32

namespace Width

variable (w : Width)

/-- The number of junk bits in a carrier of `w` significant bits. -/
def junk : Nat := 32 - w.bits

/-- Clear the junk bits: push them out at the top, then pull in zeros. -/
def lowBits (c : Carrier) : Carrier := (c <<< w.junk) >>> w.junk

theorem getLsbD_lowBits (c : Carrier) (i : Nat) :
    (w.lowBits c).getLsbD i = (decide (i < w.bits) && c.getLsbD i) := by
  have h₁ := w.one_le
  have h₂ := w.le_carrier
  rw [lowBits, BitVec.getLsbD_ushiftRight, BitVec.getLsbD_shiftLeft]
  unfold junk
  by_cases h : i < w.bits
  · have e : 32 - w.bits + i - (32 - w.bits) = i := by omega
    have e₁ : 32 - w.bits + i < 32 := by omega
    simp [e, e₁, h]
  · have e₁ : ¬ 32 - w.bits + i < 32 := by omega
    simp [e₁, h]

end Width

namespace Family

variable (F : Family)

/-- The canonical carrier with the significant bits of `c`: the junk bits are pushed out at the top,
then copies of the topmost significant bit are pulled in, or zeros in an unsigned family. -/
def canonical (c : Carrier) : Carrier :=
  if F.signed then (c <<< F.width.junk).sshiftRight F.width.junk else F.width.lowBits c

theorem getLsbD_canonical (c : Carrier) (i : Nat) :
    (F.canonical c).getLsbD i =
      if i < F.width.bits then c.getLsbD i
      else decide (i < 32) && F.signed && c.getLsbD (F.width.bits - 1) := by
  have h₁ := F.width.one_le
  have h₂ := F.width.le_carrier
  cases hs : F.signed
  · by_cases h : i < F.width.bits <;> simp [canonical, hs, Width.getLsbD_lowBits, h]
  · simp only [canonical, hs, if_true, BitVec.getLsbD_sshiftRight, BitVec.getLsbD_shiftLeft,
      BitVec.msb_eq_getLsbD_last, Width.junk]
    -- the shifts move a significant bit up and back down, and above them repeat the topmost one
    by_cases h : i < F.width.bits
    · have e : 32 - F.width.bits + i - (32 - F.width.bits) = i := by omega
      have e₁ : 32 - F.width.bits + i < 32 := by omega
      have e₂ : ¬ 32 ≤ i := by omega
      simp [e, e₁, e₂, h]
    · have e : 32 - 1 - (32 - F.width.bits) = F.width.bits - 1 := by omega
      have e₁ : ¬ 32 - F.width.bits + i < 32 := by omega
      have e₂ : ¬ 31 < 32 - F.width.bits := by omega
      simp only [e₁, if_false, h, e, e₂]
      by_cases h₃ : 32 ≤ i
      · have : ¬ i < 32 := by omega
        simp [h₃, this]
      · have : i < 32 := by omega
        simp [h₃, this]

/-- The canonical carrier depends on the significant bits only. -/
theorem canonical_eq_canonical_iff {c d : Carrier} :
    F.canonical c = F.canonical d ↔ ∀ i < F.width.bits, c.getLsbD i = d.getLsbD i := by
  constructor
  · intro h i hi
    have := congrArg (·.getLsbD i) h
    simpa [getLsbD_canonical, hi] using this
  · intro h
    refine BitVec.eq_of_getLsbD_eq fun i hi => ?_
    have h₁ := F.width.one_le
    rw [getLsbD_canonical, getLsbD_canonical, h (F.width.bits - 1) (by omega)]
    by_cases hw : i < F.width.bits
    · simp [hw, h i hw]
    · simp [hw]

/-- A carrier that is canonical for a family keeps the significant bits of narrower families. -/
theorem canonical_canonical_of_le {F G : Family} (h : F.width.bits ≤ G.width.bits) (c : Carrier) :
    F.canonical (G.canonical c) = F.canonical c := by
  refine F.canonical_eq_canonical_iff.2 fun i hi => ?_
  rw [G.getLsbD_canonical, if_pos (Nat.lt_of_lt_of_le hi h)]

@[simp] theorem canonical_canonical (c : Carrier) :
    F.canonical (F.canonical c) = F.canonical c :=
  canonical_canonical_of_le (Nat.le_refl _) c

/-- The canonical carrier of a logical value; a value outside the domain wraps modulo `2 ^ w`. -/
def encode (v : Int) : Carrier := F.canonical (BitVec.ofInt 32 v)

/-- The logical value in a carrier, whatever its junk bits. -/
def decode (c : Carrier) : Int :=
  if F.signed then (F.canonical c).toInt else (F.canonical c).toNat

/-- The carrier of the smallest logical value. -/
def leastCarrier : Carrier :=
  if F.signed then BitVec.allOnes 32 <<< (F.width.bits - 1) else 0

/-- The carrier of the largest logical value. -/
def greatestCarrier : Carrier :=
  if F.signed then ~~~F.leastCarrier else F.width.lowBits (BitVec.allOnes 32)

/-- Whether a logical value survives encoding and decoding. -/
def fits (v : Int) : Bool := F.decode (F.encode v) == v

@[simp] theorem decode_canonical (c : Carrier) : F.decode (F.canonical c) = F.decode c := by
  simp [decode]

@[simp] theorem canonical_encode (v : Int) : F.canonical (F.encode v) = F.encode v :=
  F.canonical_canonical _

@[simp] theorem canonical_zero : F.canonical 0 = 0 := by
  refine BitVec.eq_of_getLsbD_eq fun i _ => ?_
  simp [getLsbD_canonical]

@[simp] theorem canonical_leastCarrier : F.canonical F.leastCarrier = F.leastCarrier := by
  have h₁ := F.width.one_le
  have h₂ := F.width.le_carrier
  cases hs : F.signed
  · simpa [leastCarrier, hs] using F.canonical_zero
  · refine BitVec.eq_of_getLsbD_eq fun i hi => ?_
    rw [getLsbD_canonical]
    by_cases h : i < F.width.bits
    · simp [h]
    · have e : F.width.bits - 1 ≤ i := by omega
      have e₁ : F.width.bits - 1 < 32 := by omega
      simp [leastCarrier, hs, h, hi, Nat.not_lt.2 e, e₁, -BitVec.reduceAllOnes]

@[simp] theorem canonical_greatestCarrier : F.canonical F.greatestCarrier = F.greatestCarrier := by
  have h₁ := F.width.one_le
  have h₂ := F.width.le_carrier
  refine BitVec.eq_of_getLsbD_eq fun i hi => ?_
  rw [getLsbD_canonical]
  cases hs : F.signed
  · by_cases h : i < F.width.bits <;> simp [greatestCarrier, hs, Width.getLsbD_lowBits, h]
  · by_cases h : i < F.width.bits
    · simp [h]
    · have e : F.width.bits - 1 ≤ i := by omega
      have e₁ : F.width.bits - 1 < 32 := by omega
      simp [greatestCarrier, leastCarrier, hs, h, hi, Nat.not_lt.2 e, e₁, -BitVec.reduceAllOnes]

end Family

end NarrowInt
