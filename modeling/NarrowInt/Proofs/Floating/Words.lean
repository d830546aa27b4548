import Mathlib
import NarrowInt.Proofs.Floating.Conversion

/-!
# Integer parts on machine words

The low bits of an integer part are read off a pattern of 64 bits by arithmetic on machine words.
The exponent is a word of 32 bits with a sign; the bias and the number of fraction bits are
subtracted from it, and the difference, negated if it is negative, is the number of places by which
the significand is shifted. Each of these steps can leave its range: a difference or a negation may
be no integer of 32 bits, and a shift may be asked for by more places than the word has. Checked
arithmetic stops there with a fault, and wrapping arithmetic goes on with the low bits.

Neither happens with a finite pattern. The exponents that are looked at are those from the bias up
to the last one of the finite numbers, so the difference is not less than `-52`, and from 32 on
there is no shift at all. Both kinds of arithmetic therefore find the same bits, those of the exact
value without its fraction. This includes zero and the subnormal numbers: a conversion may set them
apart in advance, together with the patterns that have no value, or leave them to the general way.

## Main definitions

* `WordArithmetic`: checked or wrapping arithmetic of machine words
* `WordProgram`: a computation that may fault, with a record of its shifts
* `WordArithmetic.integerPart`: the low 32 bits of an integer part, on machine words
* `WordArithmetic.ofDouble`: the conversion to a number, with some classes of floats set apart

## Main results

* `WordArithmetic.run_integerPart`: a finite pattern causes no fault
* `Double.toNat_integerPart`: the bits found are those of the exact value
* `Double.inRange_of_mem_shifts`: how far its significand is shifted
* `WordArithmetic.run'_ofDouble`: the classes of floats that may be set apart
* `Double.integer_parts_exact_without_faults`: the integer parts of the finite patterns
-/

namespace NarrowInt

/-! ## WordArithmetic of machine words -/

/-- Why a computation on machine words stops. -/
inductive WordFault
  | notFinite
  | overflow
  | shiftAmount
deriving DecidableEq

/-- The directions of shifts. -/
inductive Direction
  | right
  | left
deriving DecidableEq

namespace Direction

/-- Move the bits of a word by a number of places; zeros come in. -/
def move (d : Direction) (word : BitVec 64) (places : Nat) : BitVec 64 :=
  match d with
  | right => word >>> places
  | left => word <<< places

/-- The greatest number of places by which a significand is moved. -/
def limit : Direction → Nat
  | right => 52
  | left => 31

end Direction

/-- A shift of a word of 64 bits, by the number of places that is asked for. -/
structure WordShift where
  direction : Direction
  places : Int
deriving DecidableEq

/-- At most 52 places to the right, or at most 31 places to the left. -/
def WordShift.InRange (s : WordShift) : Prop := 0 ≤ s.places ∧ s.places ≤ s.direction.limit

/-- A computation on machine words, which may fault; the shifts that it takes are recorded. -/
abbrev WordProgram := StateT (List WordShift) (Except WordFault)

/-- What becomes of a step out of its range: checked arithmetic stops, and wrapping arithmetic goes
on with the low bits. -/
inductive WordArithmetic
  | checked
  | wrapping
deriving DecidableEq

namespace WordArithmetic

variable (a : WordArithmetic)

/-- Stop with a fault unless the condition holds; wrapping arithmetic does not look at it. -/
def require (condition : Prop) [Decidable condition] (fault : WordFault) : WordProgram Unit :=
  match a with
  | checked => if condition then pure () else throw fault
  | wrapping => pure ()

/-- The difference of two integers of 32 bits. -/
def sub (x y : BitVec 32) : WordProgram (BitVec 32) := do
  a.require (¬ x.ssubOverflow y) .overflow
  return x - y

/-- The negation of an integer of 32 bits. -/
def neg (x : BitVec 32) : WordProgram (BitVec 32) := do
  a.require (¬ x.negOverflow) .overflow
  return -x

/-- A shift by an integer of 32 bits, of which six bits count as the number of places. -/
def shift (d : Direction) (word : BitVec 64) (n : BitVec 32) : WordProgram (BitVec 64) := do
  -- the shift is recorded as it is asked for, also where it is out of range
  modify (· ++ [⟨d, n.toInt⟩])
  a.require (0 ≤ n.toInt ∧ n.toInt < 64) .shiftAmount
  return d.move word (n.toNat % 64)

/-- The low 32 bits of a significand with units of `2 ^ n`. -/
def align (significand : BitVec 64) (n : BitVec 32) : WordProgram Carrier :=
  if n.toInt < 0 then do
    let word ← a.shift .right significand (← a.neg n)
    return word.setWidth 32
  else if n.toInt < 32 then do
    let word ← a.shift .left significand n
    return word.setWidth 32
  else
    return 0

end WordArithmetic

/-! ## Integer parts -/

namespace Double

variable (p : Double)

/-- The weight of the hidden bit. -/
def hiddenBit : BitVec 64 := 1 <<< 52

/-- The exponent field as an integer of 32 bits; the sign bit is pushed out at the top. -/
def exponentWord : BitVec 32 := ((p <<< 1) >>> 53).setWidth 32

/-- The fraction field under its hidden bit, by masks. -/
def significandWord : BitVec 64 := hiddenBit ||| (p &&& (hiddenBit - 1))

end Double

/-- The low 32 bits of the integer part of a finite float, toward zero, in two's complement. -/
def WordArithmetic.integerPart (a : WordArithmetic) (p : Double) : WordProgram Carrier := do
  a.require p.isFinite .notFinite
  if p.exponentWord.toInt < 1023 then
    -- less than one in magnitude
    return 0
  else
    -- the exponent of the last place
    let n ← a.sub (← a.sub p.exponentWord 1023) 52
    let magnitude ← a.align p.significandWord n
    return if p >>> 63 != 0 then -magnitude else magnitude

/-! ## Steps within their range -/

namespace WordArithmetic

variable (a : WordArithmetic)

theorem require_of {condition : Prop} [Decidable condition] (h : condition) (fault : WordFault) :
    a.require condition fault = pure () := by
  cases a with
  | checked => exact if_pos h
  | wrapping => rfl

theorem toInt_ofInt {v : Int} (hv : v.natAbs < 2 ^ 31) : (BitVec.ofInt 32 v).toInt = v := by
  apply BitVec.toInt_ofInt_eq_self (by decide) <;> omega

theorem sub_ofInt {u v : Int} (hu : u.natAbs < 2 ^ 30) (hv : v.natAbs < 2 ^ 30) :
    a.sub (.ofInt 32 u) (.ofInt 32 v) = pure (.ofInt 32 (u - v)) := by
  have hu' := toInt_ofInt (v := u) (by omega)
  have hv' := toInt_ofInt (v := v) (by omega)
  -- the difference of two integers of 31 bits has 32 bits
  have hfits : ¬ (BitVec.ofInt 32 u).ssubOverflow (BitVec.ofInt 32 v) := by
    simp only [BitVec.ssubOverflow, hu', hv', Bool.or_eq_true, decide_eq_true_eq]
    omega
  have heq : BitVec.ofInt 32 u - BitVec.ofInt 32 v = BitVec.ofInt 32 (u - v) := by
    rw [← BitVec.toInt_inj, BitVec.toInt_sub_of_not_ssubOverflow hfits, hu', hv',
      toInt_ofInt (by omega)]
  rw [sub, a.require_of hfits, heq]
  rfl

theorem neg_ofInt {v : Int} (hv : v.natAbs < 2 ^ 31) :
    a.neg (.ofInt 32 v) = pure (.ofInt 32 (-v)) := by
  have hfits : ¬ (BitVec.ofInt 32 v).negOverflow := by
    rw [BitVec.negOverflow, toInt_ofInt hv, beq_iff_eq]
    omega
  rw [neg, a.require_of hfits, BitVec.ofInt_neg]
  rfl

/-- A shift by fewer places than the word has moves its bits by all of them. -/
theorem run_shift (d : Direction) (word : BitVec 64) {n : Nat} (hn : n < 64)
    (log : List WordShift) :
    (a.shift d word (.ofInt 32 n)).run log = .ok (d.move word n, log ++ [⟨d, n⟩]) := by
  have hint : (BitVec.ofInt 32 (n : Int)).toInt = n := toInt_ofInt (by omega)
  have hnat : (BitVec.ofInt 32 (n : Int)).toNat % 64 = n := by
    rw [BitVec.ofInt_natCast, BitVec.toNat_ofNat]
    omega
  rw [shift, a.require_of (by omega), hint, hnat]
  rfl

end WordArithmetic

/-! ## The fields of a pattern as words -/

namespace Double

variable (p : Double)

theorem exponentField_lt : p.exponentField < 2 ^ 11 := (p.extractLsb' 52 11).isLt

theorem exponentWord_eq : p.exponentWord = BitVec.ofInt 32 p.exponentField := by
  refine BitVec.eq_of_toNat_eq ?_
  have hlt := p.exponentField_lt
  have hp := p.isLt
  -- the shifts are a product and a quotient by powers of two, and words are remainders
  rw [exponentField_eq] at hlt ⊢
  simp only [exponentWord, Format.exponentField, Format.double, BitVec.ofInt_natCast,
    BitVec.toNat_setWidth, BitVec.toNat_ushiftRight, BitVec.toNat_shiftLeft, BitVec.toNat_ofNat,
    Nat.shiftLeft_eq, Nat.shiftRight_eq_div_pow] at hlt ⊢
  omega

theorem significandWord_eq : p.significandWord = p.significand := by
  refine BitVec.eq_of_toNat_eq ?_
  have hf : p.toNat % 2 ^ 52 < 2 ^ 52 := Nat.mod_lt _ (by decide)
  have hhidden : hiddenBit.toNat = 1 <<< 52 := rfl
  have hmask : (hiddenBit - 1).toNat = 2 ^ 52 - 1 := rfl
  rw [toNat_significand, significandWord, BitVec.toNat_or, BitVec.toNat_and, hhidden, hmask,
    Nat.and_two_pow_sub_one_eq_mod]
  exact (Nat.shiftLeft_add_eq_or_of_lt hf 1).symm

theorem ushiftRight_ne_zero : (p >>> 63 != 0) = p.negative := by
  have hp := p.isLt
  rw [negative, BitVec.msb_eq_decide, Bool.eq_iff_iff, bne_iff_ne, decide_eq_true_iff, ne_eq,
    ← BitVec.toNat_inj, BitVec.toNat_ushiftRight, Nat.shiftRight_eq_div_pow]
  change ¬ p.toNat / 2 ^ 63 = 0 ↔ 2 ^ 63 ≤ p.toNat
  omega

variable {p} in
/-- From one on, at most 52 digits of a number stand behind the point. -/
theorem le_shift (h : 1023 ≤ p.exponentField) : -52 ≤ p.shift := by
  unfold shift
  omega

theorem shift_le : p.shift ≤ 972 := by
  have := p.exponentField_lt
  unfold shift
  omega

end Double

/-! ## The shifts of a significand -/

/-- The shift that brings a significand into alignment, if there is one. -/
def Alignment.shifts : Alignment → List WordShift
  | right n => [⟨.right, n⟩]
  | left n => [⟨.left, n⟩]
  | beyond => []

theorem Alignment.inRange_of_mem_shifts {e : Int} (he : -52 ≤ e) {s : WordShift}
    (hs : s ∈ (ofShift e).shifts) : s.InRange := by
  cases h : ofShift e with
  | right n =>
    rw [h] at hs
    obtain rfl := List.mem_singleton.1 hs
    exact ⟨Int.natCast_nonneg n, Int.ofNat_le.2 (right_le he h)⟩
  | left n =>
    rw [h] at hs
    obtain rfl := List.mem_singleton.1 hs
    exact ⟨Int.natCast_nonneg n, Int.ofNat_le.2 (Nat.le_of_lt_succ (left_lt h))⟩
  | beyond =>
    rw [h] at hs
    cases hs

/-- The shifts by which the bits of an integer part are found. -/
def Double.shifts (p : Double) : List WordShift :=
  if p.exponentField < 1023 then [] else (Alignment.ofShift p.shift).shifts

theorem Double.inRange_of_mem_shifts {p : Double} {s : WordShift} (hs : s ∈ p.shifts) :
    s.InRange := by
  unfold shifts at hs
  split at hs
  · cases hs
  · next h => exact Alignment.inRange_of_mem_shifts (le_shift (Nat.not_lt.1 h)) hs

/-! ## The run of a finite pattern -/

namespace WordArithmetic

variable (a : WordArithmetic)

/-- A significand is aligned without a fault as long as it keeps one of its bits. -/
theorem run_align (significand : BitVec 64) {e : Int} (hlo : -64 < e) (hhi : e < 2 ^ 31)
    (log : List WordShift) :
    (a.align significand (.ofInt 32 e)).run log =
      .ok ((Alignment.ofShift e).apply significand, log ++ (Alignment.ofShift e).shifts) := by
  have hint := toInt_ofInt (v := e) (by omega)
  unfold align Alignment.ofShift
  rw [hint]
  by_cases h₀ : e < 0
  · -- the negated exponent is the number of places
    obtain ⟨n, hn⟩ := Int.eq_ofNat_of_zero_le (show 0 ≤ -e by omega)
    rw [if_pos h₀, if_pos h₀, a.neg_ofInt (by omega), hn, pure_bind, StateT.run_bind,
      a.run_shift .right _ (by omega)]
    rfl
  · rw [if_neg h₀, if_neg h₀]
    by_cases h₁ : e < 32
    · obtain ⟨n, rfl⟩ := Int.eq_ofNat_of_zero_le (show 0 ≤ e by omega)
      rw [if_pos h₁, if_pos h₁, StateT.run_bind, a.run_shift .left _ (by omega)]
      rfl
    · rw [if_neg h₁, if_neg h₁, Alignment.shifts, List.append_nil]
      rfl

/-- **A finite pattern causes no fault**: whichever the arithmetic, it finds the low bits of the
integer part. -/
theorem run_integerPart {p : Double} (h : p.isFinite) (log : List WordShift) :
    (a.integerPart p).run log = .ok (p.integerPart, log ++ p.shifts) := by
  have hlt := p.exponentField_lt
  have hint : p.exponentWord.toInt = p.exponentField := by
    rw [p.exponentWord_eq, toInt_ofInt (by omega)]
  rw [integerPart, a.require_of h, pure_bind, hint]
  unfold Double.integerPart Double.shifts
  by_cases hE : p.exponentField < 1023
  · rw [if_pos (by omega), if_pos hE, if_pos hE, List.append_nil]
    rfl
  · -- both differences stay far within 32 bits
    have hbias :
        a.sub (.ofInt 32 p.exponentField) 1023 = pure (.ofInt 32 (p.exponentField - 1023)) :=
      a.sub_ofInt (v := 1023) (by omega) (by decide)
    have hunits : a.sub (.ofInt 32 (p.exponentField - 1023)) 52 = pure (.ofInt 32 p.shift) :=
      a.sub_ofInt (v := 52) (by omega) (by decide)
    have hlo := Double.le_shift (Nat.not_lt.1 hE)
    have hhi := p.shift_le
    rw [if_neg (by omega), if_neg hE, if_neg hE, p.exponentWord_eq, hbias, pure_bind, hunits,
      pure_bind, p.significandWord_eq, p.ushiftRight_ne_zero, StateT.run_bind,
      a.run_align _ (by omega) (by omega)]
    rfl

end WordArithmetic

/-! ## Classes of floats -/

/-- The classes of floats. -/
inductive FloatClass
  | nan
  | infinite
  | zero
  | subnormal
  | normal
deriving DecidableEq

/-- The class of a pattern, by its exponent field and its fraction field. -/
def Double.classify (p : Double) : FloatClass :=
  if p.exponentField = 2047 then if p.extractLsb' 0 52 = 0 then .infinite else .nan
  else if p.exponentField = 0 then if p.extractLsb' 0 52 = 0 then .zero else .subnormal
  else .normal

/-- The number of the integer part of a float. Floats of the classes that are set apart become zero,
and their integer parts are not looked at. -/
def WordArithmetic.ofDouble {F : Family} (a : WordArithmetic) (apart : List FloatClass)
    (p : Double) : WordProgram (Number F) :=
  if p.classify ∈ apart then
    return Number.zero
  else do
    return Number.ofCarrier (← a.integerPart p)

namespace Double

variable (p : Double)

theorem isFinite_iff_classify : p.isFinite ↔ p.classify ≠ .nan ∧ p.classify ≠ .infinite := by
  unfold isFinite classify
  rw [bne_iff_ne]
  split_ifs <;> simp_all

theorem isNormal_iff_classify : p.isNormal ↔ p.classify = .normal := by
  unfold isNormal isFinite classify
  rw [Bool.and_eq_true, bne_iff_ne, bne_iff_ne]
  split_ifs <;> simp_all

/-- The finite patterns are those with an exact value. -/
theorem isFinite_iff_exists : p.isFinite ↔ ∃ x, p.datum.value? = some x := by
  constructor
  · intro h
    rw [isFinite_iff] at h
    rw [datum, Format.decode, if_neg h]
    split <;> exact ⟨_, rfl⟩
  · rintro ⟨x, hx⟩
    exact p.isFinite_of_value? hx

theorem toNat_integerPart {x : ℚ} (hx : p.datum.value? = some x) :
    (p.integerPart.toNat : Int) = towardZero x % 2 ^ 32 := by
  rw [p.integerPart_eq (p.isFinite_of_value? hx), Datum.truncate_of_value? hx, BitVec.toNat_ofInt]
  omega

end Double

namespace Number

variable {F : Family}

/-- Zero and the subnormal numbers may take the general way: their integer parts have no bits. -/
theorem ofCarrier_integerPart {p : Double} (h : p.isFinite) :
    (ofCarrier p.integerPart : Number F) = ofDouble p := by
  unfold ofDouble
  split
  · rfl
  · next hn =>
    rw [Double.isNormal, h, Bool.true_and, bne_iff_ne, not_not] at hn
    rw [Double.integerPart, if_pos (by omega)]
    exact ext F.canonical_zero

end Number

namespace WordArithmetic

variable (a : WordArithmetic) {F : Family}

/-- Among the classes that are set apart there must be those without a value, and the normal numbers
must not be among them. -/
theorem run'_ofDouble {apart : List FloatClass} (hnan : .nan ∈ apart) (hinf : .infinite ∈ apart)
    (hnormal : .normal ∉ apart) (p : Double) :
    (a.ofDouble apart p).run' [] = .ok (Number.ofDouble p : Number F) := by
  unfold ofDouble
  by_cases hmem : p.classify ∈ apart
  · have hn : ¬ p.isNormal := fun h => hnormal (p.isNormal_iff_classify.1 h ▸ hmem)
    rw [if_pos hmem, Number.ofDouble, if_neg hn]
    rfl
  · have hfin : p.isFinite := by
      refine p.isFinite_iff_classify.2 ⟨fun h => ?_, fun h => ?_⟩
      · exact hmem (h ▸ hnan)
      · exact hmem (h ▸ hinf)
    -- the general way gives the same number, also to zero and to the subnormal numbers
    rw [if_neg hmem, StateT.run'_eq, StateT.run_bind, a.run_integerPart hfin,
      ← Number.ofCarrier_integerPart hfin]
    rfl

end WordArithmetic

namespace Double

/-- **The integer part of every finite pattern is found exactly, and without a fault.** A pattern is
finite when it has an exact value, which may be zero or that of a subnormal number. Checked
arithmetic does not stop on it, and wrapping arithmetic has nothing to wrap: either finds the low 32
bits of the value without its fraction, and shifts the significand by at most 52 places to the right
or 31 to the left. So it does not matter to the conversion whether zeros and subnormal numbers are
set apart like NaNs and infinities, or take the way of the normal numbers. -/
theorem integer_parts_exact_without_faults (a : WordArithmetic) :
    (∀ p : Double, p.isFinite ↔ ∃ x, p.datum.value? = some x) ∧
    (∀ (p : Double) (x : ℚ), p.datum.value? = some x →
      (p.integerPart.toNat : Int) = towardZero x % 2 ^ 32 ∧
      ∃ shifts, (a.integerPart p).run [] = .ok (p.integerPart, shifts) ∧
        ∀ s ∈ shifts, s.InRange) ∧
    ∀ (F : Family) (apart : List FloatClass),
      .nan ∈ apart → .infinite ∈ apart → .normal ∉ apart → ∀ p : Double,
        (a.ofDouble apart p).run' [] = .ok (Number.ofDouble p : Number F) := by
  refine ⟨isFinite_iff_exists, fun p x hx => ⟨p.toNat_integerPart hx, p.shifts, ?_, ?_⟩, ?_⟩
  · exact a.run_integerPart (p.isFinite_of_value? hx) []
  · intro s hs
    exact inRange_of_mem_shifts hs
  · intro F apart hnan hinf hnormal p
    exact a.run'_ofDouble hnan hinf hnormal p

/-- The float `-(2 ^ 52 + 1) * 2 ^ 31` has a significand that a word of 64 bits cannot hold at its
place, and the least subnormal number takes the general way. -/
theorem integer_parts_exact_without_faults_lossy :
    let F : Family := ⟨{ bits := 8 }, true⟩
    let p : Double := 0xc520000000000001
    let apart : List FloatClass := [.nan, .infinite]
    (p.datum.value? = some ((-(2 ^ 52 + 1) * 2 ^ 31 : Int) : ℚ) ∧
      (p.integerPart.toNat : Int) = 2 ^ 31 ∧
      ∃ shifts, (WordArithmetic.checked.integerPart p).run [] = .ok (p.integerPart, shifts) ∧
        ∀ s ∈ shifts, s.InRange) ∧
    (.nan ∈ apart ∧ .infinite ∈ apart ∧ .normal ∉ apart ∧ Double.classify 1 = .subnormal ∧
      (WordArithmetic.checked.ofDouble apart 1).run' [] = .ok (Number.ofDouble 1 : Number F)) := by
  intro F p apart
  have hd : p.datum = .finite true (2 ^ 52 + 1) 31 := by decide
  have hx : p.datum.value? = some ((-(2 ^ 52 + 1) * 2 ^ 31 : Int) : ℚ) := by
    rw [hd]
    norm_num [Datum.value?]
  have hnan : .nan ∈ apart := by decide
  have hinf : .infinite ∈ apart := by decide
  have hnormal : .normal ∉ apart := by decide
  obtain ⟨-, hpart, hconv⟩ := integer_parts_exact_without_faults .checked
  obtain ⟨hbits, hrun⟩ := hpart p _ hx
  rw [towardZero_intCast] at hbits
  exact ⟨⟨hx, hbits, hrun⟩, hnan, hinf, hnormal, by decide, hconv F apart hnan hinf hnormal 1⟩

/-- The float `-2.5` has the integer part `-2`, and infinity stops checked arithmetic only. -/
example :
    (WordArithmetic.checked.integerPart 0xc004000000000000).run [] =
      .ok (0xfffffffe, [⟨.right, 51⟩]) ∧
    (WordArithmetic.checked.integerPart 0x7ff0000000000000).run [] = .error .notFinite ∧
    (WordArithmetic.wrapping.integerPart 0x7ff0000000000000).run [] = .ok (0, []) :=
  ⟨rfl, rfl, rfl⟩

end Double

end NarrowInt
