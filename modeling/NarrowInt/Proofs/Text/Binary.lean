import Mathlib
import NarrowInt.Text.Numeral

/-!
# Binary numerals

The low bits of a number can be taken one by one, or as the binary numeral of the number, filled up
with zeros to their count; these are the same string, and it reads back as the low bits.

## Main definitions

* `Text.binaryDigit`: the digit of a bit
* `Text.binaryField`: a binary numeral, filled up with zeros

## Main results

* `Text.bitString_append`: a bit string is cut where the number is
* `Text.bitString_toNat`: the bits of a word, from the most significant one
* `Text.binaryField_eq`: a numeral that fits its field is the bit string
* `Text.ofDigitChars_bitString`: the number of a bit string
-/

namespace NarrowInt.Text

/-- The digit of a bit. -/
def binaryDigit (b : Bool) : Char := if b then '1' else '0'

theorem bitString_succ (count n : Nat) :
    bitString (count + 1) n = binaryDigit (n.testBit count) :: bitString count n := rfl

/-- The upper bits come first. -/
theorem bitString_append (upper lower n : Nat) :
    bitString (upper + lower) n = bitString upper (n >>> lower) ++ bitString lower n := by
  induction upper with
  | zero => simp [bitString]
  | succ upper ih =>
    rw [Nat.succ_add, bitString_succ, bitString_succ, ih, Nat.testBit_shiftRight, Nat.add_comm,
      List.cons_append]

theorem bitString_mod (count n : Nat) : bitString count (n % 2 ^ count) = bitString count n := by
  have h : ∀ k ≤ count, bitString k (n % 2 ^ count) = bitString k n := by
    intro k hk
    induction k with
    | zero => rfl
    | succ k ih =>
      rw [bitString_succ, bitString_succ, ih (by omega), Nat.testBit_mod_two_pow]
      simp [show k < count by omega]
  exact h count le_rfl

theorem bitString_eq_ofFn (count n : Nat) :
    bitString count n = List.ofFn fun i : Fin count => binaryDigit (n.testBit (count - 1 - i)) := by
  induction count with
  | zero => simp [bitString]
  | succ count ih =>
    rw [bitString_succ, ih, List.ofFn_succ]
    congr 2
    funext i
    simp only [Fin.val_succ]
    congr 2
    omega

/-- The bits of a word, from the most significant one. -/
theorem bitString_toNat {w : Nat} (c : BitVec w) :
    bitString w c.toNat = List.ofFn fun i : Fin w => binaryDigit (c.getMsbD i) := by
  rw [bitString_eq_ofFn]
  congr 1
  funext i
  rw [BitVec.testBit_toNat, BitVec.getMsbD]
  simp [i.isLt]

/-- A binary numeral, filled up with zeros to a width. -/
def binaryField (width n : Nat) : List Char :=
  let digits := Nat.toDigits 2 n
  List.replicate (width - digits.length) '0' ++ digits

theorem toDigits_two_of_lt {n : Nat} (h : n < 2) :
    Nat.toDigits 2 n = [binaryDigit (n.testBit 0)] := by
  interval_cases n <;> rfl

theorem toDigits_two_of_le {n : Nat} (h : 2 ≤ n) :
    Nat.toDigits 2 n = Nat.toDigits 2 (n >>> 1) ++ [binaryDigit (n.testBit 0)] := by
  have hdigit : Nat.toDigits 2 (n % 2) = [binaryDigit (n.testBit 0)] := by
    rw [toDigits_two_of_lt (Nat.mod_lt _ (by decide))]
    simp
  rw [← hdigit, Nat.shiftRight_one, Nat.toDigits_append_toDigits (by decide) (by omega) (by omega),
    Nat.div_add_mod]

/-- The numeral of a number that fits its field is a bit string. -/
theorem binaryField_eq {count n : Nat} (hcount : 0 < count) (hn : n < 2 ^ count) :
    binaryField count n = bitString count n := by
  -- the last digit is that of the lowest bit, and the others make up half the number
  induction count, hcount using Nat.le_induction generalizing n with
  | base =>
    have hn : n < 2 := by simpa using hn
    rw [binaryField, toDigits_two_of_lt hn]
    rfl
  | succ count hcount ih =>
    have hhalf : n >>> 1 < 2 ^ count := by
      rw [Nat.shiftRight_one]
      omega
    have hlast : bitString (count + 1) n =
        binaryField count (n >>> 1) ++ [binaryDigit (n.testBit 0)] := by
      rw [ih hhalf, bitString_append]
      rfl
    rw [hlast]
    rcases Nat.lt_or_ge n 2 with hlt | hle
    · -- a single digit, after zeros only
      have hzero : n >>> 1 = 0 := by
        rw [Nat.shiftRight_one]
        omega
      obtain ⟨k, rfl⟩ := Nat.exists_eq_add_of_le' hcount
      rw [hzero, binaryField, binaryField, toDigits_two_of_lt hlt, Nat.toDigits_zero]
      simp [List.replicate_succ']
    · rw [binaryField, binaryField, toDigits_two_of_le hle]
      simp

/-- The number of a bit string, read on from another number. -/
theorem ofDigitChars_bitString (count n start : Nat) :
    Nat.ofDigitChars 2 (bitString count n) start = 2 ^ count * start + n % 2 ^ count := by
  induction count generalizing start with
  | zero => simp [bitString, Nat.mod_one]
  | succ count ih =>
    have hdigit : (binaryDigit (n.testBit count)).toNat - '0'.toNat = (n.testBit count).toNat := by
      cases n.testBit count <;> rfl
    rw [bitString_succ, Nat.ofDigitChars_cons, ih, hdigit, Nat.toNat_testBit, Nat.mod_pow_succ]
    ring

end NarrowInt.Text
