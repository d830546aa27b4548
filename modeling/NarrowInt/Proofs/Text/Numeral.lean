import Mathlib
import NarrowInt.Text.Numeral

/-!
# Plain numerals

A string of decimal digits is plain when it has no superfluous zero in front. Reading and printing
are inverse on plain strings of digits: a digit appended to a numeral other than zero makes the
numeral of ten times the number plus the digit.

## Main definitions

* `Text.Padded`: a superfluous zero stands in front

## Main results

* `Text.readDigits?_and_not_padded_iff`: the plain strings of digits are the numerals
-/

namespace NarrowInt.Text

/-- A zero stands in front of other characters. -/
def Padded (cs : List Char) : Prop := 1 < cs.length ∧ cs.head? = some '0'

instance (cs : List Char) : Decidable (Padded cs) :=
  inferInstanceAs (Decidable (1 < cs.length ∧ cs.head? = some '0'))

/-- A digit is the character of its distance from the digit zero. -/
theorem digitChar_toNat_sub {c : Char} (h : c.isDigit) :
    c.toNat - '0'.toNat < 10 ∧ (c.toNat - '0'.toNat).digitChar = c := by
  have hc : 48 ≤ c.toNat ∧ c.toNat ≤ 57 := Char.isDigit_iff_toNat.1 h
  have hz : '0'.toNat = 48 := rfl
  have hlt : c.toNat - '0'.toNat < 10 := by omega
  refine ⟨hlt, Char.toNat_inj.1 ?_⟩
  rw [Nat.toNat_digitChar_of_lt_ten hlt]
  omega

theorem isAlphanum_of_mem_decimal {n : Nat} {c : Char} (h : c ∈ decimal n) : c.isAlphanum := by
  rw [Char.isAlphanum, isDigit_of_mem_decimal h, Bool.or_true]

theorem isAlphanum_of_mem_hexadecimal {n : Nat} {c : Char} (h : c ∈ hexadecimal n) :
    c.isAlphanum := by
  have hdigit : ∀ d < 16, d.digitChar.isAlphanum := by
    decide
  induction n using Nat.base_induction 16 (by decide) with
  | single m hm =>
    rw [hexadecimal, Nat.toDigits_of_lt_base hm, List.mem_singleton] at h
    rw [h]
    exact hdigit m hm
  | digit m k hk hm ih =>
    rw [hexadecimal, ← Nat.toDigits_append_toDigits (by decide) hm hk, List.mem_append,
      Nat.toDigits_of_lt_base hk, List.mem_singleton] at h
    rcases h with h | rfl
    · exact ih h
    · exact hdigit k hk

/-- Digits appended to a numeral other than zero are read on from its number. -/
theorem decimal_append {cs : List Char} (hcs : ∀ c ∈ cs, c.isDigit) {n : Nat} (hn : 0 < n) :
    decimal n ++ cs = decimal (Nat.ofDigitChars 10 cs n) := by
  induction cs generalizing n with
  | nil => rw [List.append_nil, Nat.ofDigitChars_nil]
  | cons c cs ih =>
    obtain ⟨hc, hcs⟩ := List.forall_mem_cons.1 hcs
    obtain ⟨hlt, hchar⟩ := digitChar_toNat_sub hc
    have hstep : decimal n ++ [c] = decimal (10 * n + (c.toNat - '0'.toNat)) := by
      have h := Nat.toDigits_append_toDigits (b := 10) (by decide) hn hlt
      rwa [Nat.toDigits_of_lt_base hlt, hchar] at h
    rw [Nat.ofDigitChars_cons, ← ih hcs (by omega), ← hstep, List.append_assoc]
    rfl

/-- A numeral starts with a zero only if it is the numeral of zero. -/
theorem head?_decimal {n : Nat} (h : (decimal n).head? = some '0') : n = 0 := by
  induction n using Nat.base_induction 10 (by decide) with
  | single m hm =>
    rw [decimal, Nat.toDigits_of_lt_base hm] at h
    exact Nat.digitChar_eq_zero.1 (Option.some.inj h)
  | digit m k hk hm ih =>
    have happ := Nat.toDigits_append_toDigits (b := 10) (by decide) hm hk
    rw [decimal, ← happ, List.head?_append_of_ne_nil _ Nat.toDigits_ne_nil] at h
    have := ih h
    omega

theorem not_padded_decimal (n : Nat) : ¬ Padded (decimal n) := by
  rintro ⟨hlen, hhead⟩
  obtain rfl := head?_decimal hhead
  exact absurd hlen (by decide)

theorem readDigits?_eq_some_iff {cs : List Char} {n : Nat} :
    readDigits? cs = some n ↔
      cs ≠ [] ∧ (∀ c ∈ cs, c.isDigit) ∧ Nat.ofDigitChars 10 cs 0 = n := by
  unfold readDigits?
  rw [Option.ite_none_right_eq_some, List.all_eq_true, Option.some_inj, and_assoc]

/-- The numeral of a number is the only plain string of digits that reads as the number. -/
theorem readDigits?_and_not_padded_iff {cs : List Char} {n : Nat} :
    readDigits? cs = some n ∧ ¬ Padded cs ↔ cs = decimal n := by
  constructor
  · rintro ⟨h, hp⟩
    obtain ⟨hne, hd, rfl⟩ := readDigits?_eq_some_iff.1 h
    obtain ⟨c, cs, rfl⟩ := List.exists_cons_of_ne_nil hne
    obtain ⟨hc, hcs⟩ := List.forall_mem_cons.1 hd
    obtain ⟨hlt, hchar⟩ := digitChar_toNat_sub hc
    -- the first digit is a numeral of its own, and the others are read on from it
    have hone : decimal (c.toNat - '0'.toNat) = [c] := by
      rw [decimal, Nat.toDigits_of_lt_base hlt, hchar]
    rw [Nat.ofDigitChars_cons, Nat.mul_zero, Nat.zero_add]
    cases cs with
    | nil => exact hone.symm
    | cons c' cs =>
      -- another character follows, so the first digit is not zero
      have hpos : 0 < c.toNat - '0'.toNat := by
        refine Nat.pos_of_ne_zero fun h₀ => hp ⟨by simp, ?_⟩
        rw [h₀] at hchar
        rw [List.head?_cons, ← hchar]
        rfl
      rw [← decimal_append hcs hpos, hone]
      rfl
  · rintro rfl
    exact ⟨readDigits?_decimal n, not_padded_decimal n⟩

end NarrowInt.Text
