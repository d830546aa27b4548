/-!
# Numerals

Decimal and hexadecimal numerals without leading zeros, bit strings of a fixed length, the value of
a string of decimal digits, and how a word or a number is laid out in a field of a minimum width. A
field is filled up on one side or on both. A number may carry a plus sign, and may be filled up with
zeros between its sign and its digits, which takes the place of fill and alignment.

## Main definitions

* `decimal`, `hexadecimal`: the numeral of a number
* `bitString`: a fixed number of low bits, most significant first
* `readDigits?`: the value of a nonempty string of decimal digits
* `maxWord`: the largest number of 32 bits
* `Layout`: fill, alignment, plus sign, zeros and minimum width
* `Layout.word`: a word in a field, at the left by default
* `Layout.integer`: a decimal number in a field, at the right by default

## Main results

* `readDigits?_decimal`: the numeral of a number reads back as the number
* `Layout.length_pad`, `Layout.pad_eq_self`: a text takes up the width of its field, or more
-/

namespace NarrowInt.Text

/-- The decimal numeral of `n`. -/
def decimal (n : Nat) : List Char := Nat.toDigits 10 n

/-- The hexadecimal numeral of `n`, in lower case. -/
def hexadecimal (n : Nat) : List Char := Nat.toDigits 16 n

/-- The `count` low bits of `n` as binary digits, most significant first. -/
def bitString : Nat → Nat → List Char
  | 0, _ => []
  | count + 1, n => (if n.testBit count then '1' else '0') :: bitString count n

/-- The value of a nonempty string of decimal digits, of any length. -/
def readDigits? (cs : List Char) : Option Nat :=
  if cs ≠ [] ∧ cs.all Char.isDigit then some (Nat.ofDigitChars 10 cs 0) else none

/-- The largest number of 32 bits. -/
def maxWord : Nat := 4294967295

theorem decimal_ne_nil (n : Nat) : decimal n ≠ [] := Nat.toDigits_ne_nil

theorem isDigit_of_mem_decimal {n : Nat} {c : Char} (h : c ∈ decimal n) : c.isDigit :=
  Nat.isDigit_of_mem_toDigits (by decide) (by decide) h

@[simp] theorem readDigits?_decimal (n : Nat) : readDigits? (decimal n) = some n := by
  have h : (decimal n).all Char.isDigit := List.all_eq_true.2 fun _ hc => isDigit_of_mem_decimal hc
  rw [readDigits?, if_pos ⟨decimal_ne_nil n, h⟩]
  exact congrArg some (Nat.ofDigitChars_toDigits (by decide) (by decide))

@[simp] theorem length_bitString (count n : Nat) : (bitString count n).length = count := by
  induction count with
  | zero => rfl
  | succ count ih => simp [bitString, ih]

/-! ## Fields -/

/-- The side at which a text stands in its field. -/
inductive Side
  | left
  | right
  | center
deriving DecidableEq

/-- The layout of a field. -/
structure Layout where
  fill : Char := ' '
  side : Option Side := none
  plus : Bool := false
  zeros : Bool := false
  width : Nat := 0
deriving DecidableEq

namespace Layout

variable (layout : Layout)

/-- A text filled up to the width, at the given side unless the layout names one. A centered text
has the smaller half of the fill before it. -/
def pad (side : Side) (cs : List Char) : List Char :=
  let missing := layout.width - cs.length
  let before := match layout.side.getD side with
    | .left => 0
    | .right => missing
    | .center => missing / 2
  List.replicate before layout.fill ++ cs ++ List.replicate (missing - before) layout.fill

/-- A word, at the left unless the layout names a side; plus sign and zeros do not apply. -/
def word (cs : List Char) : List Char := layout.pad .left cs

/-- The sign of a number: a minus, or a plus when the layout asks for it. -/
def sign (v : Int) : List Char :=
  if v < 0 then ['-'] else if layout.plus then ['+'] else []

/-- A decimal number, at the right unless the layout names a side or asks for zeros. -/
def integer (v : Int) : List Char :=
  let sign := layout.sign v
  let digits := decimal v.natAbs
  if layout.zeros then
    sign ++ List.replicate (layout.width - (sign.length + digits.length)) '0' ++ digits
  else layout.pad .right (sign ++ digits)

@[simp] theorem length_pad (side : Side) (cs : List Char) :
    (layout.pad side cs).length = max layout.width cs.length := by
  unfold pad
  cases layout.side.getD side <;> simp <;> omega

/-- A text that is wide enough is not filled up. -/
theorem pad_eq_self {side : Side} {cs : List Char} (h : layout.width ≤ cs.length) :
    layout.pad side cs = cs := by
  have hmissing : layout.width - cs.length = 0 := Nat.sub_eq_zero_of_le h
  unfold pad
  cases layout.side.getD side <;> simp [hmissing]

@[simp] theorem word_default (cs : List Char) : word {} cs = cs :=
  pad_eq_self {} (Nat.zero_le _)

@[simp] theorem integer_default (v : Int) :
    integer {} v = (if v < 0 then ['-'] else []) ++ decimal v.natAbs := by
  change pad {} .right (sign {} v ++ decimal v.natAbs) = _
  rw [pad_eq_self {} (Nat.zero_le _)]
  rfl

end Layout

end NarrowInt.Text
