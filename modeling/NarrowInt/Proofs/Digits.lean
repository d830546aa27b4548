import Mathlib
import NarrowInt.Number.Basic
import NarrowInt.Proofs.Division
import NarrowInt.Proofs.Text.Binary
import NarrowInt.Text.Affix

/-!
# The digits of a number

In diagnostics a number is written with the 32 bits of its carrier, most significant first. An
underscore stands after the junk bits, if there are any, so that the digits after it tell the width,
and the word in front tells the signedness: the text tells the family, and in it the number. The two
sides of the underscore are written apart, as fields of their own: the bits of each are cut to their
number, and their binary numeral is filled up with zeros.

The decimal form of a number is an integer of 64 bits, and the number is the one of this integer.

## Main definitions

* `Text.readInteger64?`: the integer of a decimal text
* `Number.carrierDigits`: the bits of the carrier
* `Number.bitFields`: the bits as two fields
* `Number.readInspected?`: the number that a text in diagnostics shows

## Main results

* `Number.bitPattern_eq`, `Number.bitPattern_eq_bitFields`: where the underscore stands
* `Number.digits_determine_number`: a number is read back from what is written for it
-/

namespace NarrowInt

/-! ## Decimal integers -/

namespace Text

/-- The integer of 64 bits that a decimal text denotes: digits, after at most one sign. -/
def readInteger64? (cs : List Char) : Option Int :=
  let v? : Option Int :=
    match after? ['-'] cs with
    | some digits => (readDigits? digits).map fun n : Nat => -(n : Int)
    | none => (readDigits? ((after? ['+'] cs).getD cs)).map fun n : Nat => (n : Int)
  v?.filter fun v => decide (MachineType.signed64.Represents v)

theorem after?_decimal {c : Char} (h : ¬ c.isDigit) (n : Nat) : after? [c] (decimal n) = none := by
  refine after?_eq_none_iff.2 fun rest hrest => h (isDigit_of_mem_decimal (n := n) ?_)
  rw [hrest]
  exact List.mem_cons_self

theorem readInteger64?_integer {v : Int} (h : MachineType.signed64.Represents v) :
    readInteger64? (Layout.integer {} v) = some v := by
  rw [Layout.integer_default, readInteger64?]
  refine Option.filter_eq_some_iff.2 ⟨?_, decide_eq_true h⟩
  by_cases hneg : v < 0
  · rw [if_pos hneg, after?_append]
    dsimp only
    rw [readDigits?_decimal, Option.map_some, Option.some_inj]
    omega
  · -- a numeral has no sign to cut off
    rw [if_neg hneg, List.nil_append, after?_decimal (by decide), after?_decimal (by decide)]
    dsimp only
    rw [Option.getD_none, readDigits?_decimal, Option.map_some, Option.some_inj]
    omega

end Text

namespace Number

variable {F : Family}

/-! ## Bits of carriers -/

/-- The bits of the carrier, from the most significant one. -/
def carrierDigits (x : Number F) : List Char :=
  List.ofFn fun i : Fin 32 => Text.binaryDigit (x.carrier.getMsbD i)

theorem carrierDigits_eq_bitString (x : Number F) :
    x.carrierDigits = Text.bitString 32 x.carrier.toNat :=
  (Text.bitString_toNat x.carrier).symm

theorem carrierDigits_eq_append (x : Number F) :
    x.carrierDigits = Text.bitString F.width.junk (x.carrier.toNat >>> F.width.bits) ++
      Text.bitString F.width.bits x.carrier.toNat := by
  rw [carrierDigits_eq_bitString, ← Text.bitString_append, Width.junk,
    Nat.sub_add_cancel F.width.le_carrier]

theorem underscore_notMem_carrierDigits (x : Number F) : '_' ∉ x.carrierDigits := by
  intro h
  obtain ⟨i, hi⟩ := List.mem_ofFn.1 h
  revert hi
  cases x.carrier.getMsbD i <;> decide

/-- The pattern is the bits of the carrier, with an underscore after the junk bits if there are
any. -/
theorem bitPattern_eq (x : Number F) :
    x.bitPattern = if F.width.bits = 32 then x.carrierDigits
      else x.carrierDigits.take (32 - F.width.bits) ++ '_' ::
        x.carrierDigits.drop (32 - F.width.bits) := by
  have hle := F.width.le_carrier
  have hjunk : F.width.junk = 0 ↔ F.width.bits = 32 := by
    unfold Width.junk
    omega
  unfold bitPattern
  rw [carrierDigits_eq_append]
  by_cases h : F.width.bits = 32
  · rw [if_pos (hjunk.2 h), if_pos h, hjunk.2 h]
    rfl
  · have hlen : (Text.bitString F.width.junk (x.carrier.toNat >>> F.width.bits)).length =
        32 - F.width.bits := Text.length_bitString _ _
    rw [if_neg (mt hjunk.1 h), if_neg h, List.take_left' hlen, List.drop_left' hlen]

theorem filter_bitPattern (x : Number F) : x.bitPattern.filter (· != '_') = x.carrierDigits := by
  have hfilter : x.carrierDigits.filter (· != '_') = x.carrierDigits := by
    refine List.filter_eq_self.2 fun c hc => bne_iff_ne.2 ?_
    rintro rfl
    exact x.underscore_notMem_carrierDigits hc
  rw [bitPattern_eq]
  split
  · exact hfilter
  · rw [List.filter_append, List.filter_cons_of_neg (by decide), ← List.filter_append,
      List.take_append_drop, hfilter]

/-- The bits of the carrier in two fields, the junk bits moved down and the significant bits, each
cut to their number and written as a binary numeral, filled up with zeros. Without junk bits there
is one field. -/
def bitFields (x : Number F) : List Char :=
  match Width.ofNat? F.width.junk with
  | none => Text.binaryField 32 x.carrier.toNat
  | some junk =>
    Text.binaryField junk.bits (junk.lowBits (x.carrier >>> F.width.bits)).toNat ++
      '_' :: Text.binaryField F.width.bits (F.width.lowBits x.carrier).toNat

theorem binaryField_lowBits (w : Width) (c : Carrier) :
    Text.binaryField w.bits (w.lowBits c).toNat = Text.bitString w.bits c.toNat := by
  rw [w.toNat_lowBits, Text.binaryField_eq w.one_le (Nat.mod_lt _ (Nat.two_pow_pos _)),
    Text.bitString_mod]

theorem bitPattern_eq_bitFields (x : Number F) : x.bitPattern = x.bitFields := by
  unfold bitPattern bitFields
  cases hjunk : Width.ofNat? F.width.junk with
  | none =>
    -- what is left over is no width, so nothing is left over
    obtain ⟨h₀, hbits⟩ : F.width.junk = 0 ∧ F.width.bits = 32 := by
      have hle := F.width.le_carrier
      have := Width.ofNat?_eq_none_iff.1 hjunk
      unfold Width.junk at this ⊢
      omega
    rw [if_pos h₀, hbits]
    exact (Text.binaryField_eq (by decide) x.carrier.isLt).symm
  | some junk =>
    have hbits := Width.ofNat?_eq_some_iff.1 hjunk
    have hne : F.width.junk ≠ 0 := by
      have := junk.one_le
      omega
    dsimp only
    rw [if_neg hne, binaryField_lowBits, binaryField_lowBits, BitVec.toNat_ushiftRight, hbits]

/-! ## Reading numbers back -/

/-- The number of a signedness with the given pattern. Its width is the number of the digits after
the underscore, or of all digits without one. -/
def readPattern? (signed : Bool) (cs : List Char) : Option (Σ F : Family, Number F) :=
  (Width.ofNat? (((Text.cut? '_' cs).map Prod.snd).getD cs).length).map fun w =>
    ⟨⟨w, signed⟩, .ofCarrier (BitVec.ofNat 32 (Nat.ofDigitChars 2 (cs.filter (· != '_')) 0))⟩

theorem readPattern?_bitPattern (x : Number F) :
    readPattern? F.signed x.bitPattern = some ⟨F, x⟩ := by
  have hdigits := x.underscore_notMem_carrierDigits
  have hlen : x.carrierDigits.length = 32 := List.length_ofFn
  -- the underscore is the only one, so the digits after it are as many as the width
  have hwidth : (((Text.cut? '_' x.bitPattern).map Prod.snd).getD x.bitPattern).length =
      F.width.bits := by
    rw [bitPattern_eq]
    split
    · next h => rw [Text.cut?_eq_none_iff.2 hdigits, Option.map_none, Option.getD_none, hlen, h]
    · next h =>
      have hle := F.width.le_carrier
      have hjunk : '_' ∉ x.carrierDigits.take (32 - F.width.bits) := fun hmem =>
        hdigits (List.mem_of_mem_take hmem)
      rw [Text.cut?_eq_some_iff.2 ⟨rfl, hjunk⟩, Option.map_some, Option.getD_some,
        List.length_drop, hlen]
      omega
  have hcarrier : BitVec.ofNat 32 (Nat.ofDigitChars 2 (x.bitPattern.filter (· != '_')) 0) =
      x.carrier := by
    rw [filter_bitPattern, carrierDigits_eq_bitString, Text.ofDigitChars_bitString, Nat.mul_zero,
      Nat.zero_add, Nat.mod_eq_of_lt x.carrier.isLt, BitVec.ofNat_toNat, BitVec.setWidth_eq]
  rw [readPattern?, hwidth, hcarrier, Width.ofNat?_bits, Option.map_some, ofCarrier_carrier]

/-- The number that a text in diagnostics shows. -/
def readInspected? (cs : List Char) : Option (Σ F : Family, Number F) :=
  match (Text.after? "SInt(0b".toList cs).bind (Text.before? [')']),
    (Text.after? "UInt(0b".toList cs).bind (Text.before? [')']) with
  | some pattern, _ => readPattern? true pattern
  | none, some pattern => readPattern? false pattern
  | none, none => none

theorem inspect_eq (x : Number F) : x.inspect =
    (if F.signed then "SInt(0b".toList else "UInt(0b".toList) ++ x.bitPattern ++ [')'] := by
  unfold inspect kind
  cases F.signed <;> rfl

theorem readInspected?_inspect (x : Number F) : readInspected? x.inspect = some ⟨F, x⟩ := by
  rw [← x.readPattern?_bitPattern, inspect_eq, readInspected?]
  cases hs : F.signed with
  | true =>
    rw [if_pos rfl, Text.after?_bind_before?_eq_some_iff.2 rfl]
  | false =>
    rw [if_neg Bool.false_ne_true]
    have hnone : Text.after? "SInt(0b".toList ("UInt(0b".toList ++ x.bitPattern ++ [')']) = none :=
      rfl
    rw [hnone, Text.after?_bind_before?_eq_some_iff.2 rfl]
    rfl

theorem bind_readInteger64?_decimal (x : Number F) :
    (Text.readInteger64? (x.decimal {})).bind ofInt? = some x := by
  rw [decimal, Text.readInteger64?_integer (MachineType.represents_signed64 x.natAbs_value_le),
    Option.bind_some]
  exact ofInt?_eq_some_iff.2 rfl

/-- **The digits of a number determine it.** In diagnostics the digits are the bits of the carrier,
with an underscore after the junk bits of a family that has any; the family and the number can be
read back, so that no text stands for two numbers of any families. The decimal form reads as an
integer that has this number. -/
theorem digits_determine_number :
    (∀ (F : Family) (x : Number F),
      x.inspect = (if F.signed then "SInt(0b".toList else "UInt(0b".toList) ++ x.bitPattern ++
        [')'] ∧
      x.bitPattern.filter (· != '_') = x.carrierDigits ∧
      (x.bitPattern = if F.width.bits = 32 then x.carrierDigits
        else x.carrierDigits.take (32 - F.width.bits) ++ '_' ::
          x.carrierDigits.drop (32 - F.width.bits)) ∧
      x.bitPattern = x.bitFields ∧
      readInspected? x.inspect = some ⟨F, x⟩ ∧
      (Text.readInteger64? (x.decimal {})).bind ofInt? = some x) ∧
    Function.Injective fun p : Σ F : Family, Number F => p.2.inspect := by
  constructor
  · intro F x
    exact ⟨x.inspect_eq, x.filter_bitPattern, x.bitPattern_eq, x.bitPattern_eq_bitFields,
      x.readInspected?_inspect, x.bind_readInteger64?_decimal⟩
  · rintro ⟨F, x⟩ ⟨G, y⟩ h
    have hx := x.readInspected?_inspect
    rw [show x.inspect = y.inspect from h, y.readInspected?_inspect] at hx
    exact (Option.some_inj.1 hx).symm

example : inspect (ofCarrier 0b101011 : Number ⟨{ bits := 6 }, true⟩) =
    "SInt(0b11111111111111111111111111_101011)".toList := by
  decide +kernel

end Number

end NarrowInt
