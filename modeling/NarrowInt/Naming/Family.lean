import NarrowInt.Family
import NarrowInt.Text.Affix
import NarrowInt.Text.Numeral

/-!
# Names of families

A family is named by a word for its signedness and its width in decimal, as in `SINT8`; its
datatype string wraps the name, as in `custom[SINT8]32`. The readers accept exactly the texts that
the printers produce, and say why they refuse the others.

## Main definitions

* `NameError`, `NameError.message`: why a name denotes no family, no symbol or no entry point
* `Family.name`, `Family.read`: the name of a family and its reader
* `Family.datatype`, `Family.readDatatype`: the datatype string and its reader
* `Family.record`, `Family.recordLines`: the form of a family in diagnostics
-/

namespace NarrowInt

/-- Why a name does not denote what it should. -/
inductive NameError
  /-- The text does not start as the name of a family, or is no datatype string. -/
  | unknownLead
  /-- No plain decimal width follows the start of a family name. -/
  | missingWidth
  /-- The width is not from 1 to 32, or has a superfluous zero. -/
  | invalidWidth (width : Nat)
  /-- The name of a family is followed by no known operation. -/
  | unknownOperation
  /-- The family has no entry points in the table at hand. -/
  | notExported
deriving DecidableEq

/-- The explanation of a naming error. -/
def NameError.message : NameError → String
  | .unknownLead => "expected a type name starting with SINT or UINT"
  | .missingWidth => "expected a decimal width after SINT or UINT"
  | .invalidWidth w => "width " ++ String.ofList (Text.decimal w) ++ " is outside 1..=32"
  | .unknownOperation => "unknown operation"
  | .notExported => "no entry points were built for this family"

namespace Family

/-- The word with which the names of signed, or of unsigned, families start. -/
def lead (signed : Bool) : List Char :=
  if signed then ['S', 'I', 'N', 'T'] else ['U', 'I', 'N', 'T']

/-- The name of a family: a word for its signedness, then its width. -/
def name (F : Family) : List Char := lead F.signed ++ Text.decimal F.width.bits

/-- The family of `n` bits, or an error that reports `n`. -/
def ofBits (n : Nat) (signed : Bool) : Except NameError Family :=
  match ofBits? n signed with
  | some F => .ok F
  | none => .error (.invalidWidth n)

/-- The family with the width of a numeral, which has no superfluous zero. A number that does not
fit 32 bits counts as the largest that does. -/
def readWidth (signed : Bool) (digits : List Char) : Except NameError Family :=
  match Text.readDigits? digits with
  | none => .error .missingWidth
  | some n =>
    if 1 < digits.length ∧ digits.head? = some '0' then
      .error (.invalidWidth (min n Text.maxWord))
    else ofBits (min n Text.maxWord) signed

/-- The family of a name. -/
def read (cs : List Char) : Except NameError Family :=
  match Text.after? ['S', 'I', 'N', 'T'] cs, Text.after? ['U', 'I', 'N', 'T'] cs with
  | some digits, _ => readWidth true digits
  | none, some digits => readWidth false digits
  | none, none => .error .unknownLead

/-- The datatype string: the name of the family and the width of the carrier. -/
def datatype (F : Family) : List Char :=
  ['c', 'u', 's', 't', 'o', 'm', '['] ++ F.name ++ [']', '3', '2']

/-- The family of a datatype string. -/
def readDatatype (cs : List Char) : Except NameError Family :=
  match (Text.after? ['c', 'u', 's', 't', 'o', 'm', '['] cs).bind
    (Text.before? [']', '3', '2']) with
  | some inner => read inner
  | none => .error .unknownLead

/-- The word for a truth value. -/
def flag (b : Bool) : List Char :=
  if b then ['t', 'r', 'u', 'e'] else ['f', 'a', 'l', 's', 'e']

/-- The form of a family in diagnostics, on one line; the layout applies to each field. -/
def record (layout : Text.Layout) (F : Family) : List Char :=
  "Key \x7b width: ".toList ++ layout.integer F.width.bits ++ ", signed: ".toList ++
    layout.word (flag F.signed) ++ " \x7d".toList

/-- The form of a family in diagnostics, one field a line; the layout applies to each field. -/
def recordLines (layout : Text.Layout) (F : Family) : List Char :=
  "Key \x7b\n    width: ".toList ++ layout.integer F.width.bits ++ ",\n    signed: ".toList ++
    layout.word (flag F.signed) ++ ",\n\x7d".toList

end Family

end NarrowInt
