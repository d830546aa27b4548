import NarrowInt.Exports.TypeCode
import NarrowInt.Text.Affix
import NarrowInt.Text.Quoted

/-!
# Width lists

Which widths to export is written as a list of widths and inclusive ranges, separated by commas, as
in `2-10,12,14`. Blanks around the pieces and around the ends of a range do not matter, and empty
pieces are skipped, but something must be selected.

## Main definitions

* `Span`: an inclusive range of widths
* `SelectionError`: why a list is refused, and the explanation
* `WidthSet.read`: the set of widths of a list
-/

namespace NarrowInt

/-- An inclusive range of widths; a single width is a range of one. -/
structure Span where
  lower : Width
  upper : Width
  lower_le_upper : lower.bits ≤ upper.bits

/-- The width lies in the range. -/
def Span.contains (s : Span) (w : Width) : Bool :=
  decide (s.lower.bits ≤ w.bits) && decide (w.bits ≤ s.upper.bits)

/-- Why a list of widths is refused. -/
inductive SelectionError
  /-- A piece is no numeral. -/
  | notAWidth (piece : List Char)
  /-- A numeral is not from 1 to 32. -/
  | outsideRange (n : Nat)
  /-- The ends of a range are in the wrong order. -/
  | emptyRange (piece : List Char)
  /-- The list has no piece. -/
  | nothingSelected
deriving DecidableEq

/-- The explanation of a refusal. -/
def SelectionError.message : SelectionError → List Char
  | .notAWidth piece => Text.quote piece ++ " is not a width".toList
  | .outsideRange n => "width ".toList ++ Text.decimal n ++ " is outside 1..=32".toList
  | .emptyRange piece => "empty range ".toList ++ Text.quote piece
  | .nothingSelected => "no widths selected".toList

/-- The number of a numeral: decimal digits, after at most one plus sign, for a number that fits 32
bits. -/
def readNumeral? (cs : List Char) : Option Nat :=
  (Text.readDigits? ((Text.after? ['+'] cs).getD cs)).filter fun n => decide (n ≤ Text.maxWord)

/-- The width of a piece, blanks around it ignored. -/
def Width.read (piece : List Char) : Except SelectionError Width :=
  match readNumeral? (Text.trim piece) with
  | none => .error (.notAWidth piece)
  | some n =>
    match ofNat? n with
    | some w => .ok w
    | none => .error (.outsideRange n)

/-- The range of a piece: a width, or two widths around the first dash. -/
def Span.read (piece : List Char) : Except SelectionError Span :=
  match Text.cut? '-' piece with
  | none => do
    let w ← Width.read piece
    return ⟨w, w, Nat.le_refl _⟩
  | some (lower, upper) => do
    let v ← Width.read lower
    let w ← Width.read upper
    if h : v.bits ≤ w.bits then return ⟨v, w, h⟩ else throw (.emptyRange piece)

/-- The pieces of a list that are not blank, without the blanks around them. -/
def listPieces (cs : List Char) : List (List Char) :=
  ((cs.splitOn ',').map Text.trim).filter fun piece => !piece.isEmpty

/-- The widths of some ranges. -/
def WidthSet.ofSpans (spans : List Span) : WidthSet :=
  .ofPredicate fun w => spans.any (·.contains w)

/-- The set of widths of a list; the leftmost piece at fault decides the error. -/
def WidthSet.read (cs : List Char) : Except SelectionError WidthSet := do
  let spans ← (listPieces cs).mapM Span.read
  if spans.isEmpty then throw .nothingSelected
  return .ofSpans spans

end NarrowInt
