import NarrowInt.Naming.Family
import NarrowInt.Operation

/-!
# Names of symbols

A symbol is an operation of a family. Its name joins the name of the family and a word for the
operation: the least value and the conversion from floats put the word first, as in `MinSINT8` and
`FloatToSINT8`, the others last, as in `SINT8Add`. The reader accepts exactly these names.

## Main definitions

* `Symbol`: an operation of a family
* `Symbol.name`, `Symbol.read`: the name of a symbol and its reader
* `Symbol.record`: the form of a symbol in diagnostics
-/

namespace NarrowInt

/-- An operation of a family. -/
structure Symbol where
  family : Family
  operation : Operation
deriving DecidableEq

namespace Symbol

/-- By family, then by operation. -/
instance : Ord Symbol where
  compare a b := (compare a.family b.family).then (compare a.operation b.operation)

/-- The word before the name of the family, for the operations that have one there. -/
def opening : Operation → Option (List Char)
  | .min => some ['M', 'i', 'n']
  | .fromFloat => some ['F', 'l', 'o', 'a', 't', 'T', 'o']
  | _ => none

/-- The name of a symbol. -/
def name (s : Symbol) : List Char :=
  match opening s.operation with
  | some word => word ++ s.family.name
  | none => s.family.name ++ s.operation.label

/-- The first of the operations whose word ends the text, and what stands before that word. -/
def splitEnding (cs : List Char) : List Operation → Option (List Char × Operation)
  | [] => none
  | op :: ops =>
    if (opening op).isSome then splitEnding cs ops
    else
      match Text.before? op.label cs with
      | some rest => some (rest, op)
      | none => splitEnding cs ops

/-- The symbol of a name, the endings tried in the given order. A word at the start decides alone;
a text without any known word is a family name with an unknown operation, or no name at all. -/
def readTrying (ops : List Operation) (cs : List Char) : Except NameError Symbol :=
  match Text.after? ['M', 'i', 'n'] cs, Text.after? ['F', 'l', 'o', 'a', 't', 'T', 'o'] cs with
  | some rest, _ => (Family.read rest).map (⟨·, .min⟩)
  | none, some rest => (Family.read rest).map (⟨·, .fromFloat⟩)
  | none, none =>
    match splitEnding cs ops with
    | some (rest, op) => (Family.read rest).map (⟨·, op⟩)
    | none =>
      match Family.read cs with
      | .error .unknownLead => .error .unknownLead
      | _ => .error .unknownOperation

/-- The symbol of a name. -/
def read (cs : List Char) : Except NameError Symbol := readTrying Operation.all cs

/-- The form of a symbol in diagnostics. -/
def record (s : Symbol) : List Char :=
  "Symbol \x7b key: ".toList ++ s.family.record {} ++ ", op: ".toList ++ s.operation.label ++
    " \x7d".toList

end Symbol

end NarrowInt
