import NarrowInt.Naming.Symbol
import NarrowInt.Number.Arithmetic
import NarrowInt.Number.Machine

/-!
# Routines

What stands behind an entry point: a function on raw cells. Carriers arrive with untrusted junk
bits, which every routine ignores, and leave in canonical form; floats travel as patterns of 32
bits.

## Main definitions

* `Cell`: a carrier or a float on its way in or out
* `Routine`: a function on cells, by its calling convention
* `Routine.of`: the routine of an operation of a family
* `Routine.call`: a routine applied to the arguments of its convention
-/

namespace NarrowInt

/-- A value on its way into or out of a routine. -/
inductive Cell
  | carrier (c : Carrier)
  | single (p : Single)
deriving DecidableEq

/-- The calling conventions. -/
inductive Convention
  | min
  | toFloat
  | fromFloat
  | binary
deriving DecidableEq

/-- The calling convention of an operation. -/
def Operation.convention : Operation → Convention
  | .min => .min
  | .toFloat => .toFloat
  | .fromFloat => .fromFloat
  | _ => .binary

/-- A function on cells, by its calling convention. -/
inductive Routine
  | min (result : Carrier)
  | toFloat (run : Carrier → Single)
  | fromFloat (run : Single → Carrier)
  | binary (run : Carrier → Carrier → Carrier)

namespace Routine

/-- The calling convention of a routine. -/
def convention : Routine → Convention
  | min _ => .min
  | toFloat _ => .toFloat
  | fromFloat _ => .fromFloat
  | binary _ => .binary

/-- An operation on two numbers, on carriers. -/
def onNumbers (F : Family) (f : Number F → Number F → Number F) : Routine :=
  binary fun a b => (f (.ofCarrier a) (.ofCarrier b)).carrier

/-- The routine of an operation of a family. -/
def of (F : Family) : Operation → Routine
  | .min => min (Number.least (F := F)).carrier
  | .toFloat => toFloat fun a => (Number.ofCarrier (F := F) a).toSingle
  | .fromFloat => fromFloat fun p => (Number.ofSingle (F := F) p).carrier
  | .max => onNumbers F Number.max
  | .add => onNumbers F (· + ·)
  | .sub => onNumbers F (· - ·)
  | .mul => onNumbers F (· * ·)
  | .div => onNumbers F (· / ·)

@[simp] theorem convention_of (F : Family) (op : Operation) :
    (of F op).convention = op.convention := by
  cases op <;> rfl

/-- A routine applied to arguments; none if they do not fit its calling convention. -/
def call : Routine → List Cell → Option Cell
  | min c, [] => some (.carrier c)
  | toFloat run, [.carrier a] => some (.single (run a))
  | fromFloat run, [.single p] => some (.carrier (run p))
  | binary run, [.carrier a, .carrier b] => some (.carrier (run a b))
  | _, _ => none

end Routine

end NarrowInt
