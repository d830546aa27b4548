import NarrowInt.Number.Arithmetic
import NarrowInt.Number.Machine

/-!
# A calculator

A calculator works in one family, with an accumulator and a memory. Each instruction changes the
accumulator or the memory, and some leave a remark.

## Main definitions

* `Calculator F`: the accumulator and the memory
* `Calculator.Instruction`: what a calculator can be told
* `Calculator.step`: the effect of an instruction, with its remark
* `Calculator.run`: the states after each of a list of instructions
-/

namespace NarrowInt

/-- The state of a calculator of the family `F`: its accumulator and its memory. -/
structure Calculator (F : Family) where
  accumulator : Number F := .zero
  memory : Number F := .zero
deriving DecidableEq

namespace Calculator

/-- Where the operand of an instruction comes from. -/
inductive Operand
  | carrier (c : Carrier)
  | accumulator
  | memory
  | least
  | greatest
  | one
  | zero
deriving DecidableEq

/-- What a calculator can be told. `subFrom` and `divInto` take the operand on the left; `viaSingle`
and `viaDouble` convert the accumulator to a float and back; `scale` multiplies it by a float;
`shift` replaces it by its value plus an integer, if that is a value of the family. -/
inductive Instruction
  | load (x : Operand)
  | save
  | add (x : Operand)
  | sub (x : Operand)
  | subFrom (x : Operand)
  | mul (x : Operand)
  | div (x : Operand)
  | divInto (x : Operand)
  | checkedDiv (x : Operand)
  | max (x : Operand)
  | min (x : Operand)
  | neg
  | compare (x : Operand)
  | viaSingle
  | viaDouble
  | scale (k : Single)
  | shift (d : Int)
  | print
deriving DecidableEq

/-- What an instruction has to say besides its effect. -/
inductive Remark
  | silent
  | refused
  | ordering (o : Ordering)
  | single (p : Single)
  | double (p : Double)
  | written (decimal inspected : List Char)
deriving DecidableEq

variable {F : Family}

/-- The number of an operand. -/
def operand (s : Calculator F) : Operand → Number F
  | .carrier c => .ofCarrier c
  | .accumulator => s.accumulator
  | .memory => s.memory
  | .least => .least
  | .greatest => .greatest
  | .one => .one
  | .zero => .zero

/-- The state with another accumulator. -/
def withAccumulator (s : Calculator F) (x : Number F) : Calculator F := ⟨x, s.memory⟩

/-- The state with another accumulator, without a remark. -/
def yield (s : Calculator F) (x : Number F) : Calculator F × Remark :=
  (s.withAccumulator x, .silent)

/-- The state with another accumulator if there is one, and otherwise a refusal. -/
def yield? (s : Calculator F) : Option (Number F) → Calculator F × Remark
  | some x => s.yield x
  | none => (s, .refused)

/-- The sum of two 64-bit integers, wrapped to 64 bits. -/
def wideSum (v d : Int) : Int := (BitVec.ofInt 64 (v + d)).toInt

/-- The effect of an instruction, with its remark. -/
def step (s : Calculator F) : Instruction → Calculator F × Remark
  | .load x => s.yield (s.operand x)
  | .save => (⟨s.accumulator, s.accumulator⟩, .silent)
  | .add x => s.yield (s.accumulator + s.operand x)
  | .sub x => s.yield (s.accumulator - s.operand x)
  | .subFrom x => s.yield (s.operand x - s.accumulator)
  | .mul x => s.yield (s.accumulator * s.operand x)
  | .div x => s.yield (s.accumulator / s.operand x)
  | .divInto x => s.yield (s.operand x / s.accumulator)
  | .checkedDiv x => s.yield? (s.accumulator.div? (s.operand x))
  | .max x => s.yield (s.accumulator.max (s.operand x))
  | .min x => s.yield (s.accumulator.min (s.operand x))
  | .neg => s.yield (-s.accumulator)
  | .compare x => (s, .ordering (Ord.compare s.accumulator (s.operand x)))
  | .viaSingle =>
    let p := s.accumulator.toSingle
    (s.withAccumulator (.ofSingle p), .single p)
  | .viaDouble =>
    let p := s.accumulator.toDouble
    (s.withAccumulator (.ofDouble p), .double p)
  | .scale k =>
    let p := s.accumulator.scaled k
    (s.withAccumulator (.ofDouble p), .double p)
  | .shift d => s.yield? (Number.ofInt? (wideSum s.accumulator.value d))
  | .print => (s, .written (s.accumulator.decimal {}) s.accumulator.inspect)

/-- The states after each of the instructions, with their remarks. -/
def run (s : Calculator F) : List Instruction → List (Calculator F × Remark)
  | [] => []
  | i :: is => s.step i :: (s.step i).1.run is

end Calculator

end NarrowInt
