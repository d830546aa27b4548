import NarrowInt.Exports.Resolution

/-!
# Straight-line programs

A program is a list of calls of entry points, each found by name or by symbol. The arguments of a
call are given cells or results of earlier calls. A call of an entry point that does not exist is
answered by the reason; its result counts as the carrier 0, and the program goes on.

## Main definitions

* `Call`: what to call, with which arguments
* `Answer`: what became of a call
* `WidthSet.answer`, `WidthSet.run`: the answer to a call, and to the calls of a program
-/

namespace NarrowInt

/-- What to call: a name to resolve, or a symbol. -/
inductive Callee
  | name (cs : List Char)
  | symbol (s : Symbol)
deriving DecidableEq

/-- An argument: a given cell, or the result of the call at an index. -/
inductive Argument
  | cell (c : Cell)
  | result (index : Nat)
deriving DecidableEq

/-- A call with its arguments. -/
structure Call where
  callee : Callee
  arguments : List Argument
deriving DecidableEq

/-- What became of a call: a result, the reason why there is no entry point, or arguments that do
not fit its calling convention. -/
inductive Answer
  | value (c : Cell)
  | refused (e : NameError)
  | mismatched
deriving DecidableEq

/-- The result of a call for later calls; without one, the carrier 0. -/
def Answer.cell : Answer → Cell
  | value c => c
  | _ => .carrier 0

/-- The cell of an argument, given the results of the calls so far. -/
def Argument.cell? (results : List Cell) : Argument → Option Cell
  | cell c => some c
  | result i => results[i]?

namespace WidthSet

variable (W : WidthSet)

/-- The entry point to call. -/
def find : Callee → Except NameError EntryPoint
  | .name cs => W.lookup cs
  | .symbol s => W.entryPoint s

/-- The answer to a call, given the results of the calls so far. The arguments count only when the
entry point exists. -/
def answer (results : List Cell) (call : Call) : Answer :=
  match W.find call.callee with
  | .error e => .refused e
  | .ok e =>
    match (call.arguments.mapM (Argument.cell? results)).bind e.routine.call with
    | some c => .value c
    | none => .mismatched

/-- The answers to the calls of a program, given the results of the calls so far. -/
def runFrom (results : List Cell) : List Call → List Answer
  | [] => []
  | call :: calls =>
    let a := W.answer results call
    a :: runFrom (results ++ [a.cell]) calls

/-- The answers to the calls of a program. -/
def run (calls : List Call) : List Answer := W.runFrom [] calls

@[simp] theorem length_runFrom (results : List Cell) (calls : List Call) :
    (W.runFrom results calls).length = calls.length := by
  induction calls generalizing results with
  | nil => rfl
  | cons call calls ih => simp [runFrom, ih]

end WidthSet

end NarrowInt
