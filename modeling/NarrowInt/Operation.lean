/-!
# Operations

The eight operations that every family offers to its callers, in the order in which they are listed
everywhere.

## Main definitions

* `Operation`: the eight operations
* `Operation.all`: the operations in order
* `Operation.index`: the place of an operation in that order
* `Operation.label`: the word for an operation in names and records

## Main results

* `Operation.all_index`: an operation stands at its index
-/

namespace NarrowInt

/-- What a family offers to its callers: its least value, the conversions to and from floats, the
maximum of two values, and wrapping arithmetic. -/
inductive Operation
  | min
  | toFloat
  | fromFloat
  | max
  | add
  | sub
  | mul
  | div
deriving DecidableEq

namespace Operation

/-- The operations in order. -/
def all : List Operation := [min, toFloat, fromFloat, max, add, sub, mul, div]

/-- The place of an operation in the order. -/
def index : Operation → Nat
  | min => 0
  | toFloat => 1
  | fromFloat => 2
  | max => 3
  | add => 4
  | sub => 5
  | mul => 6
  | div => 7

instance : Ord Operation := ⟨fun a b => compare a.index b.index⟩

/-- The word for an operation in names and records. -/
def label : Operation → List Char
  | min => ['M', 'i', 'n']
  | toFloat => ['T', 'o', 'F', 'l', 'o', 'a', 't']
  | fromFloat => ['F', 'r', 'o', 'm', 'F', 'l', 'o', 'a', 't']
  | max => ['M', 'a', 'x']
  | add => ['A', 'd', 'd']
  | sub => ['S', 'u', 'b']
  | mul => ['M', 'u', 'l']
  | div => ['D', 'i', 'v']

@[simp] theorem mem_all (op : Operation) : op ∈ all := by
  cases op <;> decide

@[simp] theorem length_all : all.length = 8 := rfl

/-- An operation stands at its index. -/
theorem all_index (op : Operation) : all[op.index]? = some op := by
  cases op <;> rfl

theorem index_lt (op : Operation) : op.index < 8 := by
  cases op <;> decide

/-- The operation with the given label. -/
def ofLabel? (cs : List Char) : Option Operation := all.find? fun op => op.label == cs

@[simp] theorem ofLabel?_label (op : Operation) : ofLabel? op.label = some op := by
  cases op <;> decide

end Operation

end NarrowInt
