import NarrowInt.Exports.Routine
import NarrowInt.Exports.TypeCode

/-!
# The table of entry points

For each exported family in registration order the table has a row for each operation in order. An
entry point is found by position: eight rows for each family before its own, then the operation's
index.

## Main definitions

* `EntryPoint`: a symbol and its routine
* `WidthSet.table`: the rows of the table
* `WidthSet.entryPoint?`: the row of an operation of a family
* `WidthSet.entryPoint`: the row of a symbol, or the reason why there is none

## Main results

* `WidthSet.mem_symbols`: a symbol has a row exactly when its width is in the set
* `WidthSet.length_table`: each width has sixteen rows
-/

namespace NarrowInt

/-- A row of the table: a symbol and its routine. -/
structure EntryPoint where
  symbol : Symbol
  routine : Routine

/-- The entry point of a symbol. -/
def EntryPoint.of (s : Symbol) : EntryPoint := ⟨s, .of s.family s.operation⟩

namespace WidthSet

variable (W : WidthSet)

/-- The exported symbols: for each family in order, its operations in order. -/
def symbols : List Symbol := W.families.flatMap fun F => Operation.all.map (⟨F, ·⟩)

/-- The rows of the table, one for each exported symbol. -/
def table : List EntryPoint := W.symbols.map .of

@[simp] theorem mem_symbols {s : Symbol} : s ∈ W.symbols ↔ s.family.width ∈ W := by
  obtain ⟨F, op⟩ := s
  simp [symbols]

/-- Each width has sixteen symbols. -/
@[simp] theorem length_symbols : W.symbols.length = 16 * W.size := by
  rw [symbols, length_flatMap_of_length_eq (n := 8) fun F => rfl, length_families]
  omega

@[simp] theorem length_table : W.table.length = 16 * W.size := by
  simp [table]

/-- The row of an operation of a family, when the family is exported. -/
def entryPoint? (F : Family) (op : Operation) : Option EntryPoint :=
  (W.families.idxOf? F).bind fun i => W.table[i * Operation.all.length + op.index]?

/-- The row of a symbol, when its family is exported. -/
def entryPoint (s : Symbol) : Except NameError EntryPoint :=
  match W.entryPoint? s.family s.operation with
  | some e => .ok e
  | none => .error .notExported

end WidthSet

end NarrowInt
