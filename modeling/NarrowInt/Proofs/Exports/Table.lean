import Mathlib
import NarrowInt.Exports.Resolution
import NarrowInt.Proofs.Naming

/-!
# Finding entry points

Every family takes up eight rows of the table, so the position that is computed from the index of a
family and the index of an operation is that of the row of the symbol. Hence a symbol finds its own
row exactly when its width is in the set, and a text finds the row of the symbol that it names.

## Main results

* `WidthSet.getElem?_symbols`: the symbol at a computed position
* `WidthSet.entryPoint?_eq`, `WidthSet.entryPoint_eq`: the row of an operation of a family
* `WidthSet.lookup_eq_ok_iff`: the texts that find a row
-/

namespace NarrowInt.WidthSet

/-- Each family takes up eight positions. -/
theorem getElem?_flatMap_symbol (families : List Family) (i : Nat) (op : Operation) :
    (families.flatMap fun F => Operation.all.map (Symbol.mk F))[i * 8 + op.index]? =
      families[i]?.map (Symbol.mk · op) := by
  have hop := op.index_lt
  induction families generalizing i with
  | nil => rfl
  | cons F families ih =>
    have hlen : (Operation.all.map (Symbol.mk F)).length = 8 := rfl
    rw [List.flatMap_cons]
    cases i with
    | zero =>
      -- the eight positions of the first family
      rw [List.getElem?_append_left (by omega), Nat.zero_mul, Nat.zero_add, List.getElem?_map,
        op.all_index]
      rfl
    | succ i =>
      rw [List.getElem?_append_right (by omega), List.getElem?_cons_succ, ← ih i, hlen]
      congr 1
      omega

variable (W : WidthSet)

theorem getElem?_symbols (i : Nat) (op : Operation) :
    W.symbols[i * Operation.all.length + op.index]? = W.families[i]?.map (Symbol.mk · op) :=
  getElem?_flatMap_symbol W.families i op

theorem entryPoint?_eq (F : Family) (op : Operation) :
    W.entryPoint? F op = if F.width ∈ W then some (.of ⟨F, op⟩) else none := by
  unfold entryPoint?
  cases h : W.families.idxOf? F with
  | none =>
    have hF : F ∉ W.families := List.idxOf?_eq_none_iff.1 h
    rw [mem_families] at hF
    rw [if_neg hF]
    rfl
  | some i =>
    obtain ⟨hlt, hi, -⟩ := List.idxOf?_eq_some_iff.1 h
    have hget : W.families[i]? = some F := by
      rw [List.getElem?_eq_getElem hlt, hi]
    have hF : F.width ∈ W := mem_families.1 (List.mem_of_getElem? hget)
    rw [if_pos hF, Option.bind_some, table, List.getElem?_map, getElem?_symbols, hget]
    rfl

theorem entryPoint_eq (s : Symbol) :
    W.entryPoint s = if s.family.width ∈ W then .ok (.of s) else .error .notExported := by
  unfold entryPoint
  rw [entryPoint?_eq]
  by_cases h : s.family.width ∈ W
  · rw [if_pos h, if_pos h]
  · rw [if_neg h, if_neg h]

/-- A text finds the row of the symbol that it names, if the width of the symbol is in the set. -/
theorem lookup_eq_ok_iff {cs : List Char} {e : EntryPoint} :
    W.lookup cs = .ok e ↔ ∃ s : Symbol, cs = s.name ∧ s.family.width ∈ W ∧ e = .of s := by
  unfold lookup
  constructor
  · intro h
    -- the name is read first, then its family is looked for in the table
    cases hread : Symbol.read cs with
    | error err =>
      rw [hread] at h
      cases h
    | ok s =>
      rw [hread] at h
      change W.entryPoint s = .ok e at h
      rw [entryPoint_eq] at h
      split at h
      · next hw =>
        cases h
        exact ⟨s, Symbol.read_eq_ok_iff.1 hread, hw, rfl⟩
      · cases h
  · rintro ⟨s, hcs, hw, rfl⟩
    rw [Symbol.read_eq_ok_iff.2 hcs]
    change W.entryPoint s = _
    rw [entryPoint_eq, if_pos hw]

end NarrowInt.WidthSet
