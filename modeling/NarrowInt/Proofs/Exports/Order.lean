import Mathlib
import NarrowInt.Proofs.Exports.Table

/-!
# The order of the table

Families and symbols are ordered like numbers in mixed radix: the width, then the signedness, then
the operation. This number is the rank of a symbol. The table lists the exported symbols by strictly
ascending rank, so that each has one row only, and the row computed for a symbol is that row. Names
resolve to rows in the same way, one name to each row.

## Main definitions

* `Family.rank`, `Symbol.rank`: the place in the order of all families, and of all symbols
* `WidthSet.position?`: the row of a symbol, counted from 0
* `WidthSet.exportedNames`: the names of the exported symbols

## Main results

* `Family.compare_eq`, `Symbol.compare_eq`: the orders are those of the ranks
* `WidthSet.pairwise_symbols`: the table ascends
* `WidthSet.getElem?_position?`: the computed row of a symbol is its own
* `WidthSet.resolve_eq_some_iff`: the names that resolve
* `WidthSet.rows_found_in_order`: symbols, names and rows correspond, in order
-/

namespace NarrowInt

/-! ## Ranks -/

/-- Numbers of two digits are compared digit by digit. -/
theorem compare_then_compare {k a b c d : Nat} (hb : b < k) (hd : d < k) :
    (compare a c).then (compare b d) = compare (k * a + b) (k * c + d) := by
  -- a difference in the first digit outweighs every second digit
  have hlt : ∀ {a b c d : Nat}, b < k → a < c → k * a + b < k * c + d := by
    intro a b c d hb h
    have := Nat.mul_le_mul_left k (show a + 1 ≤ c from h)
    rw [Nat.mul_succ] at this
    omega
  rcases Nat.lt_trichotomy a c with h | rfl | h
  · rw [Nat.compare_eq_lt.2 h, Nat.compare_eq_lt.2 (hlt hb h)]
    rfl
  · rw [Nat.compare_eq_eq.2 rfl, Nat.compare_eq_ite_lt, Nat.compare_eq_ite_lt]
    simp only [Nat.add_lt_add_iff_left]
    rfl
  · rw [Nat.compare_eq_gt.2 h, Nat.compare_eq_gt.2 (hlt hd h)]
    rfl

/-- The place of a family in the order of all families. -/
def Family.rank (F : Family) : Nat := 2 * F.width.bits + if F.signed then 0 else 1

/-- The place of a symbol in the order of all symbols. -/
def Symbol.rank (s : Symbol) : Nat := 8 * s.family.rank + s.operation.index

theorem Family.compare_eq (F G : Family) : compare F G = compare F.rank G.rank := by
  have hflag : ∀ s t : Bool,
      compare (!s) (!t) = compare (if s then 0 else 1) (if t then 0 else 1) := by
    decide
  have hlt : ∀ s : Bool, (if s then 0 else 1) < 2 := by
    decide
  change (compare F.width.bits G.width.bits).then (compare (!F.signed) (!G.signed)) = _
  rw [hflag]
  exact compare_then_compare (hlt F.signed) (hlt G.signed)

theorem Symbol.compare_eq (s t : Symbol) : compare s t = compare s.rank t.rank := by
  change (compare s.family t.family).then (compare s.operation.index t.operation.index) = _
  rw [Family.compare_eq]
  exact compare_then_compare s.operation.index_lt t.operation.index_lt

/-- The ranks in an ascending list are compared like their indices. -/
theorem compare_rank_getElem {α : Type} {rank : α → Nat} {xs : List α}
    (h : xs.Pairwise fun a b => rank a < rank b) {i j : Nat} (hi : i < xs.length)
    (hj : j < xs.length) : compare (rank xs[i]) (rank xs[j]) = compare i j := by
  have hget := List.pairwise_iff_getElem.1 h
  rcases Nat.lt_trichotomy i j with hij | rfl | hij
  · rw [Nat.compare_eq_lt.2 hij, Nat.compare_eq_lt.2 (hget i j hi hj hij)]
  · rw [Nat.compare_eq_eq.2 rfl, Nat.compare_eq_eq.2 rfl]
  · rw [Nat.compare_eq_gt.2 hij, Nat.compare_eq_gt.2 (hget j i hj hi hij)]

namespace WidthSet

variable (W : WidthSet)

/-! ## The table ascends -/

theorem pairwise_families : W.families.Pairwise fun F G => F.rank < G.rank := by
  refine List.pairwise_flatMap.2 ⟨fun w _ => ?_, W.ascending.imp fun {v w} hvw F hF G hG => ?_⟩
  · simp [Family.ofWidth, Family.rank]
  · rw [Family.mem_ofWidth] at hF hG
    subst hF hG
    unfold Family.rank
    split <;> split <;> omega

/-- The exported symbols are listed by strictly ascending rank. -/
theorem pairwise_symbols : W.symbols.Pairwise fun s t => s.rank < t.rank := by
  refine List.pairwise_flatMap.2
    ⟨fun F _ => ?_, W.pairwise_families.imp fun {F G} hFG s hs t ht => ?_⟩
  · -- within a family the operations are listed by their indices
    have hops : Operation.all.Pairwise fun a b => a.index < b.index := by decide
    refine List.pairwise_map.2 (hops.imp fun {a b} hab => ?_)
    show 8 * F.rank + a.index < 8 * F.rank + b.index
    omega
  · obtain ⟨a, -, rfl⟩ := List.mem_map.1 hs
    obtain ⟨b, -, rfl⟩ := List.mem_map.1 ht
    have := a.index_lt
    show 8 * F.rank + a.index < 8 * G.rank + b.index
    omega

theorem nodup_symbols : W.symbols.Nodup :=
  W.pairwise_symbols.imp fun {s t} h => by
    rintro rfl
    exact Nat.lt_irrefl _ h

/-! ## Rows of symbols -/

/-- The row of a symbol, counted from 0: each family before its own takes up a row for every
operation. -/
def position? (s : Symbol) : Option Nat :=
  (W.families.idxOf? s.family).map (· * Operation.all.length + s.operation.index)

theorem entryPoint?_eq_bind (F : Family) (op : Operation) :
    W.entryPoint? F op = (W.position? ⟨F, op⟩).bind (W.table[·]?) := by
  unfold entryPoint? position?
  rw [Option.bind_map]
  rfl

theorem getElem?_position? {s : Symbol} {i : Nat} (h : W.position? s = some i) :
    W.symbols[i]? = some s := by
  obtain ⟨k, hk, rfl⟩ := Option.map_eq_some_iff.1 h
  obtain ⟨hlt, hget, -⟩ := List.idxOf?_eq_some_iff.1 hk
  rw [W.getElem?_symbols, List.getElem?_eq_getElem hlt, hget]
  rfl

/-- Every exported symbol has a row, and no other has one. -/
theorem exists_position?_iff {s : Symbol} : (∃ i, W.position? s = some i) ↔ s.family.width ∈ W := by
  constructor
  · rintro ⟨i, h⟩
    exact W.mem_symbols.1 (List.mem_of_getElem? (W.getElem?_position? h))
  · intro h
    unfold position?
    cases hk : W.families.idxOf? s.family with
    | none => exact absurd (mem_families.2 h) (List.idxOf?_eq_none_iff.1 hk)
    | some k => exact ⟨_, rfl⟩

theorem getElem?_table (i : Nat) : W.table[i]? = W.symbols[i]?.map .of :=
  List.getElem?_map

/-- Symbols are compared like their rows. -/
theorem compare_position? {s t : Symbol} {i j : Nat} (hs : W.position? s = some i)
    (ht : W.position? t = some j) : compare s t = compare i j := by
  obtain ⟨hi, rfl⟩ := List.getElem?_eq_some_iff.1 (W.getElem?_position? hs)
  obtain ⟨hj, rfl⟩ := List.getElem?_eq_some_iff.1 (W.getElem?_position? ht)
  rw [Symbol.compare_eq]
  exact compare_rank_getElem W.pairwise_symbols hi hj

/-! ## Rows of names -/

/-- The names of the exported symbols. -/
def exportedNames : Set (List Char) := {cs | ∃ s : Symbol, cs = s.name ∧ s.family.width ∈ W}

/-- A text resolves exactly when it names an exported symbol, to the entry point of the symbol. -/
theorem resolve_eq_some_iff {cs : List Char} {e : EntryPoint} :
    (W.resolve cs).entry = some e ↔ ∃ s : Symbol, cs = s.name ∧ s.family.width ∈ W ∧ e = .of s := by
  rw [← W.lookup_eq_ok_iff]
  unfold resolve
  cases W.lookup cs <;> simp

theorem resolve_name {s : Symbol} {i : Nat} (h : W.symbols[i]? = some s) :
    (W.resolve s.name).entry = W.table[i]? := by
  rw [W.getElem?_table, h]
  exact W.resolve_eq_some_iff.2 ⟨s, rfl, W.mem_symbols.1 (List.mem_of_getElem? h), rfl⟩

/-- The exported names correspond to the rows of the table, each to the row that it resolves to. -/
theorem exists_equiv_rows :
    ∃ row : W.exportedNames ≃ Fin (16 * W.size),
      ∀ cs, (W.resolve cs.1).entry = W.table[(row cs).1]? := by
  -- the name of the symbol in each row
  let nameAt (i : Fin (16 * W.size)) : W.exportedNames :=
    ⟨(W.symbols.get ⟨i.1, by simp⟩).name, _, rfl, W.mem_symbols.1 (List.get_mem _ _)⟩
  have hbij : Function.Bijective nameAt := by
    constructor
    · intro i j h
      have hname := Symbol.name_injective (congrArg Subtype.val h)
      exact Fin.ext (W.nodup_symbols.getElem_inj_iff.1 hname)
    · rintro ⟨_, s, rfl, hw⟩
      obtain ⟨i, hi, hs⟩ := List.mem_iff_getElem.1 (W.mem_symbols.2 hw)
      refine ⟨⟨i, by simpa using hi⟩, Subtype.ext ?_⟩
      exact congrArg Symbol.name hs
  refine ⟨(Equiv.ofBijective nameAt hbij).symm, fun cs => ?_⟩
  obtain ⟨i, rfl⟩ := hbij.surjective cs
  rw [Equiv.ofBijective_symm_apply_apply]
  exact W.resolve_name (List.getElem?_eq_getElem (by simp))

/-- **Symbols, names and rows correspond, in order.** An operation of a family has an entry point
exactly when the width of the family is in the set, and the entry point is its own: it stands in the
computed row, which is within the table. A text resolves exactly when it names such a symbol, and
the names that resolve correspond to the rows one to one. The rows ascend, so that exported symbols
are compared like their rows. -/
theorem rows_found_in_order (W : WidthSet) :
    (∀ (F : Family) (op : Operation) (e : EntryPoint),
      W.entryPoint? F op = some e ↔ F.width ∈ W ∧ e = .of ⟨F, op⟩) ∧
    (∀ s : Symbol, s.family.width ∈ W ↔ ∃ i, W.position? s = some i) ∧
    (∀ (s : Symbol) (i : Nat), W.position? s = some i →
      i < 16 * W.size ∧ W.entryPoint? s.family s.operation = W.table[i]? ∧
        W.table[i]? = some (.of s)) ∧
    (∀ (cs : List Char) (e : EntryPoint), (W.resolve cs).entry = some e ↔
      ∃ s : Symbol, cs = s.name ∧ s.family.width ∈ W ∧ e = .of s) ∧
    W.table.length = 16 * W.size ∧
    (∃ row : W.exportedNames ≃ Fin (16 * W.size),
      ∀ cs, (W.resolve cs.1).entry = W.table[(row cs).1]?) ∧
    (W.table.Pairwise fun a b => compare a.symbol b.symbol = .lt) ∧
    ∀ (s t : Symbol) (i j : Nat), W.position? s = some i → W.position? t = some j →
      compare s t = compare i j := by
  refine ⟨fun F op e => ?_, fun s => W.exists_position?_iff.symm, fun s i h => ?_,
    fun cs e => W.resolve_eq_some_iff, W.length_table, W.exists_equiv_rows, ?_,
    fun s t i j hs ht => W.compare_position? hs ht⟩
  · rw [entryPoint?_eq, Option.ite_none_right_eq_some, Option.some_inj]
    exact and_congr_right fun _ => eq_comm
  · have hget := W.getElem?_position? h
    have hlt := (List.getElem?_eq_some_iff.1 hget).1
    rw [length_symbols] at hlt
    refine ⟨hlt, ?_, ?_⟩
    · rw [entryPoint?_eq_bind, h]
      rfl
    · rw [getElem?_table, hget]
      rfl
  · refine List.pairwise_map.2 (W.pairwise_symbols.imp fun {s t} h => ?_)
    show compare s t = .lt
    rw [Symbol.compare_eq]
    exact Nat.compare_eq_lt.2 h

/-- With only the widths 3 and 8 exported, the sum of eight bits without a sign has row 28. -/
theorem rows_found_in_order_two_widths :
    let W := ofPredicate fun w => w.bits = 3 || w.bits = 8
    let s : Symbol := ⟨⟨{ bits := 8 }, false⟩, .add⟩
    let t : Symbol := ⟨⟨{ bits := 8 }, true⟩, .div⟩
    (W.position? s = some 28 ∧ W.position? t = some 23) ∧
      W.table[28]? = some (.of s) ∧ compare s t = compare 28 23 := by
  intro W s t
  have hs : W.position? s = some 28 := by decide
  have ht : W.position? t = some 23 := by decide
  obtain ⟨-, -, hrow, -, -, -, -, hcompare⟩ := rows_found_in_order W
  exact ⟨⟨hs, ht⟩, (hrow s 28 hs).2.2, hcompare s t 28 23 hs ht⟩

end WidthSet

end NarrowInt
