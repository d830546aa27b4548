import Mathlib
import NarrowInt.Exports.TypeCode
import NarrowInt.Proofs.Exports.Order

/-!
# The numbering of the exported families

A type code counts the exported families from the first code in use. Each width of the set takes up
two codes, so the code of a family is told by the number of widths below its own and by its
signedness. The codes in use have no gap; each belongs to one family only, and families are ordered
like their codes.

## Main definitions

* `WidthSet.countBelow`: the number of widths of the set below a width

## Main results

* `WidthSet.getElem?_families_countBelow`: the place of an exported family
* `WidthSet.typeCode?_eq_some_iff`, `WidthSet.ofTypeCode?_eq_some_iff`: codes are places, counted
  from the first code
* `WidthSet.families_numbered_in_order`: codes and exported families correspond, in order
-/

namespace NarrowInt

/-- In a list without repetition every element is found at its own place. -/
theorem idxOf?_eq_some_iff_of_nodup {α : Type} [DecidableEq α] {xs : List α} (h : xs.Nodup) {x : α}
    {i : Nat} : xs.idxOf? x = some i ↔ xs[i]? = some x := by
  rw [List.idxOf?_eq_some_iff, List.getElem?_eq_some_iff]
  constructor
  · rintro ⟨hi, hx, -⟩
    exact ⟨hi, hx⟩
  · rintro ⟨hi, rfl⟩
    refine ⟨hi, rfl, fun j hj hjx => ?_⟩
    -- an earlier place would hold the same element
    exact Nat.ne_of_lt hj (h.getElem_inj_iff.1 hjx)

/-- In an ascending list a width stands after as many others as there are below it. -/
theorem Width.getElem?_countP_lt {ws : List Width} (h : ws.Pairwise fun v w => v.bits < w.bits)
    {w : Width} (hw : w ∈ ws) : ws[ws.countP fun v => v.bits < w.bits]? = some w := by
  induction ws with
  | nil => cases hw
  | cons v ws ih =>
    obtain ⟨hv, hws⟩ := List.pairwise_cons.1 h
    rcases List.mem_cons.1 hw with rfl | hw
    · -- nothing is below the first width
      have hzero : (w :: ws).countP (fun v => v.bits < w.bits) = 0 := by
        rw [List.countP_eq_zero]
        intro v hmem
        rcases List.mem_cons.1 hmem with rfl | hmem
        · simp
        · simpa using (hv v hmem).le
      rw [hzero]
      rfl
    · rw [List.countP_cons_of_pos (by simpa using hv w hw), List.getElem?_cons_succ]
      exact ih hws hw

namespace WidthSet

variable (W : WidthSet)

/-- The number of widths of the set below `w`. -/
def countBelow (w : Width) : Nat := W.members.countP fun v => v.bits < w.bits

/-! ## Places of families -/

theorem nodup_families : W.families.Nodup :=
  W.pairwise_families.imp fun {F G} h => by
    rintro rfl
    exact Nat.lt_irrefl _ h

/-- Each width takes up two places, the signed family the first. -/
theorem getElem?_flatMap_ofWidth (ws : List Width) (i : Nat) (s : Bool) :
    (ws.flatMap Family.ofWidth)[2 * i + if s then 0 else 1]? = ws[i]?.map (Family.mk · s) := by
  induction ws generalizing i with
  | nil => rfl
  | cons w ws ih =>
    rw [List.flatMap_cons]
    cases i with
    | zero => cases s <;> rfl
    | succ i =>
      -- the two families of the first width come before
      have hi : 2 * (i + 1) + (if s then 0 else 1) =
          (Family.ofWidth w).length + (2 * i + if s then 0 else 1) := by
        change _ = 2 + _
        omega
      rw [hi, List.getElem?_append_right (Nat.le_add_right _ _), Nat.add_sub_cancel_left, ih i,
        List.getElem?_cons_succ]

theorem getElem?_families_countBelow {F : Family} (h : F.width ∈ W) :
    W.families[2 * W.countBelow F.width + if F.signed then 0 else 1]? = some F := by
  rw [families, getElem?_flatMap_ofWidth, countBelow, Width.getElem?_countP_lt W.ascending h]
  rfl

/-- An exported family has one place. -/
theorem getElem?_families_eq_some_iff {F : Family} {i : Nat} :
    W.families[i]? = some F ↔
      F.width ∈ W ∧ i = 2 * W.countBelow F.width + if F.signed then 0 else 1 := by
  constructor
  · intro h
    have hF : F.width ∈ W := mem_families.1 (List.mem_of_getElem? h)
    have hi : i < W.families.length := (List.getElem?_eq_some_iff.1 h).1
    refine ⟨hF, (List.getElem?_inj hi W.nodup_families).1 ?_⟩
    rw [h, W.getElem?_families_countBelow hF]
  · rintro ⟨hF, rfl⟩
    exact W.getElem?_families_countBelow hF

/-! ## Codes of families -/

/-- A code is a place, counted from the first code. -/
theorem typeCode?_eq_some_iff {F : Family} {c : Nat} :
    W.typeCode? F = some c ↔ ∃ i, W.families[i]? = some F ∧ 150 + i = c := by
  rw [typeCode?, Option.map_eq_some_iff]
  simp only [idxOf?_eq_some_iff_of_nodup W.nodup_families, typeCodeBase]

theorem ofTypeCode?_eq_some_iff {F : Family} {c : Nat} :
    W.ofTypeCode? c = some F ↔ ∃ i, W.families[i]? = some F ∧ 150 + i = c := by
  unfold ofTypeCode? typeCodeBase
  constructor
  · intro h
    split at h
    · cases h
    · exact ⟨c - 150, h, by omega⟩
  · rintro ⟨i, hi, rfl⟩
    rw [if_neg (by omega), Nat.add_sub_cancel_left, hi]

/-- A code is in use when it is not below the first one and there are enough families. -/
theorem ofTypeCode?_eq_none_iff {c : Nat} :
    W.ofTypeCode? c = none ↔ c < 150 ∨ 150 + 2 * W.size ≤ c := by
  unfold ofTypeCode? typeCodeBase
  split
  · next h => simp [h]
  · next h =>
    rw [List.getElem?_eq_none_iff, length_families]
    omega

theorem compare_typeCode? {F G : Family} {c d : Nat} (hF : W.typeCode? F = some c)
    (hG : W.typeCode? G = some d) : compare F G = compare c d := by
  obtain ⟨i, hFi, rfl⟩ := W.typeCode?_eq_some_iff.1 hF
  obtain ⟨j, hGj, rfl⟩ := W.typeCode?_eq_some_iff.1 hG
  obtain ⟨hi, rfl⟩ := List.getElem?_eq_some_iff.1 hFi
  obtain ⟨hj, rfl⟩ := List.getElem?_eq_some_iff.1 hGj
  rw [Family.compare_eq, compare_rank_getElem W.pairwise_families hi hj]
  -- both codes are counted from the same first one
  simp only [Nat.compare_eq_ite_lt, Nat.add_lt_add_iff_left]

/-- **Codes and exported families correspond, in order.** A family has a code exactly when its width
is in the set: two codes for each width of the set below its own are passed over, and one more when
it has no sign. A code belongs to a family exactly when it is the code of the family. The codes in
use are the first ones without a gap, two for each width, and families are compared like their
codes. -/
theorem families_numbered_in_order (W : WidthSet) :
    (∀ (F : Family) (c : Nat), W.typeCode? F = some c ↔
      F.width ∈ W ∧ c = 150 + 2 * W.countBelow F.width + if F.signed then 0 else 1) ∧
    (∀ (F : Family) (c : Nat), W.ofTypeCode? c = some F ↔ W.typeCode? F = some c) ∧
    (∀ c : Nat, (∃ F, W.typeCode? F = some c) ↔ 150 ≤ c ∧ c < 150 + 2 * W.size) ∧
    (∀ c : Nat, W.ofTypeCode? c = none ↔ c < 150 ∨ 150 + 2 * W.size ≤ c) ∧
    ∀ (F G : Family) (c d : Nat), W.typeCode? F = some c → W.typeCode? G = some d →
      compare F G = compare c d := by
  have hinverse (F : Family) (c : Nat) : W.ofTypeCode? c = some F ↔ W.typeCode? F = some c :=
    W.ofTypeCode?_eq_some_iff.trans W.typeCode?_eq_some_iff.symm
  refine ⟨fun F c => ?_, hinverse, fun c => ?_, fun c => W.ofTypeCode?_eq_none_iff,
    fun F G c d hF hG => W.compare_typeCode? hF hG⟩
  · rw [typeCode?_eq_some_iff]
    simp only [getElem?_families_eq_some_iff]
    constructor
    · rintro ⟨_, ⟨hF, rfl⟩, rfl⟩
      exact ⟨hF, (Nat.add_assoc _ _ _).symm⟩
    · rintro ⟨hF, rfl⟩
      exact ⟨_, ⟨hF, rfl⟩, (Nat.add_assoc _ _ _).symm⟩
  · -- a code is in use when some family has it
    have hnone := W.ofTypeCode?_eq_none_iff (c := c)
    simp only [← hinverse]
    rw [← Option.isSome_iff_exists, ← Option.ne_none_iff_isSome, ne_eq, hnone]
    omega

/-- With only the widths 3 and 8 exported, the codes of 8 bits come after two codes of 3 bits. -/
theorem families_numbered_in_order_two_widths :
    let W := ofPredicate fun w => w.bits = 3 || w.bits = 8
    let F : Family := ⟨{ bits := 8 }, true⟩
    let G : Family := ⟨{ bits := 8 }, false⟩
    (W.typeCode? F = some 152 ∧ W.typeCode? G = some 153) ∧ compare F G = compare 152 153 := by
  intro W F G
  obtain ⟨hcode, -, -, -, hcompare⟩ := families_numbered_in_order W
  have hF : W.typeCode? F = some 152 := (hcode F 152).2 (by decide)
  have hG : W.typeCode? G = some 153 := (hcode G 153).2 (by decide)
  exact ⟨⟨hF, hG⟩, hcompare F G 152 153 hF hG⟩

end WidthSet

end NarrowInt
