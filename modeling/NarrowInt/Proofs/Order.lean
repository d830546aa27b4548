import Mathlib
import NarrowInt.Number.Arithmetic
import NarrowInt.Number.Lemmas

/-!
# The order of a family

Numbers are compared by their values and told apart by their carriers. Since only one canonical
carrier holds a value, numbers that compare as equal are the same number, so the order is a linear
one and no choice between equal numbers can be seen: the two maxima agree although they take
different operands on ties, and so do all ways to sort a list, stable or not.

## Main definitions

* `Number.Ascending`: each number of a list compares as less than or equal to all later ones

## Main results

* `Number.compare_eq_iff`: numbers that compare as equal are the same
* `Number.max_eq`, `Number.min_eq`: the tie rules of the maxima and minima make no difference
* `Number.eq_of_perm`: an ascending list is determined by its elements
* `Number.forall_ascending_iff`: every way to sort lists gives the same lists
* `Number.order_decided_by_values`: the order of a family and its lattice
-/

namespace NarrowInt.Number

variable {F : Family} {a b : Number F}

/-! ## The linear order -/

/-- Numbers that compare as equal are the same. -/
theorem compare_eq_iff : compare a b = .eq ↔ a = b := by
  rw [compare_def, Std.LawfulEqOrd.compare_eq_iff_eq, value_inj]

theorem compare_eq_compareOfLessAndEq (a b : Number F) : compare a b = compareOfLessAndEq a b := by
  rw [compare_def, LinearOrder.compare_eq_compareOfLessAndEq]
  simp only [compareOfLessAndEq, value_inj]
  rfl

/-- The order of values is antisymmetric on numbers because a value has one number only. -/
instance : LinearOrder (Number F) where
  le_refl a := le_refl a.value
  le_trans a b c := le_trans (a := a.value) (b := b.value) (c := c.value)
  le_antisymm _ _ hab hba := value_injective (le_antisymm hab hba)
  lt_iff_le_not_ge a b := lt_iff_le_not_ge (a := a.value) (b := b.value)
  le_total a b := le_total a.value b.value
  toDecidableLE := inferInstance
  toDecidableLT := inferInstance
  toDecidableEq := inferInstance
  -- both operations are those of the family, which are defined by these comparisons
  min_def _ _ := rfl
  max_def _ _ := rfl
  compare_eq_compareOfLessAndEq := compare_eq_compareOfLessAndEq

instance : BoundedOrder (Number F) where
  bot := least
  top := greatest
  bot_le a := by
    rw [le_def, value_least]
    exact a.contains_value.1
  le_top a := by
    rw [le_def, value_greatest]
    exact a.contains_value.2

/-! ## Ties -/

/-- The first number on ties is the second one. -/
theorem max_eq (a b : Number F) : a.max b = Max.max a b := by
  unfold max
  split
  · next h => exact (max_eq_right h.le).symm
  · next h => exact (max_eq_left (not_lt.1 h)).symm

theorem min_eq (a b : Number F) : a.min b = Min.min a b := by
  unfold min
  split
  · next h => exact (min_eq_right h.le).symm
  · next h => exact (min_eq_left (not_lt.1 h)).symm

/-! ## Sorted lists -/

/-- Each number of the list compares as less than or equal to all later ones. -/
def Ascending (xs : List (Number F)) : Prop := xs.Pairwise fun a b => (compare a b).isLE

instance (xs : List (Number F)) : Decidable (Ascending xs) :=
  inferInstanceAs (Decidable (xs.Pairwise fun a b => (compare a b).isLE))

theorem isLE_compare_iff : (compare a b).isLE ↔ a ≤ b := by
  rw [compare_def, Std.isLE_compare, le_def]

theorem ascending_iff {xs : List (Number F)} : Ascending xs ↔ xs.Pairwise (· ≤ ·) := by
  simp only [Ascending, isLE_compare_iff]

/-- An ascending list is determined by its elements. -/
theorem eq_of_perm {xs ys : List (Number F)} (h : xs.Perm ys) (hxs : Ascending xs)
    (hys : Ascending ys) : xs = ys :=
  h.eq_of_pairwise' (ascending_iff.1 hxs) (ascending_iff.1 hys)

theorem ascending_sort (xs : List (Number F)) : Ascending (sort xs) :=
  ascending_iff.2 (List.pairwise_mergeSort' (· ≤ ·) xs)

/-- Every way to sort lists gives the same lists. -/
theorem forall_ascending_iff {f : List (Number F) → List (Number F)} :
    (∀ xs, (f xs).Perm xs ∧ Ascending (f xs)) ↔ f = sort := by
  constructor
  · intro h
    funext xs
    obtain ⟨hperm, hasc⟩ := h xs
    exact eq_of_perm (hperm.trans (sort_perm xs).symm) hasc (ascending_sort xs)
  · rintro rfl xs
    exact ⟨sort_perm xs, ascending_sort xs⟩

/-- **The order of a family is decided by values**, and so is the equality of its carriers: numbers
compare as equal exactly when their values are equal, and then they are the same. The order is a
linear one, that of the values. The first number on ties and the second one are the same, so both
maxima and both minima agree down to the carrier. They are the operations of a distributive lattice,
with the least number at the bottom and the greatest at the top. Ascending lists of the same numbers
are lists of the same carriers, so no two ways to sort differ. -/
theorem order_decided_by_values (F : Family) :
    (∀ a b : Number F, (a == b ↔ a.carrier = b.carrier) ∧ (a == b ↔ compare a b = .eq) ∧
      (a == b ↔ a.value = b.value) ∧ compare a b = compare a.value b.value) ∧
    (∃ L : LinearOrder (Number F), ∀ a b : Number F, L.compare a b = compare a.value b.value ∧
      (L.le a b ↔ a.value ≤ b.value) ∧ (L.lt a b ↔ a.value < b.value)) ∧
    (∀ a b : Number F, (a.max b).carrier = (Max.max a b).carrier ∧
      (a.min b).carrier = (Min.min a b).carrier) ∧
    (∃ D : DistribLattice (Number F), ∀ a b : Number F, D.sup a b = a.max b ∧
      D.inf a b = a.min b ∧ (D.le a b ↔ a.value ≤ b.value) ∧ D.le least a ∧ D.le a greatest) ∧
    (∀ xs ys : List (Number F), xs.Perm ys → Ascending xs → Ascending ys →
      xs.map carrier = ys.map carrier) ∧
    ∀ f : List (Number F) → List (Number F),
      (∀ xs, (f xs).Perm xs ∧ Ascending (f xs)) ↔ f = sort := by
  refine ⟨fun a b => ⟨?_, ?_, ?_, compare_def a b⟩,
    ⟨inferInstance, fun a b => ⟨compare_def a b, Iff.rfl, Iff.rfl⟩⟩,
    fun a b => ⟨congrArg carrier (max_eq a b), congrArg carrier (min_eq a b)⟩,
    ⟨inferInstance, fun a b => ⟨(max_eq a b).symm, (min_eq a b).symm, Iff.rfl, bot_le, le_top⟩⟩,
    fun xs ys h hxs hys => congrArg (List.map carrier) (eq_of_perm h hxs hys),
    fun f => forall_ascending_iff⟩
  · rw [beq_iff_eq]
    exact ⟨congrArg carrier, ext⟩
  · rw [beq_iff_eq, compare_eq_iff]
  · rw [beq_iff_eq, value_inj]

/-- The least, the last negative and the greatest number of 4 bits with a sign, in ascending order
and from carriers with junk bits. -/
theorem order_decided_by_values_junk :
    let F : Family := ⟨{ bits := 4 }, true⟩
    let xs : List (Number F) := [least, ofInt (-1), greatest]
    let ys : List (Number F) := [ofCarrier 0x28, ofCarrier 0x1f, ofCarrier 0xf7]
    (xs.Perm ys ∧ Ascending xs ∧ Ascending ys) ∧ xs.map carrier = ys.map carrier := by
  intro F xs ys
  have hperm : xs.Perm ys := by decide
  have hxs : Ascending xs := by decide
  have hys : Ascending ys := by decide
  obtain ⟨-, -, -, -, hlists, -⟩ := order_decided_by_values F
  exact ⟨⟨hperm, hxs, hys⟩, hlists xs ys hperm hxs hys⟩

end NarrowInt.Number
