import NarrowInt.Family

/-!
# Exported families and their type codes

Which families have entry points is decided by a set of widths: both families of each width of the
set are exported, in registration order, and they are numbered from 150 in this order.

## Main definitions

* `WidthSet`: a set of widths, listed in ascending order
* `WidthSet.ofPredicate`, `WidthSet.full`: the widths with a property, and all of them
* `WidthSet.families`: the exported families in registration order
* `WidthSet.typeCode?`: the code of a family
* `WidthSet.ofTypeCode?`: the family of a code

## Main results

* `WidthSet.mem_families`: a family is exported exactly when its width is in the set
* `WidthSet.length_families`: each width has two families
-/

namespace NarrowInt

/-- Lists of one length, joined. -/
theorem length_flatMap_of_length_eq {α β : Type} {f : α → List β} {n : Nat}
    (h : ∀ a, (f a).length = n) (as : List α) : (as.flatMap f).length = n * as.length := by
  rw [List.length_flatMap, funext h, List.map_const', List.sum_replicate_nat, Nat.mul_comm]

/-- A set of widths, listed in strictly ascending order. -/
structure WidthSet where
  members : List Width
  ascending : members.Pairwise fun v w => v.bits < w.bits
deriving DecidableEq

namespace WidthSet

instance : Membership Width WidthSet := ⟨fun W w => w ∈ W.members⟩

instance (w : Width) (W : WidthSet) : Decidable (w ∈ W) :=
  inferInstanceAs (Decidable (w ∈ W.members))

theorem mem_def {w : Width} {W : WidthSet} : w ∈ W ↔ w ∈ W.members := Iff.rfl

/-- The widths with a property. -/
def ofPredicate (p : Width → Bool) : WidthSet :=
  ⟨Width.all.filter p, Width.pairwise_all.filter p⟩

@[simp] theorem mem_ofPredicate {p : Width → Bool} {w : Width} : w ∈ ofPredicate p ↔ p w := by
  simp [mem_def, ofPredicate]

/-- Every width. -/
def full : WidthSet := ⟨Width.all, Width.pairwise_all⟩

@[simp] theorem mem_full (w : Width) : w ∈ full := Width.mem_all w

/-- The number of widths. -/
def size (W : WidthSet) : Nat := W.members.length

/-- The exported families: width ascending, signed before unsigned. -/
def families (W : WidthSet) : List Family := W.members.flatMap Family.ofWidth

/-- A family is exported exactly when its width is in the set. -/
@[simp] theorem mem_families {W : WidthSet} {F : Family} : F ∈ W.families ↔ F.width ∈ W := by
  simp [families, mem_def]

/-- Each width has two families. -/
@[simp] theorem length_families (W : WidthSet) : W.families.length = 2 * W.size :=
  length_flatMap_of_length_eq (f := Family.ofWidth) (fun _ => rfl) W.members

/-! ## Type codes -/

/-- The code of the first exported family. -/
def typeCodeBase : Nat := 150

variable (W : WidthSet)

/-- The code of a family, when it is exported. -/
def typeCode? (F : Family) : Option Nat := (W.families.idxOf? F).map (typeCodeBase + ·)

/-- The family of a code, when the code is in use. -/
def ofTypeCode? (code : Nat) : Option Family :=
  if code < typeCodeBase then none else W.families[code - typeCodeBase]?

end WidthSet

end NarrowInt
