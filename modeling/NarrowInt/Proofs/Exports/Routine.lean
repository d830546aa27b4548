import Mathlib
import NarrowInt.Exports.Routine
import NarrowInt.Proofs.Computation
import NarrowInt.Proofs.Floating.Conversion

/-!
# What routines mean

The routines compute with carriers and bit patterns. What an operation of a family means can be told
without these: a carrier stands for the integer of the family congruent to it, and the result is the
carrier of an integer, or the float nearest to one. The meaning decides which cells an operation
takes, and it does not depend on the junk bits of the carriers among them.

## Main definitions

* `Family.Means`: the results of an operation of a family, told on integers and exact values
* `Convention.takes`, `Convention.gives`: the kinds of the cells that go in and come out
* `Cell.Agree`: the same cell, junk bits aside

## Main results

* `Routine.call_of_eq_some_iff`: the routine of an operation computes what the operation means
* `Routine.call_of_eq_none_iff`: it refuses the cells of other kinds, and no others
* `Family.Means.congr`: the meaning does not depend on junk bits
-/

namespace NarrowInt

/-! ## What operations mean -/

/-- The operation on two numbers, for the operations that take two. -/
def Operation.arithmetic? : Operation → Option Arithmetic
  | .max => some .max
  | .add => some .add
  | .sub => some .sub
  | .mul => some .mul
  | .div => some .div
  | _ => none

/-- What an operation of a family makes of cells. A carrier stands for the integer of the domain
congruent to it, and exact results are wrapped back into the domain; a float is the nearest to an
integer, the even one on a tie, or stands for its exact value. -/
inductive Family.Means (F : Family) : Operation → List Cell → Cell → Prop
  | min {c : Carrier} (h : F.Holds c F.least) : Means F .min [] (.carrier c)
  | toFloat {a : Carrier} {p : Single}
      (h : Format.single.IsNearest (F.wrap a.toNat : ℚ) p.toNat) :
      Means F .toFloat [.carrier a] (.single p)
  | fromFloat {p : Single} {c : Carrier} (h : F.Wraps p.datum.value? c) :
      Means F .fromFloat [.single p] (.carrier c)
  | binary {op : Operation} {f : Arithmetic} {a b c : Carrier} (hop : op.arithmetic? = some f)
      (h : F.Holds c (F.wrap (f.exact (F.wrap a.toNat) (F.wrap b.toNat)))) :
      Means F op [.carrier a, .carrier b] (.carrier c)

namespace Routine

variable {F : Family} {op : Operation} {cells : List Cell} {c : Cell}

theorem call_min_eq_some_iff {result : Carrier} :
    (min result).call cells = some c ↔ cells = [] ∧ .carrier result = c := by
  rcases cells with _ | ⟨a, cells⟩ <;> simp [call]

theorem call_toFloat_eq_some_iff {run : Carrier → Single} :
    (toFloat run).call cells = some c ↔ ∃ a, cells = [.carrier a] ∧ .single (run a) = c := by
  rcases cells with _ | ⟨a | p, _ | ⟨b, cells⟩⟩ <;> simp [call]

theorem call_fromFloat_eq_some_iff {run : Single → Carrier} :
    (fromFloat run).call cells = some c ↔ ∃ p, cells = [.single p] ∧ .carrier (run p) = c := by
  rcases cells with _ | ⟨a | p, _ | ⟨b, cells⟩⟩ <;> simp [call]

theorem call_binary_eq_some_iff {run : Carrier → Carrier → Carrier} :
    (binary run).call cells = some c ↔
      ∃ a b, cells = [.carrier a, .carrier b] ∧ .carrier (run a b) = c := by
  rcases cells with _ | ⟨a | p, _ | ⟨b | q, _ | ⟨d, cells⟩⟩⟩ <;> simp [call]

theorem of_eq_onNumbers {f : Arithmetic} (h : op.arithmetic? = some f) :
    of F op = onNumbers F f.onNumbers := by
  cases op <;> cases h <;> rfl

end Routine

/-- The routine of an operation computes what the operation means. -/
theorem Routine.call_of_eq_some_iff {F : Family} {op : Operation} {cells : List Cell} {c : Cell} :
    (of F op).call cells = some c ↔ F.Means op cells c := by
  constructor
  · intro h
    cases hop : op.arithmetic? with
    | some f =>
      rw [of_eq_onNumbers hop] at h
      obtain ⟨a, b, rfl, rfl⟩ := call_binary_eq_some_iff.1 h
      refine .binary hop ?_
      rw [← Number.value_ofCarrier, ← Number.value_ofCarrier, ← f.value_onNumbers]
      exact Number.holds _
    | none =>
      -- the three operations with a convention of their own
      cases op with
      | min =>
        obtain ⟨rfl, rfl⟩ := call_min_eq_some_iff.1 h
        exact .min ((Number.holds_value_iff Number.value_least _).2 rfl)
      | toFloat =>
        obtain ⟨a, rfl, rfl⟩ := call_toFloat_eq_some_iff.1 h
        refine .toFloat ?_
        rw [← Number.value_ofCarrier]
        exact Number.isNearest_toSingle _
      | fromFloat =>
        obtain ⟨p, rfl, rfl⟩ := call_fromFloat_eq_some_iff.1 h
        exact .fromFloat ((Number.wraps_iff_of_value_eq (Number.value_ofSingle p) _).2 rfl)
      | _ => cases hop
  · intro h
    cases h with
    | min h =>
      rw [(Number.holds_value_iff Number.value_least _).1 h]
      rfl
    | toFloat h =>
      rw [← Number.value_ofCarrier, Number.isNearest_iff] at h
      rw [h]
      rfl
    | fromFloat h =>
      rw [(Number.wraps_iff_of_value_eq (Number.value_ofSingle _) _).1 h]
      rfl
    | binary hop h =>
      rw [← Number.value_ofCarrier, ← Number.value_ofCarrier, ← Arithmetic.value_onNumbers,
        Number.holds_value_iff rfl] at h
      rw [of_eq_onNumbers hop, h]
      rfl

/-! ## Kinds of cells -/

/-- The kinds of cells. -/
inductive Kind
  | carrier
  | single
deriving DecidableEq

/-- The kind of a cell. -/
def Cell.kind : Cell → Kind
  | carrier _ => .carrier
  | single _ => .single

namespace Convention

/-- The kinds of the cells that go in. -/
def takes : Convention → List Kind
  | min => []
  | toFloat => [.carrier]
  | fromFloat => [.single]
  | binary => [.carrier, .carrier]

/-- The kind of the cell that comes out. -/
def gives : Convention → Kind
  | toFloat => .single
  | _ => .carrier

end Convention

namespace Routine

variable {F : Family} {op : Operation} {cells : List Cell} {c : Cell}

/-- A routine has a result for the cells of its convention, and for no others. -/
theorem exists_call_iff (r : Routine) :
    (∃ c, r.call cells = some c) ↔ cells.map Cell.kind = r.convention.takes := by
  cases r <;>
    rcases cells with _ | ⟨a | p, _ | ⟨b | q, _ | ⟨d, cells⟩⟩⟩ <;>
      simp [call, convention, Convention.takes, Cell.kind]

theorem kind_of_call {r : Routine} (h : r.call cells = some c) : c.kind = r.convention.gives := by
  cases r with
  | min result =>
    obtain ⟨-, rfl⟩ := call_min_eq_some_iff.1 h
    rfl
  | toFloat run =>
    obtain ⟨a, -, rfl⟩ := call_toFloat_eq_some_iff.1 h
    rfl
  | fromFloat run =>
    obtain ⟨p, -, rfl⟩ := call_fromFloat_eq_some_iff.1 h
    rfl
  | binary run =>
    obtain ⟨a, b, -, rfl⟩ := call_binary_eq_some_iff.1 h
    rfl

theorem call_of_eq_none_iff :
    (of F op).call cells = none ↔ cells.map Cell.kind ≠ op.convention.takes := by
  rw [← convention_of F op, ne_eq, ← exists_call_iff, not_exists, Option.eq_none_iff_forall_ne_some]

end Routine

namespace Family.Means

variable {F : Family} {op : Operation} {cells : List Cell} {c : Cell}

theorem kind_eq (h : F.Means op cells c) : c.kind = op.convention.gives := by
  rw [← Routine.convention_of F op]
  exact Routine.kind_of_call (Routine.call_of_eq_some_iff.2 h)

theorem map_kind_eq (h : F.Means op cells c) : cells.map Cell.kind = op.convention.takes := by
  rw [← Routine.convention_of F op]
  exact (Routine.exists_call_iff _).1 ⟨c, Routine.call_of_eq_some_iff.2 h⟩

/-- A carrier that comes out is canonical. -/
theorem canonical {d : Carrier} (h : F.Means op cells (.carrier d)) : F.canonical d = d := by
  cases h with
  | min h => exact h.1
  | fromFloat h => exact h.canonical
  | binary hop h => exact h.1

end Family.Means

/-! ## Junk bits -/

/-- The same cell, junk bits aside: carriers need to have the same `w` low bits only. -/
inductive Cell.Agree (w : Width) : Cell → Cell → Prop
  | refl (c : Cell) : Agree w c c
  | carrier {a b : Carrier} (h : ∀ i < w.bits, a.getLsbD i = b.getLsbD i) :
      Agree w (.carrier a) (.carrier b)

namespace Cell.Agree

variable {w : Width} {c d : Cell}

theorem symm (h : Agree w c d) : Agree w d c := by
  cases h with
  | refl => exact .refl c
  | carrier h => exact .carrier fun i hi => (h i hi).symm

theorem kind_eq (h : Agree w c d) : c.kind = d.kind := by
  cases h <;> rfl

/-- What agrees with a carrier is a carrier of the same integer. -/
theorem exists_carrier {F : Family} {a : Carrier} (h : Agree F.width (.carrier a) d) :
    ∃ b, d = .carrier b ∧ F.wrap a.toNat = F.wrap b.toNat := by
  cases h with
  | refl => exact ⟨a, rfl, rfl⟩
  | carrier h =>
    refine ⟨_, rfl, ?_⟩
    rw [← F.decode_eq_wrap, ← F.decode_eq_wrap, ← F.decode_canonical,
      F.canonical_eq_canonical_iff.2 h, F.decode_canonical]

end Cell.Agree

/-- The meaning of an operation does not depend on the junk bits of the carriers that go in. -/
theorem Family.Means.congr {F : Family} {op : Operation} {cells cells' : List Cell} {c : Cell}
    (h : F.Means op cells c) (hcells : List.Forall₂ (Cell.Agree F.width) cells cells') :
    F.Means op cells' c := by
  -- an operation takes a fixed number of cells, and they agree one by one
  cases h with
  | min h =>
    cases hcells
    exact .min h
  | toFloat h =>
    obtain ⟨_, _, ha, hnil, rfl⟩ := List.forall₂_cons_left_iff.1 hcells
    cases hnil
    obtain ⟨b, rfl, hb⟩ := ha.exists_carrier
    exact .toFloat (hb ▸ h)
  | fromFloat h =>
    obtain ⟨_, _, hp, hnil, rfl⟩ := List.forall₂_cons_left_iff.1 hcells
    cases hnil
    cases hp
    exact .fromFloat h
  | binary hop h =>
    obtain ⟨_, _, ha, hrest, rfl⟩ := List.forall₂_cons_left_iff.1 hcells
    obtain ⟨_, _, hb, hnil, rfl⟩ := List.forall₂_cons_left_iff.1 hrest
    cases hnil
    obtain ⟨a', rfl, ha'⟩ := ha.exists_carrier
    obtain ⟨b', rfl, hb'⟩ := hb.exists_carrier
    rw [ha', hb'] at h
    exact .binary hop h

end NarrowInt
