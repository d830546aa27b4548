/-!
# Families of narrow integers

A family is a width of 1 to 32 bits together with a signedness: 64 families in all. Families are
ordered by width, and at equal width the signed one comes first; this is the order in which they
are registered and listed everywhere.

## Main definitions

* `Width`: a number of significant bits from 1 to 32
* `Width.all`: every width, ascending
* `Family`: a width and a signedness
* `Family.all`: every family, in registration order

## Main results

* `Width.mem_all`, `Family.mem_all`: the lists are complete
* `Width.pairwise_all`: the widths are listed in strictly ascending order
-/

namespace NarrowInt

/-- A number of significant bits, from 1 to 32. -/
structure Width where
  bits : Nat
  one_le : 1 ≤ bits := by decide
  le_carrier : bits ≤ 32 := by decide
deriving DecidableEq

namespace Width

theorem ext {v w : Width} (h : v.bits = w.bits) : v = w := by
  cases v
  cases w
  cases h
  rfl

/-- The width of `n` bits, when there is one. -/
def ofNat? (n : Nat) : Option Width :=
  if h : 1 ≤ n ∧ n ≤ 32 then some ⟨n, h.1, h.2⟩ else none

@[simp] theorem ofNat?_bits (w : Width) : ofNat? w.bits = some w := by
  simp [ofNat?, w.one_le, w.le_carrier]

theorem ofNat?_eq_some_iff {n : Nat} {w : Width} : ofNat? n = some w ↔ n = w.bits := by
  constructor
  · intro h
    unfold ofNat? at h
    split at h
    · cases h
      rfl
    · cases h
  · rintro rfl
    simp

theorem ofNat?_eq_none_iff {n : Nat} : ofNat? n = none ↔ n = 0 ∨ 32 < n := by
  unfold ofNat?
  split <;> simp <;> omega

/-- Every width, ascending. -/
def all : List Width :=
  (List.finRange 32).map fun i => ⟨i.val + 1, by omega, by omega⟩

@[simp] theorem mem_all (w : Width) : w ∈ all := by
  have h₁ := w.one_le
  have h₂ := w.le_carrier
  refine List.mem_map.2 ⟨⟨w.bits - 1, by omega⟩, List.mem_finRange _, ext ?_⟩
  change w.bits - 1 + 1 = w.bits
  omega

theorem pairwise_all : all.Pairwise fun v w => v.bits < w.bits := by
  decide

end Width

/-- A width and a signedness. -/
structure Family where
  width : Width
  signed : Bool
deriving DecidableEq

namespace Family

/-- The family of `n` bits, when there is one. -/
def ofBits? (n : Nat) (signed : Bool) : Option Family :=
  (Width.ofNat? n).map (⟨·, signed⟩)

/-- The two families of a width, the signed one first. -/
def ofWidth (w : Width) : List Family := [⟨w, true⟩, ⟨w, false⟩]

@[simp] theorem mem_ofWidth {w : Width} {F : Family} : F ∈ ofWidth w ↔ F.width = w := by
  obtain ⟨v, s⟩ := F
  cases s <;> simp [ofWidth]

/-- Every family: width ascending, signed before unsigned. -/
def all : List Family := Width.all.flatMap ofWidth

@[simp] theorem mem_all (F : Family) : F ∈ all := by
  simp [all]

/-- Width ascending, signed before unsigned. -/
instance : Ord Family where
  compare F G := (compare F.width.bits G.width.bits).then (compare (!F.signed) (!G.signed))

instance : LE Family := leOfOrd

instance : DecidableLE Family := inferInstanceAs (DecidableRel (· ≤ · : Family → Family → Prop))

end Family

/-- A violated precondition of a constructor. -/
inductive Misuse
  | widthOutOfRange
deriving DecidableEq

/-- The explanation given with a violated precondition. -/
def Misuse.message : Misuse → String
  | .widthOutOfRange => "width must be in 1..=32"

/-- The family of `n` bits, which must be from 1 to 32. -/
def Family.require (n : Nat) (signed : Bool) : Except Misuse Family :=
  match ofBits? n signed with
  | some F => .ok F
  | none => .error .widthOutOfRange

end NarrowInt
