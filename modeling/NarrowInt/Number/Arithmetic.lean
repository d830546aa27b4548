import NarrowInt.Number.Basic

/-!
# Wrapping arithmetic and the order of numbers

The low `w` bits of a sum, a difference or a product depend only on the low `w` bits of the
operands. So these operations work on whole carriers, whatever lands in the junk bits, and make
the result canonical. A quotient depends on more than the low bits and is taken on logical values.
Numbers are ordered by their logical values as well: the carriers read as plain words would put the
negative numbers above the others.

## Main definitions

* `Number.neg`, `Number.add`, `Number.sub`, `Number.mul`: arithmetic modulo `2 ^ w`
* `Number.div`: division toward zero, with every bit set on division by zero
* `Number.div?`: division that refuses a zero divisor
* `Number.max`, `Number.min`: the greater and the lesser of two numbers, the first on ties
* `Number.sort`: a list in ascending order
-/

namespace NarrowInt.Number

variable {F : Family}

/-- Negation modulo `2 ^ w`. -/
def neg (a : Number F) : Number F := ofCarrier (-a.carrier)

/-- Addition modulo `2 ^ w`. -/
def add (a b : Number F) : Number F := ofCarrier (a.carrier + b.carrier)

/-- Subtraction modulo `2 ^ w`. -/
def sub (a b : Number F) : Number F := ofCarrier (a.carrier - b.carrier)

/-- Multiplication modulo `2 ^ w`. -/
def mul (a b : Number F) : Number F := ofCarrier (a.carrier * b.carrier)

/-- Division toward zero, modulo `2 ^ w`. Dividing by zero sets every bit: the result is `-1` in a
signed family and the largest value in an unsigned one. -/
def div (a b : Number F) : Number F :=
  if b.carrier = 0 then ofCarrier (BitVec.allOnes 32) else ofInt (a.value.tdiv b.value)

/-- Division toward zero, modulo `2 ^ w`, that refuses a zero divisor. -/
def div? (a b : Number F) : Option (Number F) :=
  if b.carrier = 0 then none else some (a.div b)

instance : Neg (Number F) := ⟨neg⟩

instance : Add (Number F) := ⟨add⟩

instance : Sub (Number F) := ⟨sub⟩

instance : Mul (Number F) := ⟨mul⟩

instance : Div (Number F) := ⟨div⟩

@[simp] theorem carrier_neg (a : Number F) : (-a).carrier = F.canonical (-a.carrier) := rfl

@[simp] theorem carrier_add (a b : Number F) :
    (a + b).carrier = F.canonical (a.carrier + b.carrier) := rfl

@[simp] theorem carrier_sub (a b : Number F) :
    (a - b).carrier = F.canonical (a.carrier - b.carrier) := rfl

@[simp] theorem carrier_mul (a b : Number F) :
    (a * b).carrier = F.canonical (a.carrier * b.carrier) := rfl

theorem div_eq (a b : Number F) :
    a / b = if b.carrier = 0 then ofCarrier (BitVec.allOnes 32)
      else ofInt (a.value.tdiv b.value) := rfl

/-! ## Order -/

instance : Ord (Number F) := ⟨fun a b => compare a.value b.value⟩

instance : LT (Number F) := ⟨fun a b => a.value < b.value⟩

instance : LE (Number F) := ⟨fun a b => a.value ≤ b.value⟩

instance : DecidableLT (Number F) := fun a b => inferInstanceAs (Decidable (a.value < b.value))

instance : DecidableLE (Number F) := fun a b => inferInstanceAs (Decidable (a.value ≤ b.value))

theorem compare_def (a b : Number F) : compare a b = compare a.value b.value := rfl

theorem le_def {a b : Number F} : a ≤ b ↔ a.value ≤ b.value := Iff.rfl

/-- The greater of two numbers, the first on ties. -/
def max (a b : Number F) : Number F := if a < b then b else a

/-- The lesser of two numbers, the first on ties. -/
def min (a b : Number F) : Number F := if b < a then b else a

/-- The maximum of the order takes the second number on ties. -/
instance : Max (Number F) := maxOfLe

/-- The minimum of the order takes the first number on ties. -/
instance : Min (Number F) := minOfLe

/-- The numbers in ascending order. -/
def sort (xs : List (Number F)) : List (Number F) := xs.mergeSort fun a b => decide (a ≤ b)

theorem sort_perm (xs : List (Number F)) : (sort xs).Perm xs := List.mergeSort_perm _ _

end NarrowInt.Number
