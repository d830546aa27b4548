import Mathlib
import NarrowInt.Proofs.Value

/-!
# Computations

A computation is a list of steps in one family. A step makes a number, or applies an operation to
the numbers that earlier steps made. The same steps mean something for plain integers: there every
exact result is wrapped back into the domain. The two readings agree step by step, so a
computation of any length can be followed on the integers alone.

## Main definitions

* `Origin`, `Arithmetic`, `Step`: how a number is made, what is done with two numbers, and a step
* `Outcome`: what becomes of a step
* `Step.onNumbers`, `Step.onIntegers`: a step on numbers, and its reading on integers
* `Step.run`: the outcomes of a list of steps

## Main results

* `Step.length_run`, `Step.getElem?_run`: the outcome of each step
* `Step.map_value_run`: the values of the numbers reached are the integers reached
* `Step.carriers_hold_integers`: every carrier reached is the canonical one of the integer reached
-/

namespace NarrowInt

/-- How a number is made without another one. -/
inductive Origin
  | carrier (c : Carrier)
  | significant (c : Carrier)
  | integer (v : Int)
  | machine (t : MachineType) (x : BitVec t.bits)
  | zero
  | one
  | least
  | greatest

/-- What can be done with any two numbers to make a third. -/
inductive Arithmetic
  | add
  | sub
  | mul
  | div
  | max
  | min

/-- A step of a computation; `i` and `j` count the steps before it from 0. -/
inductive Step
  | make (o : Origin)
  | integer? (v : Int)
  | neg (i : Nat)
  | apply (op : Arithmetic) (i j : Nat)
  | div? (i j : Nat)
  | compare (i j : Nat)

/-- What becomes of a step: a value, a refusal, an ordering, or nothing at all when an operand is
the outcome of no earlier step or is not a value. -/
inductive Outcome (α : Type)
  | value (x : α)
  | refused
  | ordering (o : Ordering)
  | undefined
deriving DecidableEq

namespace Outcome

variable {α β : Type}

/-- The value of an outcome that is one. -/
def value? : Outcome α → Option α
  | value x => some x
  | _ => none

/-- A value, or a refusal. -/
def ofOption : Option α → Outcome α
  | some x => value x
  | none => refused

def map (f : α → β) : Outcome α → Outcome β
  | value x => value (f x)
  | refused => refused
  | ordering o => ordering o
  | undefined => undefined

/-- Outcomes of the same kind, related when they are values. -/
inductive Rel (r : α → β → Prop) : Outcome α → Outcome β → Prop
  | value {x : α} {y : β} (h : r x y) : Rel r (value x) (value y)
  | refused : Rel r refused refused
  | ordering (o : Ordering) : Rel r (ordering o) (ordering o)
  | undefined : Rel r undefined undefined

theorem value?_map (f : α → β) (a : Outcome α) : (a.map f).value? = a.value?.map f := by
  cases a <;> rfl

/-- The value of the step at an index. -/
def operand (outcomes : List (Outcome α)) (i : Nat) : Option α := outcomes[i]?.bind value?

theorem operand_map (f : α → β) (outcomes : List (Outcome α)) (i : Nat) :
    operand (outcomes.map (map f)) i = (operand outcomes i).map f := by
  unfold operand
  rw [List.getElem?_map]
  cases outcomes[i]? with
  | none => rfl
  | some a => exact value?_map f a

/-- An outcome that depends on one operand. -/
def of₁ (outcomes : List (Outcome α)) (i : Nat) (f : α → Outcome α) : Outcome α :=
  match operand outcomes i with
  | some x => f x
  | none => undefined

/-- An outcome that depends on two operands. -/
def of₂ (outcomes : List (Outcome α)) (i j : Nat) (f : α → α → Outcome α) : Outcome α :=
  match operand outcomes i, operand outcomes j with
  | some x, some y => f x y
  | _, _ => undefined

theorem map_of₁ {f : α → β} {g : α → Outcome α} {g' : β → Outcome β}
    (h : ∀ x, (g x).map f = g' (f x)) (outcomes : List (Outcome α)) (i : Nat) :
    (of₁ outcomes i g).map f = of₁ (outcomes.map (map f)) i g' := by
  unfold of₁
  rw [operand_map]
  cases operand outcomes i with
  | none => rfl
  | some x => exact h x

theorem map_of₂ {f : α → β} {g : α → α → Outcome α} {g' : β → β → Outcome β}
    (h : ∀ x y, (g x y).map f = g' (f x) (f y)) (outcomes : List (Outcome α)) (i j : Nat) :
    (of₂ outcomes i j g).map f = of₂ (outcomes.map (map f)) i j g' := by
  unfold of₂
  rw [operand_map, operand_map]
  cases operand outcomes i with
  | none => rfl
  | some x =>
    cases operand outcomes j with
    | none => rfl
    | some y => exact h x y

end Outcome

namespace Origin

variable {F : Family}

/-- The number made. -/
def number : Origin → Number F
  | carrier c => .ofCarrier c
  | significant c => .ofSignificant c
  | integer v => .ofInt v
  | machine t x => .ofMachine t x
  | zero => .zero
  | one => .one
  | least => .least
  | greatest => .greatest

/-- The integer meant, before it is wrapped. -/
def exact (F : Family) : Origin → Int
  | carrier c => c.toNat
  | significant c => c.toNat
  | integer v => v
  | machine t x => t.decode x
  | zero => 0
  | one => 1
  | least => F.least
  | greatest => F.greatest

theorem value_number (o : Origin) : (o.number : Number F).value = F.wrap (o.exact F) := by
  cases o with
  | carrier c => exact Number.value_ofCarrier c
  | significant c => exact Number.value_ofCarrier c
  | integer v => exact Number.value_ofInt v
  | machine t x => exact Number.value_ofMachine t x
  | zero => exact Number.value_zero.trans (F.wrap_of_contains F.contains_zero).symm
  | one => exact Number.value_one
  | least => exact Number.value_least.trans (F.wrap_of_contains F.contains_least).symm
  | greatest => exact Number.value_greatest.trans (F.wrap_of_contains F.contains_greatest).symm

end Origin

namespace Arithmetic

variable {F : Family}

/-- The operation on numbers. -/
def onNumbers : Arithmetic → Number F → Number F → Number F
  | add, a, b => a + b
  | sub, a, b => a - b
  | mul, a, b => a * b
  | div, a, b => a / b
  | max, a, b => a.max b
  | min, a, b => a.min b

/-- The operation on integers, before the result is wrapped. Division goes toward zero, and a
quotient by zero is `-1`. -/
def exact : Arithmetic → Int → Int → Int
  | add, a, b => a + b
  | sub, a, b => a - b
  | mul, a, b => a * b
  | div, a, b => if b = 0 then -1 else a.tdiv b
  | max, a, b => Max.max a b
  | min, a, b => Min.min a b

/-- Each operation on numbers is the operation on their values, wrapped. -/
theorem value_onNumbers (op : Arithmetic) (a b : Number F) :
    (op.onNumbers a b).value = F.wrap (op.exact a.value b.value) := by
  cases op with
  | add => exact Number.value_add a b
  | sub => exact Number.value_sub a b
  | mul => exact Number.value_mul a b
  | div =>
    refine (Number.value_div a b).trans ?_
    by_cases h : b.value = 0 <;> simp [exact, h]
  | max =>
    -- one of the two values, so wrapping does nothing
    refine (Number.value_max a b).trans (F.wrap_of_contains ?_).symm
    rcases max_choice a.value b.value with h | h
    · rw [h]
      exact a.contains_value
    · rw [h]
      exact b.contains_value
  | min =>
    refine (Number.value_min a b).trans (F.wrap_of_contains ?_).symm
    rcases min_choice a.value b.value with h | h
    · rw [h]
      exact a.contains_value
    · rw [h]
      exact b.contains_value

end Arithmetic

namespace Step

variable {F : Family}

/-- A step on numbers, given the outcomes of the steps so far. -/
def onNumbers (outcomes : List (Outcome (Number F))) : Step → Outcome (Number F)
  | make o => .value o.number
  | integer? v => .ofOption (Number.ofInt? v)
  | neg i => .of₁ outcomes i fun a => .value (-a)
  | apply op i j => .of₂ outcomes i j fun a b => .value (op.onNumbers a b)
  | div? i j => .of₂ outcomes i j fun a b => .ofOption (a.div? b)
  | compare i j => .of₂ outcomes i j fun a b => .ordering (Ord.compare a b)

/-- A step on integers: the exact result, wrapped into the domain. -/
def onIntegers (F : Family) (outcomes : List (Outcome Int)) : Step → Outcome Int
  | make o => .value (F.wrap (o.exact F))
  | integer? v => if F.Contains v then .value v else .refused
  | neg i => .of₁ outcomes i fun a => .value (F.wrap (-a))
  | apply op i j => .of₂ outcomes i j fun a b => .value (F.wrap (op.exact a b))
  | div? i j => .of₂ outcomes i j fun a b =>
      if b = 0 then .refused else .value (F.wrap (a.tdiv b))
  | compare i j => .of₂ outcomes i j fun a b => .ordering (Ord.compare a b)

/-- The outcomes of the steps, given the outcomes so far. -/
def runFrom {α : Type} (step : List (Outcome α) → Step → Outcome α) (outcomes : List (Outcome α)) :
    List Step → List (Outcome α)
  | [] => []
  | s :: steps => step outcomes s :: runFrom step (outcomes ++ [step outcomes s]) steps

/-- The outcomes of the steps of a computation. -/
def run {α : Type} (step : List (Outcome α) → Step → Outcome α) (steps : List Step) :
    List (Outcome α) :=
  runFrom step [] steps

section Run

variable {α : Type} (step : List (Outcome α) → Step → Outcome α)

theorem length_runFrom (outcomes : List (Outcome α)) (steps : List Step) :
    (runFrom step outcomes steps).length = steps.length := by
  induction steps generalizing outcomes with
  | nil => rfl
  | cons s steps ih => rw [runFrom, List.length_cons, List.length_cons, ih]

/-- Each step has one outcome. -/
@[simp] theorem length_run (steps : List Step) : (run step steps).length = steps.length :=
  length_runFrom step [] steps

theorem getElem?_runFrom (outcomes : List (Outcome α)) (steps : List Step) (i : Nat) :
    (runFrom step outcomes steps)[i]? =
      steps[i]?.map (step (outcomes ++ (runFrom step outcomes steps).take i)) := by
  induction steps generalizing outcomes i with
  | nil => rfl
  | cons s steps ih =>
    rw [runFrom]
    cases i with
    | zero =>
      rw [List.take_zero, List.append_nil]
      rfl
    | succ i =>
      -- the first outcome has moved to those before the rest of the run
      rw [List.getElem?_cons_succ, List.getElem?_cons_succ, ih, List.take_succ_cons,
        List.append_assoc, List.singleton_append]

/-- The outcome of a step is that of the step on the outcomes before it. -/
theorem getElem?_run (steps : List Step) (i : Nat) :
    (run step steps)[i]? = steps[i]?.map (step ((run step steps).take i)) := by
  rw [run, getElem?_runFrom, List.nil_append]

end Run

theorem map_value_integer? (v : Int) :
    (Outcome.ofOption (Number.ofInt? v : Option (Number F))).map Number.value =
      if F.Contains v then .value v else .refused := by
  cases h : (Number.ofInt? v : Option (Number F)) with
  | none =>
    rw [if_neg (Number.ofInt?_eq_none_iff.1 h)]
    rfl
  | some x =>
    have hx := Number.ofInt?_eq_some_iff.1 h
    rw [if_pos (hx ▸ x.contains_value), ← hx]
    rfl

theorem map_value_div? (a b : Number F) :
    (Outcome.ofOption (a.div? b)).map Number.value =
      if b.value = 0 then .refused else .value (F.wrap (a.value.tdiv b.value)) := by
  rw [Number.div?_eq]
  by_cases h : b.value = 0
  · rw [if_pos h, if_pos h]
    rfl
  · rw [if_neg h, if_neg h]
    have hq := Number.value_div a b
    rw [if_neg h] at hq
    exact congrArg Outcome.value hq

/-- One step on numbers has the value of the step on their values. -/
theorem map_value_onNumbers (outcomes : List (Outcome (Number F))) (s : Step) :
    (s.onNumbers outcomes).map Number.value =
      s.onIntegers F (outcomes.map (Outcome.map Number.value)) := by
  cases s with
  | make o => exact congrArg Outcome.value (Origin.value_number o)
  | integer? v => exact map_value_integer? v
  | neg i =>
    refine Outcome.map_of₁ (fun a => ?_) outcomes i
    exact congrArg Outcome.value (Number.value_neg a)
  | apply op i j =>
    refine Outcome.map_of₂ (fun a b => ?_) outcomes i j
    exact congrArg Outcome.value (op.value_onNumbers a b)
  | div? i j => exact Outcome.map_of₂ map_value_div? outcomes i j
  | compare i j => exact Outcome.map_of₂ (fun a b => rfl) outcomes i j

theorem map_value_runFrom (outcomes : List (Outcome (Number F))) (steps : List Step) :
    (runFrom onNumbers outcomes steps).map (Outcome.map Number.value) =
      runFrom (onIntegers F) (outcomes.map (Outcome.map Number.value)) steps := by
  -- the invariant: the outcomes so far on the two sides correspond
  induction steps generalizing outcomes with
  | nil => rfl
  | cons s steps ih =>
    have hs := map_value_onNumbers outcomes s
    rw [runFrom, runFrom, List.map_cons, ih, List.map_append, List.map_singleton, hs]

/-- **The values of a computation** on numbers are the outcomes of the computation on integers. -/
theorem map_value_run (steps : List Step) :
    (run onNumbers steps).map (Outcome.map (Number.value (F := F))) =
      run (onIntegers F) steps :=
  map_value_runFrom [] steps

theorem rel_holds_map (a : Outcome (Number F)) :
    Outcome.Rel F.Holds (a.map Number.carrier) (a.map Number.value) := by
  cases a with
  | value x => exact .value x.holds
  | refused => exact .refused
  | ordering o => exact .ordering o
  | undefined => exact .undefined

/-- **A computation of any length** keeps every carrier canonical, and the carriers hold the
integers that the computation reaches on integers. -/
theorem carriers_hold_integers (F : Family) (steps : List Step) :
    List.Forall₂ (Outcome.Rel F.Holds)
      ((run onNumbers steps).map (Outcome.map (Number.carrier (F := F))))
      (run (onIntegers F) steps) := by
  rw [← map_value_run, List.forall₂_map_left_iff, List.forall₂_map_right_iff]
  exact List.forall₂_same.2 fun a _ => rel_holds_map a

/-- Four bits with a sign: junk bits, wrapping in both directions, the quotient of the least value,
refusals, a division by zero, and an operand that is the outcome of no step. -/
theorem carriers_hold_integers_four_bits :
    let F : Family := ⟨{ bits := 4 }, true⟩
    let steps : List Step :=
      [.make (.carrier 0x83), .make (.integer 1000), .apply .div 1 0, .neg 1, .integer? 8,
        .apply .add 1 1, .div? 0 5, .apply .div 0 5, .compare 1 0, .apply .max 12 0,
        .apply .mul 2 7]
    let carriers : List (Outcome Carrier) :=
      [.value 3, .value 0xfffffff8, .value 0xfffffffe, .value 0xfffffff8, .refused, .value 0,
        .refused, .value 0xffffffff, .ordering .lt, .undefined, .value 2]
    let integers : List (Outcome Int) :=
      [.value 3, .value (-8), .value (-2), .value (-8), .refused, .value 0, .refused, .value (-1),
        .ordering .lt, .undefined, .value 2]
    (run onNumbers steps).map (Outcome.map (Number.carrier (F := F))) = carriers ∧
      run (onIntegers F) steps = integers ∧
      List.Forall₂ (Outcome.Rel F.Holds) carriers integers := by
  intro F steps carriers integers
  have hcarriers : (run onNumbers steps).map (Outcome.map (Number.carrier (F := F))) = carriers := by
    decide +kernel
  have hintegers : run (onIntegers F) steps = integers := by
    decide +kernel
  have h := carriers_hold_integers F steps
  rw [hcarriers, hintegers] at h
  exact ⟨hcarriers, hintegers, h⟩

end Step

end NarrowInt
