import Mathlib
import NarrowInt.Calculator
import NarrowInt.Proofs.Computation
import NarrowInt.Proofs.Floating.Product

/-!
# A calculator on integers

A calculator keeps two numbers, and its instructions can be read as instructions for a calculator
that keeps two integers: every exact result is wrapped into the domain, and what becomes a float
becomes the nearest one and comes back without its fraction. Both go through the same integers,
whatever is told to them, and say the same.

## Main definitions

* `Calculator.Registers`: the integers in the accumulator and in the memory
* `Calculator.Means`: an instruction on integers, with its remark
* `Calculator.Follows`: a list of instructions on integers

## Main results

* `Calculator.means_step`: an instruction has its meaning
* `Calculator.Means.registers_eq`: the meaning determines the integers
* `Calculator.follows_run`: a session goes through the integers that its instructions mean, and
  through no others
-/

namespace NarrowInt.Calculator

/-- The integers in the accumulator and in the memory. -/
structure Registers where
  accumulator : Int
  memory : Int

variable {F : Family}

/-- The integers that a calculator keeps. -/
def registers (s : Calculator F) : Registers := ⟨s.accumulator.value, s.memory.value⟩

/-- The integer of an operand. -/
def Operand.exact (F : Family) (r : Registers) : Operand → Int
  | .carrier c => F.wrap c.toNat
  | .accumulator => r.accumulator
  | .memory => r.memory
  | .least => F.least
  | .greatest => F.greatest
  | .one => F.wrap 1
  | .zero => 0

theorem value_operand (s : Calculator F) (x : Operand) :
    (s.operand x).value = x.exact F s.registers := by
  cases x with
  | carrier c => exact Number.value_ofCarrier c
  | accumulator => rfl
  | memory => rfl
  | least => exact Number.value_least
  | greatest => exact Number.value_greatest
  | one => exact Number.value_one
  | zero => exact Number.value_zero

/-- The operation and its operands, for the instructions that are one. -/
def Instruction.arithmetic? : Instruction → Option (Arithmetic × Operand × Operand)
  | .add x => some (.add, .accumulator, x)
  | .sub x => some (.sub, .accumulator, x)
  | .subFrom x => some (.sub, x, .accumulator)
  | .mul x => some (.mul, .accumulator, x)
  | .div x => some (.div, .accumulator, x)
  | .divInto x => some (.div, x, .accumulator)
  | .max x => some (.max, .accumulator, x)
  | .min x => some (.min, .accumulator, x)
  | _ => none

/-- The accumulator is replaced. -/
def Registers.load (r : Registers) (v : Int) : Registers := ⟨v, r.memory⟩

/-- The accumulator is replaced by the exact value of a float without its fraction, wrapped into the
domain; a NaN and the infinities leave zero. -/
def Registers.loadFloat (F : Family) (r : Registers) (x : Option ℚ) : Registers :=
  r.load (F.wrap ((x.map towardZero).getD 0))

/-- What an instruction does to the integers, and the remark that it leaves. -/
inductive Means (F : Family) (r : Registers) : Instruction → Registers → Remark → Prop
  | load (x : Operand) : Means F r (.load x) (r.load (x.exact F r)) .silent
  | save : Means F r .save ⟨r.accumulator, r.accumulator⟩ .silent
  | apply {i : Instruction} {f : Arithmetic} {x y : Operand}
      (hi : i.arithmetic? = some (f, x, y)) :
      Means F r i (r.load (F.wrap (f.exact (x.exact F r) (y.exact F r)))) .silent
  | quotient {x : Operand} (hx : x.exact F r ≠ 0) :
      Means F r (.checkedDiv x) (r.load (F.wrap (r.accumulator.tdiv (x.exact F r)))) .silent
  | noQuotient {x : Operand} (hx : x.exact F r = 0) : Means F r (.checkedDiv x) r .refused
  | neg : Means F r .neg (r.load (F.wrap (-r.accumulator))) .silent
  | compare (x : Operand) :
      Means F r (.compare x) r (.ordering (Ord.compare r.accumulator (x.exact F r)))
  | viaSingle {p : Single} (hp : Format.single.IsNearest r.accumulator p.toNat) :
      Means F r .viaSingle (r.loadFloat F p.datum.value?) (.single p)
  | viaDouble {p : Double} (hp : Format.double.IsNearest r.accumulator p.toNat)
      (hval : p.datum.value? = some (r.accumulator : ℚ)) : Means F r .viaDouble r (.double p)
  | scale {k : Single} {p : Double} (hp : Double.IsProduct r.accumulator k p) :
      Means F r (.scale k) (r.loadFloat F p.datum.value?) (.double p)
  | shift {d : Int} (hd : F.Contains ((r.accumulator + d).bmod (2 ^ 64))) :
      Means F r (.shift d) (r.load ((r.accumulator + d).bmod (2 ^ 64))) .silent
  | noShift {d : Int} (hd : ¬ F.Contains ((r.accumulator + d).bmod (2 ^ 64))) :
      Means F r (.shift d) r .refused
  | print : Means F r .print r
      (.written (Text.Layout.integer {} r.accumulator)
        (Number.ofInt r.accumulator : Number F).inspect)

/-! ## One instruction -/

theorem registers_withAccumulator (s : Calculator F) (x : Number F) :
    (s.withAccumulator x).registers = s.registers.load x.value := rfl

theorem registers_ofDouble (s : Calculator F) (p : Double) :
    (s.withAccumulator (.ofDouble p)).registers = s.registers.loadFloat F p.datum.value? := by
  rw [registers_withAccumulator, Number.value_ofDouble, Datum.truncate_eq]
  rfl

theorem registers_ofSingle (s : Calculator F) (p : Single) :
    (s.withAccumulator (.ofSingle p)).registers = s.registers.loadFloat F p.datum.value? := by
  rw [registers_withAccumulator, Number.value_ofSingle, Datum.truncate_eq]
  rfl

theorem step_of_arithmetic? (s : Calculator F) {i : Instruction} {f : Arithmetic} {x y : Operand}
    (hi : i.arithmetic? = some (f, x, y)) :
    s.step i = s.yield (f.onNumbers (s.operand x) (s.operand y)) := by
  cases i <;> cases hi <;> rfl

/-- An operation on two operands. -/
theorem means_of_arithmetic? (s : Calculator F) {i : Instruction} {f : Arithmetic} {x y : Operand}
    (hi : i.arithmetic? = some (f, x, y)) :
    Means F s.registers i (s.step i).1.registers (s.step i).2 := by
  have hload : (s.withAccumulator (f.onNumbers (s.operand x) (s.operand y))).registers =
      s.registers.load (F.wrap (f.exact (x.exact F s.registers) (y.exact F s.registers))) := by
    rw [registers_withAccumulator, f.value_onNumbers, s.value_operand, s.value_operand]
  rw [s.step_of_arithmetic? hi, yield, hload]
  exact .apply hi

theorem means_checkedDiv (s : Calculator F) (x : Operand) :
    Means F s.registers (.checkedDiv x) (s.step (.checkedDiv x)).1.registers
      (s.step (.checkedDiv x)).2 := by
  have hx := s.value_operand x
  rw [step, Number.div?_eq]
  by_cases h₀ : (s.operand x).value = 0
  · rw [if_pos h₀]
    exact .noQuotient (hx ▸ h₀)
  · rw [if_neg h₀]
    have hquotient : (s.withAccumulator (s.accumulator / s.operand x)).registers =
        s.registers.load (F.wrap (s.registers.accumulator.tdiv (x.exact F s.registers))) := by
      rw [registers_withAccumulator, Number.value_div, if_neg h₀, hx]
      rfl
    rw [yield?, yield, hquotient]
    exact .quotient (hx ▸ h₀)

theorem means_shift (s : Calculator F) (d : Int) :
    Means F s.registers (.shift d) (s.step (.shift d)).1.registers (s.step (.shift d)).2 := by
  have hsum : wideSum s.accumulator.value d = (s.registers.accumulator + d).bmod (2 ^ 64) :=
    BitVec.toInt_ofInt _
  rw [step]
  -- the wrapped sum of 64 bits is what has to lie in the domain
  cases h : (Number.ofInt? (wideSum s.accumulator.value d) : Option (Number F)) with
  | none =>
    rw [Number.ofInt?_eq_none_iff, hsum] at h
    exact .noShift h
  | some x =>
    have hx := Number.ofInt?_eq_some_iff.1 h
    rw [hsum] at hx
    have hcontains := x.contains_value
    show Means F s.registers (.shift d) (s.registers.load x.value) .silent
    rw [hx] at hcontains ⊢
    exact .shift hcontains

/-- An instruction has its meaning. -/
theorem means_step (s : Calculator F) (i : Instruction) :
    Means F s.registers i (s.step i).1.registers (s.step i).2 := by
  cases i with
  | load x =>
    have h := Means.load (F := F) (r := s.registers) x
    rwa [← s.value_operand] at h
  | save => exact .save
  | checkedDiv x => exact s.means_checkedDiv x
  | neg =>
    have h := Means.neg (F := F) (r := s.registers)
    rwa [show s.registers.accumulator = s.accumulator.value from rfl, ← Number.value_neg] at h
  | compare x =>
    have h := Means.compare (F := F) (r := s.registers) x
    rwa [← s.value_operand] at h
  | viaSingle =>
    have h := Means.viaSingle (F := F) (r := s.registers) s.accumulator.isNearest_toSingle
    rwa [← s.registers_ofSingle] at h
  | viaDouble =>
    have h := Means.viaDouble (F := F) (r := s.registers) s.accumulator.isNearest_toDouble
      s.accumulator.value?_toDouble
    -- what the float holds is the value itself, and comes back
    have hback :
        (s.withAccumulator (.ofDouble s.accumulator.toDouble)).registers = s.registers := by
      have hv := Number.value_ofDouble_of_contains (F := F) s.accumulator.value?_toDouble
      rw [towardZero_intCast] at hv
      rw [registers_withAccumulator, hv s.accumulator.contains_value]
      rfl
    show Means F s.registers .viaDouble
      (s.withAccumulator (.ofDouble s.accumulator.toDouble)).registers
      (.double s.accumulator.toDouble)
    rw [hback]
    exact h
  | scale k =>
    have h := Means.scale (F := F) (r := s.registers) (s.accumulator.isProduct_scaled k)
    rwa [← s.registers_ofDouble] at h
  | shift d => exact s.means_shift d
  | print =>
    have h := Means.print (F := F) (r := s.registers)
    rwa [show s.registers.accumulator = s.accumulator.value from rfl, Number.ofInt_value] at h
  | _ => exact s.means_of_arithmetic? rfl

/-- The meaning of an instruction determines the integers. -/
theorem Means.registers_eq {r r₁ r₂ : Registers} {i : Instruction} {m₁ m₂ : Remark}
    (h₁ : Means F r i r₁ m₁) (h₂ : Means F r i r₂ m₂) : r₁ = r₂ := by
  cases h₁ with
  | apply hi =>
    cases h₂ with
    | apply hi' =>
      cases hi.symm.trans hi'
      rfl
    | _ => cases hi
  | quotient hx =>
    cases h₂ with
    | quotient _ => rfl
    | noQuotient h₀ => exact absurd h₀ hx
    | apply hi => cases hi
  | noQuotient h₀ =>
    cases h₂ with
    | quotient hx => exact absurd h₀ hx
    | noQuotient _ => rfl
    | apply hi => cases hi
  | viaSingle hp =>
    cases h₂ with
    | viaSingle hq => rw [hp.unique hq]
    | apply hi => cases hi
  | scale hp =>
    cases h₂ with
    | scale hq => rw [hp.value?_eq hq]
    | apply hi => cases hi
  | shift hd =>
    cases h₂ with
    | shift _ => rfl
    | noShift hd' => exact absurd hd hd'
    | apply hi => cases hi
  | noShift hd' =>
    cases h₂ with
    | shift hd => exact absurd hd hd'
    | noShift _ => rfl
    | apply hi => cases hi
  | _ =>
    -- the instructions that leave no choice
    cases h₂ with
    | apply hi => cases hi
    | _ => rfl

/-! ## Sessions -/

/-- What a list of instructions does to the integers, one after another, with the remarks. -/
inductive Follows (F : Family) : Registers → List Instruction → List (Registers × Remark) → Prop
  | nil (r : Registers) : Follows F r [] []
  | cons {r r' : Registers} {i : Instruction} {m : Remark} {is : List Instruction}
      {rest : List (Registers × Remark)} (h : Means F r i r' m) (hrest : Follows F r' is rest) :
      Follows F r (i :: is) ((r', m) :: rest)

theorem Follows.map_fst_eq {r : Registers} {is : List Instruction}
    {out₁ out₂ : List (Registers × Remark)} (h₁ : Follows F r is out₁) (h₂ : Follows F r is out₂) :
    out₁.map Prod.fst = out₂.map Prod.fst := by
  induction h₁ generalizing out₂ with
  | nil =>
    cases h₂
    rfl
  | cons h _ ih =>
    cases h₂ with
    | cons h' hrest =>
      obtain rfl := h.registers_eq h'
      rw [List.map_cons, List.map_cons, ih hrest]

/-- **A session of any length** goes through the integers that its instructions mean, with the
remarks that they leave, and no other reading of the instructions leads to other integers. -/
theorem follows_run (s : Calculator F) (is : List Instruction) :
    Follows F s.registers is ((s.run is).map fun o => (o.1.registers, o.2)) ∧
      ∀ out, Follows F s.registers is out →
        out.map Prod.fst = (s.run is).map fun o => o.1.registers := by
  have hrun : Follows F s.registers is ((s.run is).map fun o => (o.1.registers, o.2)) := by
    -- each instruction starts from the state that the one before it has left
    induction is generalizing s with
    | nil => exact .nil _
    | cons i is ih => exact .cons (s.means_step i) (ih (s.step i).1)
  refine ⟨hrun, fun out hout => ?_⟩
  rw [hout.map_fst_eq hrun, List.map_map]
  rfl

end NarrowInt.Calculator
