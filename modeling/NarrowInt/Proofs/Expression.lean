import Mathlib
import NarrowInt.Proofs.Residue

/-!
# Expressions

An expression is a tree of sums, differences, products and negations over carriers. Evaluated step
by step in a family it gives the number of its exact integer value, whatever overflows on the way.
So it can as well be evaluated in a wider family, with or without a sign, and narrowed once at the
end.

## Main definitions

* `Expression`: the trees
* `Expression.number`, `Expression.exact`: the number of a tree in a family, and its exact value

## Main results

* `Expression.number_eq_ofInt`: the number of a tree is that of its exact value
* `Number.ofCarrier_carrier_ofInt`: narrowing keeps the integer
* `Expression.narrowing_commutes_with_evaluation`: one evaluation serves all narrower families, and
  the numbers of a family are a ring
-/

namespace NarrowInt

/-- A tree of operations that need the significant bits of their operands only. -/
inductive Expression
  | carrier (c : Carrier)
  | neg (a : Expression)
  | add (a b : Expression)
  | sub (a b : Expression)
  | mul (a b : Expression)

/-- The number of an integer in a wider family narrows to the number of the integer. -/
theorem Number.ofCarrier_carrier_ofInt {F G : Family} (h : F.width.bits ≤ G.width.bits) (v : Int) :
    (ofCarrier (ofInt v : Number G).carrier : Number F) = ofInt v := by
  rw [ofInt_eq_ofCarrier, ofInt_eq_ofCarrier, ofCarrier_eq_iff]
  exact Family.canonical_canonical_of_le h _

namespace Expression

/-- The number of an expression, each operation carried out in the family. -/
def number (F : Family) : Expression → Number F
  | carrier c => .ofCarrier c
  | neg a => -a.number F
  | add a b => a.number F + b.number F
  | sub a b => a.number F - b.number F
  | mul a b => a.number F * b.number F

/-- The exact value of an expression. -/
def exact : Expression → Int
  | carrier c => c.toNat
  | neg a => -a.exact
  | add a b => a.exact + b.exact
  | sub a b => a.exact - b.exact
  | mul a b => a.exact * b.exact

/-- The number of an expression is that of its exact value, whatever overflows on the way. -/
theorem number_eq_ofInt (F : Family) (e : Expression) : e.number F = .ofInt e.exact := by
  induction e with
  | carrier c =>
    refine Number.value_injective ?_
    rw [number, exact, Number.value_ofCarrier, Number.value_ofInt]
  | neg a ha => rw [number, exact, ha, Number.ofInt_neg]
  | add a b ha hb => rw [number, exact, ha, hb, Number.ofInt_add]
  | sub a b ha hb => rw [number, exact, ha, hb, Number.ofInt_sub]
  | mul a b ha hb => rw [number, exact, ha, hb, Number.ofInt_mul]

/-- The significant bits of an expression are the remainder of its exact value. -/
theorem toNat_significant_number (F : Family) (e : Expression) :
    ((e.number F).significant.toNat : Int) = e.exact % 2 ^ F.width.bits := by
  rw [number_eq_ofInt, Number.toNat_significant_ofInt]

/-- The significant bits do not depend on the signedness. -/
theorem significant_number_eq (e : Expression) (w : Width) (s t : Bool) :
    (e.number ⟨w, s⟩).significant = (e.number ⟨w, t⟩).significant := by
  have hs := e.toNat_significant_number ⟨w, s⟩
  have ht := e.toNat_significant_number ⟨w, t⟩
  exact BitVec.eq_of_toNat_eq (Int.ofNat_inj.1 (hs.trans ht.symm))

/-- **Narrowing commutes with evaluation.** An expression evaluated in one family gives the number
that its evaluation in any wider family narrows to, and its significant bits are the remainder of
its exact value, the same with and without a sign. So the numbers of a family of `w` bits are a
commutative ring under the operations of the family, and their significant bits identify it with the
integers modulo `2 ^ w`. -/
theorem narrowing_commutes_with_evaluation :
    (∀ (e : Expression) (F G : Family), F.width.bits ≤ G.width.bits →
      e.number F = .ofCarrier (e.number G).carrier) ∧
    (∀ (e : Expression) (F : Family),
      ((e.number F).significant.toNat : Int) = e.exact % 2 ^ F.width.bits) ∧
    (∀ (e : Expression) (w : Width) (s t : Bool),
      (e.number ⟨w, s⟩).significant = (e.number ⟨w, t⟩).significant) ∧
    ∀ F : Family, ∃ (R : CommRing (Number F)) (φ : Number F ≃+* ZMod (2 ^ F.width.bits)),
      (∀ a b, R.add a b = a.add b) ∧ (∀ a b, R.mul a b = a.mul b) ∧ (∀ a, R.neg a = a.neg) ∧
      R.zero = .zero ∧ R.one = .one ∧ ∀ x, (φ x).val = x.significant.toNat := by
  refine ⟨fun e F G h => ?_, fun e F => e.toNat_significant_number F, significant_number_eq,
    fun F => ⟨inferInstance, Number.residueEquiv, fun _ _ => rfl, fun _ _ => rfl, fun _ => rfl,
      rfl, rfl, Number.val_residue⟩⟩
  rw [number_eq_ofInt, number_eq_ofInt, Number.ofCarrier_carrier_ofInt h]

/-- A product that overflows 32 bits, less a carrier with junk bits, in 4 and in 32 bits. -/
def overflowing : Expression :=
  .sub (.mul (.carrier 0xffffffff) (.carrier 0xabcd0007)) (.carrier 0x12)

theorem narrowing_commutes_with_evaluation_overflowing :
    (4 ≤ 32) ∧ overflowing.number ⟨{ bits := 4 }, true⟩ =
      .ofCarrier (overflowing.number ⟨{ bits := 32 }, false⟩).carrier :=
  ⟨by decide, narrowing_commutes_with_evaluation.1 overflowing ⟨{ bits := 4 }, true⟩
    ⟨{ bits := 32 }, false⟩ (by decide)⟩

end Expression

end NarrowInt
