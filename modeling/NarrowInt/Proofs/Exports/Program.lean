import Mathlib
import NarrowInt.Exports.Program
import NarrowInt.Proofs.Exports.Routine
import NarrowInt.Proofs.Exports.Table

/-!
# What programs come to

What a program of calls comes to can be told without its table and its routines: a callee stands for
a symbol, the symbol for an operation of a family, and each call is answered by what the operation
means for its arguments. A carrier that one family made is read anew by the next. The answers of a
program are the only ones that follow these rules, so junk bits of given carriers never show, and a
program whose arguments are of the right kinds gets a result from every call of an entry point that
exists.

## Main definitions

* `Callee.Denotes`, `Callee.Lacks`: the symbol of a callee, and the reason not to call it
* `WidthSet.Answers`, `WidthSet.Follows`: the answers that follow the rules
* `WidthSet.Typed`: every argument is of the kind that its place takes
* `Call.Agree`: the same call, junk bits of given carriers aside

## Main results

* `WidthSet.find_eq_ok_iff`, `WidthSet.find_eq_error_iff`: the callees that have an entry point
* `WidthSet.answers_iff`, `WidthSet.follows_iff`: one answer, and the answers of a program
* `WidthSet.Typed.mismatched_notMem`: arguments of the right kinds fit
* `WidthSet.run_meets_reference`: what every program comes to
-/

namespace NarrowInt

/-- The symbol that a callee stands for. -/
def Callee.Denotes : Callee → Symbol → Prop
  | .name cs, s => cs = s.name
  | .symbol t, s => t = s

/-- Why a callee has no entry point: it is no name of a symbol, or its width is not in the set. -/
inductive Callee.Lacks (W : WidthSet) : Callee → NameError → Prop
  | unreadable {cs : List Char} {e : NameError} (h : Symbol.read cs = .error e) :
      Lacks W (.name cs) e
  | notExported {callee : Callee} {s : Symbol} (hs : callee.Denotes s) (hw : s.family.width ∉ W) :
      Lacks W callee .notExported

theorem Callee.Denotes.unique {callee : Callee} {s t : Symbol} (hs : callee.Denotes s)
    (ht : callee.Denotes t) : s = t := by
  cases callee with
  | name cs => exact Symbol.name_injective (hs.symm.trans ht)
  | symbol u => exact hs.symm.trans ht

/-- A callee without an entry point stands for no symbol whose width is in the set. -/
theorem Callee.Lacks.not_mem {W : WidthSet} {callee : Callee} {e : NameError} {s : Symbol}
    (h : callee.Lacks W e) (hs : callee.Denotes s) : s.family.width ∉ W := by
  cases h with
  | unreadable h =>
    rw [Symbol.read_eq_ok_iff.2 hs] at h
    cases h
  | notExported ht hw => exact hs.unique ht ▸ hw

namespace WidthSet

variable (W : WidthSet)

theorem find_name (cs : List Char) : W.find (.name cs) = (Symbol.read cs).bind W.entryPoint := rfl

theorem find_of_denotes {callee : Callee} {s : Symbol} (h : callee.Denotes s) :
    W.find callee = W.entryPoint s := by
  cases callee with
  | name cs =>
    rw [find_name, Symbol.read_eq_ok_iff.2 h]
    rfl
  | symbol t =>
    cases h
    rfl

/-- An entry point is found exactly for the symbols whose width is in the set, and it is their
own. -/
theorem find_eq_ok_iff {callee : Callee} {e : EntryPoint} :
    W.find callee = .ok e ↔
      ∃ s : Symbol, callee.Denotes s ∧ s.family.width ∈ W ∧ e = .of s := by
  cases callee with
  | name cs => exact W.lookup_eq_ok_iff
  | symbol t =>
    change W.entryPoint t = .ok e ↔ _
    rw [entryPoint_eq]
    constructor
    · intro h
      split at h
      · next hw =>
        cases h
        exact ⟨t, rfl, hw, rfl⟩
      · cases h
    · rintro ⟨s, rfl, hw, rfl⟩
      rw [if_pos hw]

theorem find_eq_error_iff {callee : Callee} {e : NameError} :
    W.find callee = .error e ↔ callee.Lacks W e := by
  constructor
  · intro h
    by_cases hs : ∃ s, callee.Denotes s
    · -- the callee names a symbol, so only the table can refuse it
      obtain ⟨s, hs⟩ := hs
      rw [W.find_of_denotes hs, entryPoint_eq] at h
      split at h
      · cases h
      · next hw =>
        cases h
        exact .notExported hs hw
    · cases callee with
      | name cs =>
        rw [find_name] at h
        cases hread : Symbol.read cs with
        | ok s => exact absurd ⟨s, Symbol.read_eq_ok_iff.1 hread⟩ hs
        | error err =>
          rw [hread] at h
          cases h
          exact .unreadable hread
      | symbol t => exact absurd ⟨t, rfl⟩ hs
  · intro h
    cases h with
    | unreadable h =>
      rw [find_name, h]
      rfl
    | notExported hs hw => rw [W.find_of_denotes hs, entryPoint_eq, if_neg hw]

/-! ## Answers -/

/-- The answers that a call may have, given the results of the calls so far: what the operation
means for the arguments, a mismatch if they are not of the kinds that it takes, or the reason not to
call it. -/
inductive Answers (results : List Cell) (call : Call) : Answer → Prop
  | value {s : Symbol} {cells : List Cell} {c : Cell} (hs : call.callee.Denotes s)
      (hw : s.family.width ∈ W)
      (hargs : call.arguments.mapM (Argument.cell? results) = some cells)
      (h : s.family.Means s.operation cells c) : Answers results call (.value c)
  | mismatched {s : Symbol} (hs : call.callee.Denotes s) (hw : s.family.width ∈ W)
      (h : ∀ cells, call.arguments.mapM (Argument.cell? results) = some cells →
        cells.map Cell.kind ≠ s.operation.convention.takes) : Answers results call .mismatched
  | refused {e : NameError} (h : call.callee.Lacks W e) : Answers results call (.refused e)

/-- The lists of answers that the calls of a program may have, given the results of the calls so
far. -/
inductive Follows : List Cell → List Call → List Answer → Prop
  | nil {results : List Cell} : Follows results [] []
  | cons {results : List Cell} {call : Call} {a : Answer} {calls : List Call}
      {answers : List Answer} (h : W.Answers results call a)
      (rest : Follows (results ++ [a.cell]) calls answers) :
      Follows results (call :: calls) (a :: answers)

variable {W}

/-- The answer to a call is the only one that it may have. -/
theorem answers_iff {results : List Cell} {call : Call} {a : Answer} :
    W.Answers results call a ↔ a = W.answer results call := by
  constructor
  · intro h
    unfold answer
    cases h with
    | value hs hw hargs h =>
      rw [W.find_eq_ok_iff.2 ⟨_, hs, hw, rfl⟩, hargs]
      simp only [Option.bind_some, EntryPoint.of, Routine.call_of_eq_some_iff.2 h]
    | mismatched hs hw h =>
      rw [W.find_eq_ok_iff.2 ⟨_, hs, hw, rfl⟩]
      cases hargs : call.arguments.mapM (Argument.cell? results) with
      | none => rfl
      | some cells =>
        simp only [Option.bind_some, EntryPoint.of, Routine.call_of_eq_none_iff.2 (h cells hargs)]
    | refused h => rw [W.find_eq_error_iff.2 h]
  · rintro rfl
    unfold answer
    split
    · next e he => exact .refused (W.find_eq_error_iff.1 he)
    · next e he =>
      obtain ⟨s, hs, hw, rfl⟩ := W.find_eq_ok_iff.1 he
      -- the routine found is that of the operation, so it has a result when the meaning has one
      split
      · next c hc =>
        obtain ⟨cells, hargs, hc⟩ := Option.bind_eq_some_iff.1 hc
        exact .value hs hw hargs (Routine.call_of_eq_some_iff.1 hc)
      · next hc =>
        refine .mismatched hs hw fun cells hargs => ?_
        rw [hargs] at hc
        exact Routine.call_of_eq_none_iff.1 hc

/-- The answers of a program are the only ones that its calls may have. -/
theorem follows_iff {results : List Cell} {calls : List Call} {answers : List Answer} :
    W.Follows results calls answers ↔ answers = W.runFrom results calls := by
  -- on both sides the cell of each answer joins the results for the calls after it
  induction calls generalizing results answers with
  | nil =>
    constructor
    · intro h
      cases h
      rfl
    · rintro rfl
      exact .nil
  | cons call calls ih =>
    constructor
    · intro h
      cases h with
      | cons h rest =>
        obtain rfl := answers_iff.1 h
        rw [ih.1 rest]
        rfl
    · rintro rfl
      exact .cons (answers_iff.2 rfl) (ih.2 rfl)

/-- A carrier in an answer is canonical for the family of the call. -/
theorem Answers.canonical {results : List Cell} {call : Call} {c : Carrier}
    (h : W.Answers results call (.value (.carrier c))) :
    ∃ s, call.callee.Denotes s ∧ s.family.canonical c = c := by
  cases h with
  | value hs hw hargs h => exact ⟨_, hs, h.canonical⟩

end WidthSet

/-- The answer to the call is no carrier, or one that is canonical for the family of the call. -/
def Call.CanonicalAnswer (call : Call) (a : Answer) : Prop :=
  ∀ c, a = .value (.carrier c) → ∃ s, call.callee.Denotes s ∧ s.family.canonical c = c

theorem WidthSet.Follows.canonical {W : WidthSet} {results : List Cell} {calls : List Call}
    {answers : List Answer} (h : W.Follows results calls answers) :
    List.Forall₂ Call.CanonicalAnswer calls answers := by
  induction h with
  | nil => exact .nil
  | cons h rest ih =>
    refine .cons ?_ ih
    rintro c rfl
    exact h.canonical

/-! ## Kinds of arguments -/

/-- The kind of an argument, given the kinds of the results so far. -/
def Argument.kind? (kinds : List Kind) : Argument → Option Kind
  | cell c => some c.kind
  | result i => kinds[i]?

theorem Argument.kind?_map (results : List Cell) (a : Argument) :
    a.kind? (results.map Cell.kind) = (a.cell? results).map Cell.kind := by
  cases a with
  | cell c => rfl
  | result i => exact List.getElem?_map

theorem Argument.mapM_kind? (results : List Cell) (arguments : List Argument) :
    arguments.mapM (Argument.kind? (results.map Cell.kind)) =
      (arguments.mapM (Argument.cell? results)).map (List.map Cell.kind) := by
  induction arguments with
  | nil => rfl
  | cons a arguments ih =>
    rw [List.mapM_cons, List.mapM_cons, ih, a.kind?_map]
    cases a.cell? results with
    | none => rfl
    | some c =>
      cases arguments.mapM (Argument.cell? results) with
      | none => rfl
      | some cells => rfl

namespace WidthSet

variable (W : WidthSet)

/-- Each argument of the calls is of the kind that its place takes, given the kinds of the results
so far. What a call gives when its entry point does not exist counts as a carrier. -/
inductive Typed : List Kind → List Call → Prop
  | nil {kinds : List Kind} : Typed kinds []
  | exported {kinds : List Kind} {call : Call} {calls : List Call} {s : Symbol}
      (hs : call.callee.Denotes s) (hw : s.family.width ∈ W)
      (hargs : call.arguments.mapM (Argument.kind? kinds) = some s.operation.convention.takes)
      (rest : Typed (kinds ++ [s.operation.convention.gives]) calls) : Typed kinds (call :: calls)
  | missing {kinds : List Kind} {call : Call} {calls : List Call}
      (h : ∀ s, call.callee.Denotes s → s.family.width ∉ W)
      (rest : Typed (kinds ++ [.carrier]) calls) : Typed kinds (call :: calls)

variable {W}

/-- A program whose arguments are of the right kinds has no mismatch. -/
theorem Typed.mismatched_notMem {kinds : List Kind} {calls : List Call} (ht : W.Typed kinds calls)
    {results : List Cell} {answers : List Answer} (hk : results.map Cell.kind = kinds)
    (h : W.Follows results calls answers) : .mismatched ∉ answers := by
  -- the invariant: the kinds are those of the results so far
  induction ht generalizing results answers with
  | nil =>
    cases h
    exact List.not_mem_nil
  | exported hs hw hargs rest ih =>
    cases h with
    | cons h hrest =>
      rw [← hk, Argument.mapM_kind?, Option.map_eq_some_iff] at hargs
      obtain ⟨cells, hcells, hkinds⟩ := hargs
      cases h with
      | value ht hw' hargs h =>
        obtain rfl := hs.unique ht
        rw [List.mem_cons, not_or]
        refine ⟨nofun, ih ?_ hrest⟩
        rw [List.map_append, hk]
        exact congrArg (_ ++ [·]) h.kind_eq
      | mismatched ht hw' h =>
        obtain rfl := hs.unique ht
        exact absurd hkinds (h cells hcells)
      | refused h => exact absurd hw (h.not_mem hs)
  | missing hmiss rest ih =>
    cases h with
    | cons h hrest =>
      cases h with
      | value hs hw => exact absurd hw (hmiss _ hs)
      | mismatched hs hw => exact absurd hw (hmiss _ hs)
      | refused h =>
        rw [List.mem_cons, not_or]
        refine ⟨nofun, ih ?_ hrest⟩
        rw [List.map_append, hk]
        rfl

end WidthSet

/-! ## Junk bits of given carriers -/

/-- The same argument, junk bits of a given carrier aside. -/
inductive Argument.Agree (w : Width) : Argument → Argument → Prop
  | cell {c d : Cell} (h : Cell.Agree w c d) : Agree w (.cell c) (.cell d)
  | result (i : Nat) : Agree w (.result i) (.result i)

/-- The same call, junk bits of given carriers aside: those beyond the width of the family of the
call. -/
structure Call.Agree (a b : Call) : Prop where
  callee : a.callee = b.callee
  arguments : ∀ s, a.callee.Denotes s →
    List.Forall₂ (Argument.Agree s.family.width) a.arguments b.arguments

theorem Argument.Agree.symm {w : Width} {a b : Argument} (h : Agree w a b) : Agree w b a := by
  cases h with
  | cell h => exact .cell h.symm
  | result i => exact .result i

theorem Argument.mapM_agree {w : Width} {results : List Cell} {as bs : List Argument}
    (h : List.Forall₂ (Argument.Agree w) as bs) {cells : List Cell}
    (hcells : as.mapM (Argument.cell? results) = some cells) :
    ∃ cells', bs.mapM (Argument.cell? results) = some cells' ∧
      List.Forall₂ (Cell.Agree w) cells cells' := by
  induction h generalizing cells with
  | nil =>
    cases hcells
    exact ⟨[], rfl, .nil⟩
  | @cons a b as bs hab _ ih =>
    rw [List.mapM_cons] at hcells
    obtain ⟨c, hc, hcells⟩ := Option.bind_eq_some_iff.1 hcells
    obtain ⟨cs, hcs, hcells⟩ := Option.bind_eq_some_iff.1 hcells
    cases hcells
    obtain ⟨ds, hds, hagree⟩ := ih hcs
    -- cells of the program itself agree, and both programs take the same earlier results
    have hd : ∃ d, b.cell? results = some d ∧ Cell.Agree w c d := by
      cases hab with
      | cell h =>
        cases hc
        exact ⟨_, rfl, h⟩
      | result i => exact ⟨c, hc, .refl c⟩
    obtain ⟨d, hd, hcd⟩ := hd
    exact ⟨d :: ds, by rw [List.mapM_cons, hd, hds]; rfl, .cons hcd hagree⟩

theorem Cell.map_kind_eq {w : Width} {cells cells' : List Cell}
    (h : List.Forall₂ (Cell.Agree w) cells cells') :
    cells.map Cell.kind = cells'.map Cell.kind := by
  induction h with
  | nil => rfl
  | cons h _ ih => rw [List.map_cons, List.map_cons, h.kind_eq, ih]

namespace WidthSet

variable {W : WidthSet}

/-- Calls that agree may have the same answers. -/
theorem Answers.congr {results : List Cell} {call call' : Call} {a : Answer}
    (h : W.Answers results call a) (hcall : call.Agree call') : W.Answers results call' a := by
  obtain ⟨callee, arguments⟩ := call
  obtain ⟨callee', arguments'⟩ := call'
  obtain ⟨hcallee, hagree⟩ := hcall
  cases hcallee
  cases h with
  | value hs hw hargs h =>
    obtain ⟨cells', hargs', hcells⟩ := Argument.mapM_agree (hagree _ hs) hargs
    exact .value hs hw hargs' (h.congr hcells)
  | mismatched hs hw h =>
    -- cells that fit the other call would agree with cells that fit this one
    refine .mismatched hs hw fun cells' hargs' => ?_
    have hback := (hagree _ hs).flip.imp fun _ _ h => h.symm
    obtain ⟨cells, hargs, hcells⟩ := Argument.mapM_agree hback hargs'
    rw [Cell.map_kind_eq hcells]
    exact h cells hargs
  | refused h => exact .refused h

/-- Programs whose calls agree may have the same answers. -/
theorem Follows.congr {results : List Cell} {calls calls' : List Call} {answers : List Answer}
    (h : W.Follows results calls answers) (hcalls : List.Forall₂ Call.Agree calls calls') :
    W.Follows results calls' answers := by
  induction h generalizing calls' with
  | nil =>
    cases hcalls
    exact .nil
  | cons h rest ih =>
    cases hcalls with
    | cons hcall hcalls => exact .cons (h.congr hcall) (ih hcalls)

/-- **What every program comes to.** The answers of a program are the only ones that follow the
meanings of its calls, and every carrier among them is canonical for the family of its call. If all
arguments are of the right kinds, then every call of an entry point that exists has a result. Junk
bits of given carriers change no answer. -/
theorem run_meets_reference (W : WidthSet) :
    (∀ (calls : List Call) (answers : List Answer),
      W.Follows [] calls answers ↔ answers = W.run calls) ∧
    (∀ calls : List Call, List.Forall₂ Call.CanonicalAnswer calls (W.run calls)) ∧
    (∀ calls : List Call, W.Typed [] calls → .mismatched ∉ W.run calls) ∧
    ∀ calls calls' : List Call, List.Forall₂ Call.Agree calls calls' →
      W.run calls = W.run calls' := by
  have hrun : ∀ calls : List Call, W.Follows [] calls (W.run calls) := fun calls =>
    follows_iff.2 rfl
  refine ⟨fun calls answers => follows_iff, fun calls => (hrun calls).canonical, ?_, ?_⟩
  · intro calls ht
    exact ht.mismatched_notMem rfl (hrun calls)
  · intro calls calls' hcalls
    exact follows_iff.1 ((hrun calls).congr hcalls)

/-- A sum in four bits, the same in five, the carrier of the first plus one in eight bits without a
sign, and the difference of the last two results. -/
def sumThenSuccessor (a b : Carrier) : List Call :=
  [⟨.name "SINT4Add".toList, [.cell (.carrier a), .cell (.carrier b)]⟩,
    ⟨.name "SINT5Add".toList, [.cell (.carrier 5), .cell (.carrier 4)]⟩,
    ⟨.name "UINT8Add".toList, [.result 0, .cell (.carrier 1)]⟩,
    ⟨.symbol ⟨⟨{ bits := 8 }, false⟩, .sub⟩, [.result 1, .result 2]⟩]

/-- 5 plus 4 wraps to -7 in four bits, and eight bits read that carrier as 249. Without five bits in
the set the second sum has no result, and counts as the carrier 0. -/
theorem run_sumThenSuccessor :
    let W : WidthSet := ofPredicate fun w => w.bits = 4 ∨ w.bits = 8
    let calls := sumThenSuccessor 0xabcd0005 0x12340004
    let answers : List Answer :=
      [.value (.carrier 0xfffffff9), .refused .notExported, .value (.carrier 0xfa),
        .value (.carrier 6)]
    W.Follows [] calls answers ∧ List.Forall₂ Call.CanonicalAnswer calls answers ∧
      W.Typed [] calls ∧ .mismatched ∉ answers ∧
      List.Forall₂ Call.Agree calls (sumThenSuccessor 5 4) ∧
      W.run (sumThenSuccessor 5 4) = answers := by
  intro W calls answers
  obtain ⟨hfollows, hcanonical, htyped, hagree⟩ := run_meets_reference W
  have hanswers : W.run calls = answers := by
    decide +kernel
  have hadd : (Callee.name "SINT4Add".toList).Denotes ⟨⟨{ bits := 4 }, true⟩, .add⟩ := rfl
  have hmissing : (Callee.name "SINT5Add".toList).Denotes ⟨⟨{ bits := 5 }, true⟩, .add⟩ := rfl
  have hnext : (Callee.name "UINT8Add".toList).Denotes ⟨⟨{ bits := 8 }, false⟩, .add⟩ := rfl
  have hfour : (⟨4, by decide, by decide⟩ : Width) ∈ W := by decide
  have hfive : (⟨5, by decide, by decide⟩ : Width) ∉ W := by decide
  have height : (⟨8, by decide, by decide⟩ : Width) ∈ W := by decide
  have ht : W.Typed [] calls := by
    refine .exported hadd hfour rfl (.missing ?_ (.exported hnext height rfl
      (.exported rfl height rfl .nil)))
    intro s hs
    obtain rfl := hmissing.unique hs
    exact hfive
  have hcalls : List.Forall₂ Call.Agree calls (sumThenSuccessor 5 4) := by
    refine .cons ⟨rfl, fun s hs => ?_⟩ (.cons ⟨rfl, fun s hs => ?_⟩ (.cons ⟨rfl, fun s hs => ?_⟩
      (.cons ⟨rfl, fun s hs => ?_⟩ .nil)))
    · obtain rfl := hadd.unique hs
      refine .cons (.cell (.carrier ?_)) (.cons (.cell (.carrier ?_)) .nil) <;> decide
    · exact .cons (.cell (.refl _)) (.cons (.cell (.refl _)) .nil)
    · exact .cons (.result 0) (.cons (.cell (.refl _)) .nil)
    · exact .cons (.result 1) (.cons (.result 2) .nil)
  refine ⟨(hfollows _ _).2 hanswers.symm, hanswers ▸ hcanonical calls, ht, hanswers ▸ htyped calls ht,
    hcalls, ?_⟩
  rw [← hagree _ _ hcalls, hanswers]

end WidthSet

end NarrowInt
