import Mathlib
import NarrowInt.Proofs.Naming

/-!
# Why names are refused

Every text that is no name is refused for one reason. The name of a family is refused for its first
word before its width, and a width for not being a string of digits before its number and its
leading zero. A datatype string and the name of a symbol first lose the words around the name of
the family; what is left is refused as the name of a family is. Only a text that starts as such a
name and ends with no word for an operation has an unknown operation.

Of the words for operations, the first one that the text starts with decides, and otherwise the one
that it ends with. No two words end the same text, so it does not matter in which order they are
tried.

## Main definitions

* `Text.bytes`, `Text.IsDigitByte`: a text in UTF-8, and the codes of the decimal digits
* `Family.RefusesWidth`, `Family.Refuses`, `Family.RefusesDatatype`: why a text is no width, no name
  of a family and no datatype string
* `Symbol.endings`: the operations with a word at the end of the name
* `Symbol.Remains`: what is left of a text when the word for an operation is cut off
* `Symbol.Refuses`: why a text is no name of a symbol

## Main results

* `Family.readWidth_eq_error_iff`, `Family.read_eq_error_iff`, `Family.readDatatype_eq_error_iff`,
  `Symbol.readTrying_eq_error_iff`: the readers refuse texts for these reasons
* `Symbol.readTrying_eq_read`: the order of the operations does not matter
* `Symbol.readers_refuse_for_one_reason`: the errors of all readers of names
-/

namespace NarrowInt

/-! ## Digits

The reader of widths sees characters, and the reason for its refusal is about bytes. Both are the
same because no byte of a character beyond ASCII is the code of a digit. -/

namespace Text

/-- The bytes of a text in UTF-8. -/
def bytes (cs : List Char) : List UInt8 := cs.flatMap String.utf8EncodeChar

/-- The byte is the code of a decimal digit. -/
def IsDigitByte (b : UInt8) : Prop := 48 ≤ b.toNat ∧ b.toNat ≤ 57

theorem forall_mem_utf8EncodeChar_iff {c : Char} :
    (∀ b ∈ String.utf8EncodeChar c, IsDigitByte b) ↔ c.isDigit := by
  have hdigit : c.isDigit ↔ 48 ≤ c.toNat ∧ c.toNat ≤ 57 := Char.isDigit_iff_toNat
  have hval : c.val.toNat = c.toNat := rfl
  rw [hdigit, String.utf8EncodeChar, hval]
  unfold IsDigitByte
  split
  · rw [List.forall_mem_singleton, UInt8.toNat_ofNat']
    omega
  · -- the first of several bytes is 192 or more
    refine iff_of_false (fun h => ?_) (by omega)
    split at h
    on_goal 2 => split at h
    all_goals
      have hfirst := h _ List.mem_cons_self
      rw [UInt8.toNat_ofNat'] at hfirst
      omega

theorem forall_mem_bytes_iff {cs : List Char} :
    (∀ b ∈ bytes cs, IsDigitByte b) ↔ ∀ c ∈ cs, c.isDigit := by
  simp only [bytes, List.forall_mem_flatMap, forall_mem_utf8EncodeChar_iff]

theorem readDigits?_eq_none_iff {cs : List Char} :
    readDigits? cs = none ↔ cs = [] ∨ ∃ b ∈ bytes cs, ¬ IsDigitByte b := by
  have hdigits : (∃ b ∈ bytes cs, ¬ IsDigitByte b) ↔ ¬ ∀ c ∈ cs, c.isDigit := by
    rw [← forall_mem_bytes_iff]
    push Not
    rfl
  unfold readDigits?
  rw [hdigits, ite_eq_right_iff, List.all_eq_true]
  by_cases hne : cs = [] <;> simp [hne]

theorem after?_eq_none_iff_not_prefix {opening cs : List Char} :
    after? opening cs = none ↔ ¬ opening <+: cs := by
  rw [after?_eq_none_iff]
  constructor
  · rintro h ⟨rest, rfl⟩
    exact h rest rfl
  · rintro h rest rfl
    exact h (List.prefix_append _ _)

end Text

/-! ## Names of families -/

namespace Family

/-- Why a text is no width: it is empty or more than digits, or its number is not from 1 to 32, or
it has a superfluous zero. A number that does not fit 32 bits is reported as the largest one. -/
inductive RefusesWidth : List Char → NameError → Prop
  | missing {digits : List Char} (h : digits = [] ∨ ∃ b ∈ Text.bytes digits, ¬ Text.IsDigitByte b) :
      RefusesWidth digits .missingWidth
  | invalid {digits : List Char} {n : Nat} (hne : digits ≠ []) (hdigits : ∀ c ∈ digits, c.isDigit)
      (hn : Nat.ofDigitChars 10 digits 0 = n) (h : ¬ (1 ≤ n ∧ n ≤ 32) ∨ Text.Padded digits) :
      RefusesWidth digits (.invalidWidth (min n (2 ^ 32 - 1)))

/-- Why a text is no name of a family: it does not start as one, or what follows is no width. -/
inductive Refuses : List Char → NameError → Prop
  | unknownLead {cs : List Char} (hsigned : ¬ "SINT".toList <+: cs)
      (hunsigned : ¬ "UINT".toList <+: cs) : Refuses cs .unknownLead
  | signed {digits : List Char} {e : NameError} (h : RefusesWidth digits e) :
      Refuses ("SINT".toList ++ digits) e
  | unsigned {digits : List Char} {e : NameError} (h : RefusesWidth digits e) :
      Refuses ("UINT".toList ++ digits) e

/-- Why a text is no datatype string: it does not stand between the marks of one, or what does is no
name of a family. -/
inductive RefusesDatatype : List Char → NameError → Prop
  | unknownLead {cs : List Char} (h : ∀ inner, cs ≠ "custom[".toList ++ inner ++ "]32".toList) :
      RefusesDatatype cs .unknownLead
  | inner {inner : List Char} {e : NameError} (h : Refuses inner e) :
      RefusesDatatype ("custom[".toList ++ inner ++ "]32".toList) e

theorem ofBits_eq_error_iff {n : Nat} {signed : Bool} {e : NameError} :
    ofBits n signed = .error e ↔ ¬ (1 ≤ n ∧ n ≤ 32) ∧ .invalidWidth n = e := by
  have hnone : ofBits? n signed = none ↔ ¬ (1 ≤ n ∧ n ≤ 32) := by
    rw [ofBits?, Option.map_eq_none_iff, Width.ofNat?_eq_none_iff]
    omega
  rw [← hnone]
  unfold ofBits
  cases ofBits? n signed <;> simp

theorem refusesWidth_iff_of_missing {digits : List Char} {e : NameError}
    (hread : Text.readDigits? digits = none) : RefusesWidth digits e ↔ .missingWidth = e := by
  constructor
  · intro h
    cases h with
    | missing h => rfl
    | invalid hne hdigits hn h =>
      rw [Text.readDigits?_eq_some_iff.2 ⟨hne, hdigits, hn⟩] at hread
      cases hread
  · rintro rfl
    exact .missing (Text.readDigits?_eq_none_iff.1 hread)

theorem refusesWidth_iff_of_number {digits : List Char} {n : Nat} {e : NameError}
    (hread : Text.readDigits? digits = some n) :
    RefusesWidth digits e ↔
      (¬ (1 ≤ n ∧ n ≤ 32) ∨ Text.Padded digits) ∧ .invalidWidth (min n (2 ^ 32 - 1)) = e := by
  obtain ⟨hne, hdigits, hn⟩ := Text.readDigits?_eq_some_iff.1 hread
  constructor
  · intro h
    cases h with
    | missing h =>
      rw [Text.readDigits?_eq_none_iff.2 h] at hread
      cases hread
    | invalid _ _ hn' h =>
      obtain rfl := hn.symm.trans hn'
      exact ⟨h, rfl⟩
  · rintro ⟨h, rfl⟩
    exact .invalid hne hdigits hn h

/-- A text is refused as a width for its reason. -/
theorem readWidth_eq_error_iff {signed : Bool} {digits : List Char} {e : NameError} :
    readWidth signed digits = .error e ↔ RefusesWidth digits e := by
  unfold readWidth
  cases hread : Text.readDigits? digits with
  | none => simp [refusesWidth_iff_of_missing hread]
  | some n =>
    -- the cap is no width, so it leaves the numbers that are widths and those that are none
    have hmax : Text.maxWord = 2 ^ 32 - 1 := rfl
    have hrange : 1 ≤ min n (2 ^ 32 - 1) ∧ min n (2 ^ 32 - 1) ≤ 32 ↔ 1 ≤ n ∧ n ≤ 32 := by omega
    rw [refusesWidth_iff_of_number hread, hmax]
    by_cases hp : Text.Padded digits
    · have hp' : 1 < digits.length ∧ digits.head? = some '0' := hp
      simp [hp, hp']
    · have hp' : ¬ (1 < digits.length ∧ digits.head? = some '0') := hp
      simp only [if_neg hp', ofBits_eq_error_iff, hrange, hp, or_false]

theorem exists_lead_prefix_iff {cs : List Char} :
    (∃ signed, lead signed <+: cs) ↔ "SINT".toList <+: cs ∨ "UINT".toList <+: cs :=
  Bool.exists_bool.trans Or.comm

theorem refuses_lead_append_iff {signed : Bool} {digits : List Char} {e : NameError} :
    Refuses (lead signed ++ digits) e ↔ RefusesWidth digits e := by
  constructor
  · intro h
    -- the text in the relation has to be a variable for the case analysis
    generalize hcs : lead signed ++ digits = cs at h
    cases h with
    | unknownLead hsigned hunsigned =>
      have hlead : "SINT".toList <+: cs ∨ "UINT".toList <+: cs :=
        exists_lead_prefix_iff.1 ⟨signed, digits, hcs⟩
      exact absurd hlead (not_or.2 ⟨hsigned, hunsigned⟩)
    | signed h =>
      obtain ⟨-, rfl⟩ := lead_append_inj (t := true) hcs
      exact h
    | unsigned h =>
      obtain ⟨-, rfl⟩ := lead_append_inj (t := false) hcs
      exact h
  · intro h
    cases signed with
    | true => exact .signed h
    | false => exact .unsigned h

/-- A text is refused as the name of a family for its reason. -/
theorem read_eq_error_iff {cs : List Char} {e : NameError} : read cs = .error e ↔ Refuses cs e := by
  by_cases hlead : ∃ signed digits, cs = lead signed ++ digits
  · obtain ⟨signed, digits, rfl⟩ := hlead
    rw [read_lead_append, readWidth_eq_error_iff, refuses_lead_append_iff]
  · have hne : ∀ signed digits, cs ≠ lead signed ++ digits := fun s d hcs => hlead ⟨s, d, hcs⟩
    rw [read_of_forall_ne hne]
    constructor
    · rintro ⟨⟩
      exact .unknownLead (fun ⟨digits, hcs⟩ => hne true digits hcs.symm)
        fun ⟨digits, hcs⟩ => hne false digits hcs.symm
    · intro h
      cases h with
      | unknownLead => rfl
      | signed h => exact absurd rfl (hne true _)
      | unsigned h => exact absurd rfl (hne false _)

theorem read_eq_unknownLead_iff {cs : List Char} :
    read cs = .error .unknownLead ↔ ¬ "SINT".toList <+: cs ∧ ¬ "UINT".toList <+: cs := by
  rw [read_eq_error_iff]
  refine ⟨fun h => ?_, fun h => .unknownLead h.1 h.2⟩
  cases h with
  | unknownLead hsigned hunsigned => exact ⟨hsigned, hunsigned⟩
  | signed h => cases h
  | unsigned h => cases h

/-- A text is refused as a datatype string for its reason. -/
theorem readDatatype_eq_error_iff {cs : List Char} {e : NameError} :
    readDatatype cs = .error e ↔ RefusesDatatype cs e := by
  unfold readDatatype
  split
  · next inner hcut =>
    have hcs : cs = "custom[".toList ++ inner ++ "]32".toList :=
      Text.after?_bind_before?_eq_some_iff.1 hcut
    rw [hcs, read_eq_error_iff]
    refine ⟨.inner, fun h => ?_⟩
    generalize hcs : "custom[".toList ++ inner ++ "]32".toList = cs at h
    cases h with
    | unknownLead h => exact absurd hcs.symm (h inner)
    | inner h =>
      rw [List.append_left_inj, List.append_right_inj] at hcs
      exact hcs ▸ h
  · next hcut =>
    have hne : ∀ inner, cs ≠ "custom[".toList ++ inner ++ "]32".toList := fun inner hcs => by
      cases hcut.symm.trans (Text.after?_bind_before?_eq_some_iff.2 hcs)
    constructor
    · rintro ⟨⟩
      exact .unknownLead hne
    · intro h
      cases h with
      | unknownLead h => rfl
      | inner h => exact absurd rfl (hne _)

/-- A family name is never refused for an operation or for a missing export. -/
theorem Refuses.ne_unknownOperation_and_ne_notExported {cs : List Char} {e : NameError}
    (h : Refuses cs e) : e ≠ .unknownOperation ∧ e ≠ .notExported := by
  cases h with
  | unknownLead => exact ⟨nofun, nofun⟩
  | signed h => cases h <;> exact ⟨nofun, nofun⟩
  | unsigned h => cases h <;> exact ⟨nofun, nofun⟩

end Family

/-! ## Names of symbols

The words are tried one after another, and a name may match several: `MinSINT8Add` starts with one
word and ends with another. What follows says which one counts, and that the order among the words
at the end is not part of the answer. -/

namespace Symbol

/-- The operations with a word at the end of the name. -/
def endings : List Operation := [.toFloat, .max, .add, .sub, .mul, .div]

theorem mem_endings_iff {op : Operation} : op ∈ endings ↔ opening op = none := by
  cases op <;> decide

/-- What is left of a text when the word for an operation is cut off: one at the start if there is
any, else the one at the end. -/
inductive Remains : List Char → List Char → Prop
  | min (rest : List Char) : Remains ("Min".toList ++ rest) rest
  | fromFloat (rest : List Char) : Remains ("FloatTo".toList ++ rest) rest
  | ending {op : Operation} {rest : List Char} (hop : op ∈ endings)
      (hmin : ¬ "Min".toList <+: rest ++ op.label)
      (hfloat : ¬ "FloatTo".toList <+: rest ++ op.label) : Remains (rest ++ op.label) rest

/-- Why a text is no name of a symbol: it starts as the name of a family but ends with no word for
an operation, or what is left without such a word is no name of a family, or there is neither. -/
inductive Refuses : List Char → NameError → Prop
  | unknownOperation {cs : List Char} (hlead : "SINT".toList <+: cs ∨ "UINT".toList <+: cs)
      (h : ∀ op ∈ endings, ¬ op.label <:+ cs) : Refuses cs .unknownOperation
  | family {cs rest : List Char} {e : NameError} (hrest : Remains cs rest)
      (h : Family.Refuses rest e) : Refuses cs e
  | unknownLead {cs : List Char} (hsigned : ¬ "SINT".toList <+: cs)
      (hunsigned : ¬ "UINT".toList <+: cs) (h : ∀ rest, ¬ Remains cs rest) :
      Refuses cs .unknownLead

theorem splitEnding_eq_none_iff {cs : List Char} {ops : List Operation}
    (hops : ∀ op ∈ endings, op ∈ ops) :
    splitEnding cs ops = none ↔ ∀ op ∈ endings, ¬ op.label <:+ cs := by
  rw [Option.eq_none_iff_forall_ne_some]
  constructor
  · rintro h op hop ⟨rest, rfl⟩
    exact h (rest, op) (splitEnding_eq_some_iff.2 ⟨hops op hop, mem_endings_iff.1 hop, rfl⟩)
  · rintro h ⟨rest, op⟩ hend
    obtain ⟨-, hop, rfl⟩ := splitEnding_eq_some_iff.1 hend
    exact h op (mem_endings_iff.2 hop) (List.suffix_append _ _)

theorem map_read_eq_error_iff {rest : List Char} {op : Operation} {e : NameError} :
    (Family.read rest).map (Symbol.mk · op) = .error e ↔ Family.Refuses rest e := by
  rw [← Family.read_eq_error_iff]
  cases Family.read rest <;> simp [Except.map]

/-- A text that starts with no word for an operation is left to the words at its end. -/
theorem after?_opening_eq_none {cs : List Char} (hmin : ¬ "Min".toList <+: cs)
    (hfloat : ¬ "FloatTo".toList <+: cs) :
    Text.after? ['M', 'i', 'n'] cs = none ∧
      Text.after? ['F', 'l', 'o', 'a', 't', 'T', 'o'] cs = none :=
  ⟨Text.after?_eq_none_iff_not_prefix.2 hmin, Text.after?_eq_none_iff_not_prefix.2 hfloat⟩

section Order

variable {ops : List Operation} (hops : ∀ op ∈ endings, op ∈ ops)

include hops

theorem Refuses.readTrying {cs : List Char} {e : NameError} (h : Refuses cs e) :
    readTrying ops cs = .error e := by
  cases h with
  | unknownOperation hlead h =>
    have hread : Family.read cs ≠ .error .unknownLead := fun hread =>
      absurd hlead (not_or.2 (Family.read_eq_unknownLead_iff.1 hread))
    -- a family name at the start leaves no room for a word there
    obtain ⟨signed, digits, rfl⟩ := Family.exists_lead_prefix_iff.2 hlead
    obtain ⟨hmin, hfloat⟩ := after?_opening_lead signed digits
    rw [Symbol.readTrying, hmin, hfloat, (splitEnding_eq_none_iff hops).2 h]
    dsimp only
    split
    · next hlead => exact absurd hlead hread
    · rfl
  | @family rest _ hrest h =>
    cases hrest with
    | min => exact (readTrying_min ops rest).trans (map_read_eq_error_iff.2 h)
    | fromFloat => exact (readTrying_fromFloat ops rest).trans (map_read_eq_error_iff.2 h)
    | @ending op _ hop hmin hfloat =>
      have hend : splitEnding (rest ++ op.label) ops = some (rest, op) :=
        splitEnding_eq_some_iff.2 ⟨hops op hop, mem_endings_iff.1 hop, rfl⟩
      obtain ⟨hmin, hfloat⟩ := after?_opening_eq_none hmin hfloat
      rw [Symbol.readTrying, hmin, hfloat, hend]
      exact map_read_eq_error_iff.2 h
  | unknownLead hsigned hunsigned h =>
    -- without any of the words nothing can be cut off
    have hmin : ¬ "Min".toList <+: cs := by
      rintro ⟨rest, rfl⟩
      exact h rest (.min rest)
    have hfloat : ¬ "FloatTo".toList <+: cs := by
      rintro ⟨rest, rfl⟩
      exact h rest (.fromFloat rest)
    have hend : ∀ op ∈ endings, ¬ op.label <:+ cs := by
      rintro op hop ⟨rest, rfl⟩
      exact h rest (.ending hop hmin hfloat)
    obtain ⟨hmin, hfloat⟩ := after?_opening_eq_none hmin hfloat
    rw [Symbol.readTrying, hmin, hfloat, (splitEnding_eq_none_iff hops).2 hend,
      Family.read_eq_unknownLead_iff.2 ⟨hsigned, hunsigned⟩]

theorem refuses_of_readTrying {cs : List Char} {e : NameError}
    (h : readTrying ops cs = .error e) : Refuses cs e := by
  unfold Symbol.readTrying at h
  split at h
  · next _ rest hmin =>
    obtain rfl := Text.after?_eq_some_iff.1 hmin
    exact .family (.min rest) (map_read_eq_error_iff.1 h)
  · next _ rest _ hfloat =>
    obtain rfl := Text.after?_eq_some_iff.1 hfloat
    exact .family (.fromFloat rest) (map_read_eq_error_iff.1 h)
  · next hmin hfloat =>
    rw [Text.after?_eq_none_iff_not_prefix] at hmin hfloat
    split at h
    · next rest op hend =>
      obtain ⟨-, hop, rfl⟩ := splitEnding_eq_some_iff.1 hend
      exact .family (.ending (mem_endings_iff.2 hop) hmin hfloat) (map_read_eq_error_iff.1 h)
    · next hend =>
      rw [splitEnding_eq_none_iff hops] at hend
      -- the whole text is read as a family name only to choose the error
      split at h
      · next hread =>
        cases h
        obtain ⟨hsigned, hunsigned⟩ := Family.read_eq_unknownLead_iff.1 hread
        refine .unknownLead hsigned hunsigned fun rest hrest => ?_
        cases hrest with
        | min rest => exact hmin (List.prefix_append _ _)
        | fromFloat rest => exact hfloat (List.prefix_append _ _)
        | ending hop _ _ => exact hend _ hop (List.suffix_append _ _)
      · next hread =>
        cases h
        have hlead : "SINT".toList <+: cs ∨ "UINT".toList <+: cs := by
          by_contra hno
          exact hread (Family.read_eq_unknownLead_iff.2 (not_or.1 hno))
        exact .unknownOperation hlead hend

/-- A text is refused as the name of a symbol for its reason, in whatever order the operations are
tried. -/
theorem readTrying_eq_error_iff {cs : List Char} {e : NameError} :
    readTrying ops cs = .error e ↔ Refuses cs e :=
  ⟨refuses_of_readTrying hops, Refuses.readTrying hops⟩

/-- The order of the operations does not matter, as long as all of them are tried. -/
theorem readTrying_eq_read (cs : List Char) : readTrying ops cs = read cs := by
  have hall : ∀ op ∈ endings, op ∈ Operation.all := fun op _ => Operation.mem_all op
  cases hread : read cs with
  | ok s =>
    refine readTrying_eq_ok_iff.2 ⟨read_eq_ok_iff.1 hread, fun hop => ?_⟩
    exact hops _ (mem_endings_iff.2 hop)
  | error e =>
    exact (Refuses.readTrying hops) (refuses_of_readTrying hall hread)

end Order

theorem read_eq_error_iff {cs : List Char} {e : NameError} : read cs = .error e ↔ Refuses cs e :=
  readTrying_eq_error_iff fun op _ => Operation.mem_all op

theorem read_eq_unknownOperation_iff {cs : List Char} :
    read cs = .error .unknownOperation ↔
      ("SINT".toList <+: cs ∨ "UINT".toList <+: cs) ∧ ∀ op ∈ endings, ¬ op.label <:+ cs := by
  rw [read_eq_error_iff]
  constructor
  · intro h
    cases h with
    | unknownOperation hlead h => exact ⟨hlead, h⟩
    | family hrest h => exact absurd rfl h.ne_unknownOperation_and_ne_notExported.1
  · rintro ⟨hlead, h⟩
    exact .unknownOperation hlead h

theorem read_ne_notExported (cs : List Char) : read cs ≠ .error .notExported := by
  intro hread
  cases read_eq_error_iff.1 hread with
  | family hrest h => exact h.ne_unknownOperation_and_ne_notExported.2 rfl

/-- **The readers of names refuse a text for one reason**, and exactly when there is that reason: as
the name of a family, as a datatype string, and as the name of a symbol. The operation is unknown
exactly where the text starts as the name of a family and ends with no word for an operation, and no
reader of names asks what is exported. The order in which the words at the end are tried makes no
difference to any text. -/
theorem readers_refuse_for_one_reason :
    (∀ (cs : List Char) (e : NameError), Family.read cs = .error e ↔ Family.Refuses cs e) ∧
    (∀ (cs : List Char) (e : NameError),
      Family.readDatatype cs = .error e ↔ Family.RefusesDatatype cs e) ∧
    (∀ (cs : List Char) (e : NameError), Symbol.read cs = .error e ↔ Symbol.Refuses cs e) ∧
    (∀ cs : List Char, Symbol.read cs = .error .unknownOperation ↔
      ("SINT".toList <+: cs ∨ "UINT".toList <+: cs) ∧ ∀ op ∈ endings, ¬ op.label <:+ cs) ∧
    (∀ cs : List Char, Symbol.read cs ≠ .error .notExported) ∧
    ∀ ops : List Operation, ops.Perm Operation.all →
      ∀ cs : List Char, readTrying ops cs = Symbol.read cs := by
  refine ⟨fun cs e => Family.read_eq_error_iff, fun cs e => Family.readDatatype_eq_error_iff,
    fun cs e => read_eq_error_iff, fun cs => read_eq_unknownOperation_iff, read_ne_notExported,
    fun ops hperm cs => readTrying_eq_read (fun op _ => ?_) cs⟩
  exact hperm.mem_iff.2 (Operation.mem_all op)

/-- A width that does not fit 32 bits, with the operations tried backwards. -/
theorem readers_refuse_for_one_reason_overflow :
    let cs := "UINT99999999999Add".toList
    Operation.all.reverse.Perm Operation.all ∧
      readTrying Operation.all.reverse cs = .error (.invalidWidth 4294967295) ∧
      Symbol.Refuses cs (.invalidWidth 4294967295) := by
  intro cs
  have hperm : Operation.all.reverse.Perm Operation.all := List.reverse_perm _
  obtain ⟨-, -, hrefuses, -, -, horder⟩ := readers_refuse_for_one_reason
  have hread : Symbol.read cs = .error (.invalidWidth 4294967295) := by decide
  exact ⟨hperm, (horder _ hperm cs).trans hread, (hrefuses cs _).1 hread⟩

end Symbol

end NarrowInt
