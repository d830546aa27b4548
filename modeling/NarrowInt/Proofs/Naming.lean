import Mathlib
import NarrowInt.Naming.Symbol
import NarrowInt.Proofs.Text.Numeral

/-!
# Reading names

The readers accept the printed names and nothing else. The name of a family starts with one of two
words and ends with a digit, so it can be told from every word before or after it, and the last
letter of a word after it tells the operation.

## Main results

* `Family.read_eq_ok_iff`, `Family.readDatatype_eq_ok_iff`: the texts that denote a family
* `Symbol.splitEnding_eq_some_iff`: the words at the end, in whatever order they are tried
* `Symbol.readTrying_eq_ok_iff`: the texts that denote a symbol
* `Symbol.isAlphanum_of_mem_name`: names are made of letters and digits
* `Symbol.readers_invert_printers`: readers and printers of names are inverse
-/

namespace NarrowInt

namespace Family

theorem ofBits_eq_ok_iff {n : Nat} {signed : Bool} {F : Family} :
    ofBits n signed = .ok F ↔ n = F.width.bits ∧ signed = F.signed := by
  have h : ofBits? n signed = some F ↔ n = F.width.bits ∧ signed = F.signed := by
    obtain ⟨w, s⟩ := F
    rw [ofBits?, Option.map_eq_some_iff]
    constructor
    · rintro ⟨v, hv, hF⟩
      cases hF
      exact ⟨Width.ofNat?_eq_some_iff.1 hv, rfl⟩
    · rintro ⟨hn, hs⟩
      exact ⟨w, Width.ofNat?_eq_some_iff.2 hn, by rw [hs]⟩
  rw [← h]
  unfold ofBits
  cases ofBits? n signed <;> simp

/-- The width is read from its numeral only; a number that does not fit 32 bits is no width. -/
theorem readWidth_eq_ok_iff {signed : Bool} {digits : List Char} {F : Family} :
    readWidth signed digits = .ok F ↔
      digits = Text.decimal F.width.bits ∧ signed = F.signed := by
  rw [← Text.readDigits?_and_not_padded_iff]
  unfold readWidth
  cases Text.readDigits? digits with
  | none => simp
  | some n =>
    by_cases hp : Text.Padded digits
    · have hp' : 1 < digits.length ∧ digits.head? = some '0' := hp
      simp [hp, hp']
    · have hp' : ¬ (1 < digits.length ∧ digits.head? = some '0') := hp
      -- the cap is far above every width, so a capped number is none
      have hle := F.width.le_carrier
      have hmax : Text.maxWord = 4294967295 := rfl
      have hmin : min n Text.maxWord = F.width.bits ↔ n = F.width.bits := by omega
      simp only [if_neg hp', ofBits_eq_ok_iff, hmin, hp, Option.some_inj, not_false_eq_true,
        and_true]

/-- The reader looks for the words that the printer writes. -/
theorem read_eq (cs : List Char) :
    read cs =
      match Text.after? (lead true) cs, Text.after? (lead false) cs with
      | some digits, _ => readWidth true digits
      | none, some digits => readWidth false digits
      | none, none => .error .unknownLead :=
  rfl

theorem lead_append_inj {s t : Bool} {a b : List Char} (h : lead s ++ a = lead t ++ b) :
    s = t ∧ a = b := by
  cases s <;> cases t <;> simp_all [lead]

theorem read_lead_append (signed : Bool) (digits : List Char) :
    read (lead signed ++ digits) = readWidth signed digits := by
  rw [read_eq]
  cases signed with
  | true => rw [Text.after?_append]
  | false =>
    have h : Text.after? (lead true) (lead false ++ digits) = none :=
      Text.after?_eq_none_iff.2 fun rest h => Bool.noConfusion (lead_append_inj h).1
    rw [h, Text.after?_append]

theorem read_of_forall_ne {cs : List Char} (h : ∀ signed digits, cs ≠ lead signed ++ digits) :
    read cs = .error .unknownLead := by
  rw [read_eq, Text.after?_eq_none_iff.2 (h true), Text.after?_eq_none_iff.2 (h false)]

/-- A text denotes a family exactly when it is the name of the family. -/
theorem read_eq_ok_iff {cs : List Char} {F : Family} : read cs = .ok F ↔ cs = F.name := by
  by_cases h : ∃ signed digits, cs = lead signed ++ digits
  · obtain ⟨signed, digits, rfl⟩ := h
    rw [read_lead_append, readWidth_eq_ok_iff, name]
    constructor
    · rintro ⟨rfl, rfl⟩
      rfl
    · intro hname
      obtain ⟨hs, hd⟩ := lead_append_inj hname
      exact ⟨hd, hs⟩
  · have h' : ∀ signed digits, cs ≠ lead signed ++ digits := fun s d hcs => h ⟨s, d, hcs⟩
    rw [read_of_forall_ne h']
    constructor
    · intro hread
      cases hread
    · rintro rfl
      exact absurd rfl (h' _ _)

/-- A text denotes a family as a datatype exactly when it is the datatype string of the family. -/
theorem readDatatype_eq_ok_iff {cs : List Char} {F : Family} :
    readDatatype cs = .ok F ↔ cs = F.datatype := by
  unfold readDatatype datatype
  split
  · next inner h =>
    rw [Text.after?_bind_before?_eq_some_iff.1 h, read_eq_ok_iff, List.append_left_inj,
      List.append_right_inj]
  · next h =>
    constructor
    · intro hread
      cases hread
    · intro hcs
      rw [Text.after?_bind_before?_eq_some_iff.2 hcs] at h
      cases h

theorem name_injective : Function.Injective name := by
  intro F G h
  have hF := read_eq_ok_iff.2 (rfl : F.name = F.name)
  rw [h, read_eq_ok_iff.2 rfl] at hF
  cases hF
  rfl

theorem isDigit_of_getLast?_name {F : Family} {c : Char} (h : F.name.getLast? = some c) :
    c.isDigit := by
  rw [name, List.getLast?_append_of_ne_nil _ (Text.decimal_ne_nil _)] at h
  exact Text.isDigit_of_mem_decimal (List.mem_of_getLast? h)

theorem isAlphanum_of_mem_lead (signed : Bool) : ∀ c ∈ lead signed, c.isAlphanum := by
  cases signed <;> simp [lead]

theorem isAlphanum_of_mem_flag (signed : Bool) : ∀ c ∈ flag signed, c.isAlphanum := by
  cases signed <;> simp [flag]

end Family

namespace Symbol

theorem eq_of_opening_eq_some {op : Operation} {word : List Char} (h : opening op = some word) :
    op = .min ∧ word = "Min".toList ∨ op = .fromFloat ∧ word = "FloatTo".toList := by
  cases op with
  | min => exact .inl ⟨rfl, (Option.some.inj h).symm⟩
  | fromFloat => exact .inr ⟨rfl, (Option.some.inj h).symm⟩
  | _ => cases h

theorem name_of_opening_eq_none {s : Symbol} (h : opening s.operation = none) :
    s.name = s.family.name ++ s.operation.label := by
  rw [name, h]

theorem label_ne_nil (op : Operation) : op.label ≠ [] := by
  cases op <;> exact List.cons_ne_nil _ _

theorem getLast?_label (op : Operation) :
    ∃ c, op.label.getLast? = some c ∧ ¬ c.isDigit := by
  cases op <;> exact ⟨_, rfl, by decide⟩

/-- The words at the end are told apart by their last letters. -/
theorem eq_of_append_label {a b : Operation} (ha : opening a = none) (hb : opening b = none)
    {cs ds : List Char} (h : cs ++ a.label = ds ++ b.label) : a = b := by
  have hlast := congrArg List.getLast? h
  rw [List.getLast?_append_of_ne_nil _ (label_ne_nil a),
    List.getLast?_append_of_ne_nil _ (label_ne_nil b)] at hlast
  have hall : ∀ a ∈ Operation.all, ∀ b ∈ Operation.all, opening a = none → opening b = none →
      a.label.getLast? = b.label.getLast? → a = b := by
    decide
  exact hall a (Operation.mem_all a) b (Operation.mem_all b) ha hb hlast

/-- The text ends with the word of at most one operation, so the order of the operations does not
matter. -/
theorem splitEnding_eq_some_iff {cs rest : List Char} {ops : List Operation} {op : Operation} :
    splitEnding cs ops = some (rest, op) ↔
      op ∈ ops ∧ opening op = none ∧ cs = rest ++ op.label := by
  induction ops with
  | nil => simp [splitEnding]
  | cons op' ops ih =>
    unfold splitEnding
    cases ho : opening op' with
    | some word =>
      rw [if_pos (by rfl), ih, List.mem_cons]
      constructor
      · rintro ⟨hmem, hend⟩
        exact ⟨.inr hmem, hend⟩
      · rintro ⟨rfl | hmem, hnone, hcs⟩
        · rw [ho] at hnone
          cases hnone
        · exact ⟨hmem, hnone, hcs⟩
    | none =>
      rw [if_neg (by simp), List.mem_cons]
      cases hb : Text.before? op'.label cs with
      | some rest' =>
        have hcs' := Text.before?_eq_some_iff.1 hb
        simp only [Option.some_inj, Prod.mk.injEq]
        constructor
        · rintro ⟨rfl, rfl⟩
          exact ⟨.inl rfl, ho, hcs'⟩
        · rintro ⟨-, hnone, hcs⟩
          obtain rfl := eq_of_append_label ho hnone (hcs'.symm.trans hcs)
          exact ⟨List.append_cancel_right (hcs'.symm.trans hcs), rfl⟩
      | none =>
        -- this operation's word does not end the text, so the others decide
        simp only [ih]
        constructor
        · rintro ⟨hmem, hend⟩
          exact ⟨.inr hmem, hend⟩
        · rintro ⟨rfl | hmem, hnone, hcs⟩
          · exact absurd hcs (Text.before?_eq_none_iff.1 hb rest)
          · exact ⟨hmem, hnone, hcs⟩

theorem readTrying_min (ops : List Operation) (rest : List Char) :
    readTrying ops ("Min".toList ++ rest) = (Family.read rest).map (⟨·, .min⟩) := by
  have hmin : Text.after? ['M', 'i', 'n'] ("Min".toList ++ rest) = some rest :=
    Text.after?_append _ rest
  rw [readTrying, hmin]

theorem readTrying_fromFloat (ops : List Operation) (rest : List Char) :
    readTrying ops ("FloatTo".toList ++ rest) = (Family.read rest).map (⟨·, .fromFloat⟩) := by
  have hmin : Text.after? ['M', 'i', 'n'] ("FloatTo".toList ++ rest) = none := rfl
  have hfloat : Text.after? ['F', 'l', 'o', 'a', 't', 'T', 'o'] ("FloatTo".toList ++ rest) =
      some rest :=
    Text.after?_append _ rest
  rw [readTrying, hmin, hfloat]

/-- The name of a family does not start with a word for an operation. -/
theorem after?_opening_lead (signed : Bool) (rest : List Char) :
    Text.after? ['M', 'i', 'n'] (Family.lead signed ++ rest) = none ∧
      Text.after? ['F', 'l', 'o', 'a', 't', 'T', 'o'] (Family.lead signed ++ rest) = none := by
  cases signed <;> exact ⟨rfl, rfl⟩

theorem map_read_eq_ok_iff {rest : List Char} {op : Operation} {s : Symbol} :
    (Family.read rest).map (Symbol.mk · op) = .ok s ↔
      rest = s.family.name ∧ op = s.operation := by
  rw [← Family.read_eq_ok_iff]
  obtain ⟨F, op'⟩ := s
  cases Family.read rest <;> simp [Except.map]

/-- A text denotes a symbol exactly when it is the name of the symbol, if each operation with a word
at the end is tried; the order in which they are tried does not matter. -/
theorem readTrying_eq_ok_iff {ops : List Operation} {cs : List Char} {s : Symbol} :
    readTrying ops cs = .ok s ↔
      cs = s.name ∧ (opening s.operation = none → s.operation ∈ ops) := by
  constructor
  · intro h
    -- whatever was cut off, what is left was read as the name of a family
    unfold readTrying at h
    split at h
    · next rest _ hmin =>
      obtain ⟨rfl, hop⟩ := map_read_eq_ok_iff.1 h
      rw [Text.after?_eq_some_iff.1 hmin, name, ← hop]
      exact ⟨rfl, fun h => by cases h⟩
    · next rest hmin hfloat =>
      obtain ⟨rfl, hop⟩ := map_read_eq_ok_iff.1 h
      rw [Text.after?_eq_some_iff.1 hfloat, name, ← hop]
      exact ⟨rfl, fun h => by cases h⟩
    · split at h
      · next rest op hend =>
        obtain ⟨hmem, hnone, rfl⟩ := splitEnding_eq_some_iff.1 hend
        obtain ⟨rfl, rfl⟩ := map_read_eq_ok_iff.1 h
        exact ⟨(name_of_opening_eq_none hnone).symm, fun _ => hmem⟩
      · split at h <;> cases h
  · rintro ⟨rfl, hmem⟩
    obtain ⟨F, op⟩ := s
    cases ho : opening op with
    | none =>
      -- the family's name comes first, and hides no word at the start
      have hname : name ⟨F, op⟩ = F.name ++ op.label := name_of_opening_eq_none ho
      have hlead : F.name ++ op.label =
          Family.lead F.signed ++ (Text.decimal F.width.bits ++ op.label) :=
        List.append_assoc _ _ _
      obtain ⟨hmin, hfloat⟩ := after?_opening_lead F.signed (Text.decimal F.width.bits ++ op.label)
      have hend : splitEnding (F.name ++ op.label) ops = some (F.name, op) :=
        splitEnding_eq_some_iff.2 ⟨hmem ho, ho, rfl⟩
      rw [← hlead] at hmin hfloat
      rw [hname, readTrying, hmin, hfloat, hend]
      exact map_read_eq_ok_iff.2 ⟨rfl, rfl⟩
    | some word =>
      rcases eq_of_opening_eq_some ho with ⟨rfl, -⟩ | ⟨rfl, -⟩
      · exact (readTrying_min ops _).trans (map_read_eq_ok_iff.2 ⟨rfl, rfl⟩)
      · exact (readTrying_fromFloat ops _).trans (map_read_eq_ok_iff.2 ⟨rfl, rfl⟩)

/-- A text denotes a symbol exactly when it is the name of the symbol. -/
theorem read_eq_ok_iff {cs : List Char} {s : Symbol} : read cs = .ok s ↔ cs = s.name := by
  rw [read, readTrying_eq_ok_iff]
  exact and_iff_left fun _ => Operation.mem_all _

theorem name_injective : Function.Injective name := by
  intro s t h
  have hs := read_eq_ok_iff.2 (rfl : s.name = s.name)
  rw [h, read_eq_ok_iff.2 rfl] at hs
  cases hs
  rfl

theorem isAlphanum_of_mem_opening {op : Operation} {word : List Char}
    (h : opening op = some word) : ∀ c ∈ word, c.isAlphanum := by
  rcases eq_of_opening_eq_some h with ⟨-, rfl⟩ | ⟨-, rfl⟩ <;> simp

theorem isAlphanum_of_mem_label (op : Operation) : ∀ c ∈ op.label, c.isAlphanum := by
  cases op <;> simp [Operation.label]

/-- The name of a symbol is made of letters and digits. -/
theorem isAlphanum_of_mem_name {s : Symbol} {c : Char} (h : c ∈ s.name) : c.isAlphanum := by
  have hfamily : ∀ c ∈ s.family.name, c.isAlphanum := fun c hc =>
    (List.mem_append.1 hc).elim (Family.isAlphanum_of_mem_lead _ c) Text.isAlphanum_of_mem_decimal
  unfold name at h
  split at h
  · next word hword =>
    rcases List.mem_append.1 h with h | h
    · exact isAlphanum_of_mem_opening hword c h
    · exact hfamily c h
  · rcases List.mem_append.1 h with h | h
    · exact hfamily c h
    · exact isAlphanum_of_mem_label _ c h

/-- No family has the name of a symbol: the one starts with another letter, or ends with one. -/
theorem name_ne_family_name (s : Symbol) (F : Family) : s.name ≠ F.name := by
  intro h
  cases ho : opening s.operation with
  | none =>
    obtain ⟨c, hc, hd⟩ := getLast?_label s.operation
    rw [name_of_opening_eq_none ho] at h
    have hlast := List.getLast?_append_of_ne_nil s.family.name (label_ne_nil s.operation)
    rw [h, hc] at hlast
    exact hd (Family.isDigit_of_getLast?_name hlast)
  | some word =>
    obtain ⟨hmin, hfloat⟩ := after?_opening_lead F.signed (Text.decimal F.width.bits)
    rw [name, ho] at h
    rcases eq_of_opening_eq_some ho with ⟨-, rfl⟩ | ⟨-, rfl⟩
    · exact Text.after?_eq_none_iff.1 hmin _ h.symm
    · exact Text.after?_eq_none_iff.1 hfloat _ h.symm

/-- **Readers and printers of names are inverse.** A text denotes a family, a family as a datatype,
or a symbol exactly when it is what is printed for it, and no name is shared. -/
theorem readers_invert_printers :
    (∀ (cs : List Char) (F : Family), Family.read cs = .ok F ↔ cs = F.name) ∧
    (∀ (cs : List Char) (F : Family), Family.readDatatype cs = .ok F ↔ cs = F.datatype) ∧
    (∀ (cs : List Char) (s : Symbol), Symbol.read cs = .ok s ↔ cs = s.name) ∧
    Function.Injective Family.name ∧ Function.Injective Symbol.name ∧
    ∀ (s : Symbol) (F : Family), s.name ≠ F.name :=
  ⟨fun _ _ => Family.read_eq_ok_iff, fun _ _ => Family.readDatatype_eq_ok_iff,
    fun _ _ => read_eq_ok_iff, Family.name_injective, name_injective, name_ne_family_name⟩

/-- A superfluous zero makes another spelling of the width. -/
example : read "SINT08Add".toList = .error (.invalidWidth 8) := by
  decide

end Symbol

end NarrowInt
