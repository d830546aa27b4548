import Mathlib
import NarrowInt.Proofs.Exports.Table

/-!
# What the log holds

Resolving a name leaves one record in the log. A reader of the log takes a line for a record, so a
text with a line feed in it could pass for two of them, and with other control characters for
anything. A name that does not resolve is quoted, and a quoted text has no such character: each of
them is invisible, and escaped. A name that resolves stands in its record unquoted. Nothing in the
record keeps it harmless, but it is the name of a symbol, and these are letters and digits.

## Main definitions

* `Text.isControl`, `Text.breaksLine`: control characters, and characters that end a line
* `Text.Plain`: a text without either
* `LogRecord.Plain`: a record with a plain text

## Main results

* `Text.plain_quote`: quoted texts are plain
* `NameError.plain_message`, `Family.plain_record`: so are the other parts of records
* `WidthSet.resolution_leaves_one_plain_record`: each attempt leaves one record, which is plain
-/

namespace NarrowInt

/-! ## Plain texts -/

namespace Text

/-- The character is a control character: below the blank, or from U+007F to U+009F. -/
def isControl (c : Char) : Bool :=
  decide (c.toNat < 0x20) || decide (0x7f ≤ c.toNat ∧ c.toNat ≤ 0x9f)

/-- The character ends a line: from the line feed to the carriage return, the next line character,
and the separators of lines and of paragraphs. -/
def breaksLine (c : Char) : Bool :=
  decide (0xa ≤ c.toNat ∧ c.toNat ≤ 0xd) || decide (c.toNat = 0x85) ||
    decide (0x2028 ≤ c.toNat ∧ c.toNat ≤ 0x2029)

/-- The text stays on its line: no character is a control character or ends a line. -/
def Plain (cs : List Char) : Prop := ∀ c ∈ cs, ¬ isControl c ∧ ¬ breaksLine c

instance (cs : List Char) : Decidable (Plain cs) :=
  List.decidableBAll (fun c => ¬ isControl c ∧ ¬ breaksLine c) cs

@[simp] theorem plain_nil : Plain [] := List.forall_mem_nil _

@[simp] theorem plain_cons {c : Char} {cs : List Char} :
    Plain (c :: cs) ↔ (¬ isControl c ∧ ¬ breaksLine c) ∧ Plain cs :=
  List.forall_mem_cons

@[simp] theorem plain_append {cs ds : List Char} : Plain (cs ++ ds) ↔ Plain cs ∧ Plain ds :=
  List.forall_mem_append

/-- A character that would not be plain has no visible form. -/
theorem isInvisible_of_not_plain {c : Char} (h : isControl c ∨ breaksLine c) : isInvisible c := by
  have hranges : ∀ r ∈ [(0x0, 0x1f), (0x7f, 0xa0), (0x2028, 0x202f)], r ∈ invisibleRanges := by
    decide +kernel
  have hany : ∀ r ∈ [(0x0, 0x1f), (0x7f, 0xa0), (0x2028, 0x202f)], r.1 ≤ c.toNat → c.toNat ≤ r.2 →
      isInvisible c := by
    intro r hr hlo hhi
    exact List.any_eq_true.2 ⟨r, hranges r hr, by simp [hlo, hhi]⟩
  simp only [isControl, breaksLine, Bool.or_eq_true, decide_eq_true_eq] at h
  rcases h with (h | h) | (h | h) | h
  · exact hany (0x0, 0x1f) (by simp) (Nat.zero_le _) (by omega)
  · exact hany (0x7f, 0xa0) (by simp) h.1 (by omega)
  · exact hany (0x0, 0x1f) (by simp) (Nat.zero_le _) (by omega)
  · exact hany (0x7f, 0xa0) (by simp) (by omega) (by omega)
  · exact hany (0x2028, 0x202f) (by simp) h.1 (by omega)

/-- The characters of ASCII from the blank to the tilde are plain. -/
theorem plain_of_toNat_mem {cs : List Char} (h : ∀ c ∈ cs, 0x20 ≤ c.toNat ∧ c.toNat ≤ 0x7e) :
    Plain cs := by
  intro c hc
  have hbounds := h c hc
  simp only [isControl, breaksLine, Bool.or_eq_true, decide_eq_true_eq]
  omega

theorem plain_of_isAlphanum {cs : List Char} (h : ∀ c ∈ cs, c.isAlphanum) : Plain cs := by
  refine plain_of_toNat_mem fun c hc => ?_
  have halpha := h c hc
  simp only [Char.isAlphanum, Char.isAlpha, Char.isUpper, Char.isLower, Char.isDigit,
    Bool.or_eq_true, Bool.and_eq_true, decide_eq_true_eq, UInt32.le_iff_toNat_le, ge_iff_le]
    at halpha
  change ((65 ≤ c.toNat ∧ c.toNat ≤ 90) ∨ 97 ≤ c.toNat ∧ c.toNat ≤ 122) ∨
    48 ≤ c.toNat ∧ c.toNat ≤ 57 at halpha
  omega

theorem plain_escape (c : Char) : Plain (escape c) := by
  unfold escape
  split
  · decide
  split
  · decide
  split
  · decide
  split
  · decide
  split
  · decide
  split
  · decide
  split
  · have hhex : Plain (hexadecimal c.toNat) :=
      plain_of_isAlphanum fun _ => isAlphanum_of_mem_hexadecimal
    have hmarks : Plain ['\\', 'u', '\x7b'] ∧ Plain ['\x7d'] := by
      decide
    exact plain_append.2 ⟨plain_append.2 ⟨hmarks.1, hhex⟩, hmarks.2⟩
  · -- a character that stands for itself is visible
    next hvisible =>
    rw [Bool.or_eq_true, not_or] at hvisible
    refine plain_cons.2 ⟨⟨fun h => ?_, fun h => ?_⟩, plain_nil⟩
    · exact hvisible.2 (isInvisible_of_not_plain (.inl h))
    · exact hvisible.2 (isInvisible_of_not_plain (.inr h))

/-- A quoted text is plain, whatever it quotes. -/
theorem plain_quote (cs : List Char) : Plain (quote cs) := by
  intro c hc
  simp only [quote, List.cons_append, List.mem_cons, List.mem_append, List.mem_flatMap,
    List.not_mem_nil, or_false] at hc
  rcases hc with rfl | ⟨d, -, hc⟩ | rfl
  · decide
  · exact plain_escape d c hc
  · decide

theorem plain_decimal (n : Nat) : Plain (decimal n) :=
  plain_of_isAlphanum fun _ => isAlphanum_of_mem_decimal

end Text

/-! ## Plain parts of records -/

theorem NameError.plain_message (e : NameError) : Text.Plain e.message.toList := by
  cases e with
  | invalidWidth n =>
    have hends : Text.Plain "width ".toList ∧ Text.Plain " is outside 1..=32".toList := by
      decide
    simp only [message, String.toList_append, String.toList_ofList, Text.plain_append]
    exact ⟨⟨hends.1, Text.plain_decimal n⟩, hends.2⟩
  | _ => decide

theorem Family.plain_record (F : Family) : Text.Plain (F.record {}) := by
  have hwidth : Text.Plain (Text.Layout.integer {} F.width.bits) := by
    rw [Text.Layout.integer_default, if_neg (by omega)]
    exact Text.plain_decimal _
  have hflag : Text.Plain (Text.Layout.word {} (flag F.signed)) := by
    rw [Text.Layout.word_default]
    exact Text.plain_of_isAlphanum (isAlphanum_of_mem_flag F.signed)
  unfold record
  simp only [Text.plain_append, hwidth, hflag, and_true]
  decide

theorem Operation.plain_label (op : Operation) : Text.Plain op.label :=
  Text.plain_of_isAlphanum (Symbol.isAlphanum_of_mem_label op)

/-- The record stays on one line. -/
def LogRecord.Plain (r : LogRecord) : Prop := Text.Plain r.text

namespace WidthSet

variable (W : WidthSet)

/-- The name of a symbol is plain as it stands. -/
theorem plain_resolvedRecord (s : Symbol) : (resolvedRecord s.name s).Plain := by
  have hname : Text.Plain s.name := Text.plain_of_isAlphanum fun _ => Symbol.isAlphanum_of_mem_name
  have hwords : Text.Plain "resolved ".toList ∧ Text.Plain " to ".toList ∧ Text.Plain [' '] := by
    decide
  show Text.Plain ("resolved ".toList ++ s.name ++ " to ".toList ++ s.family.record {} ++
    ([' '] ++ s.operation.label))
  simp only [Text.plain_append]
  exact ⟨⟨⟨⟨hwords.1, hname⟩, hwords.2.1⟩, s.family.plain_record⟩, hwords.2.2,
    s.operation.plain_label⟩

/-- Any other name is quoted. -/
theorem plain_unresolvedRecord (name : List Char) (e : NameError) :
    (unresolvedRecord name e).Plain := by
  have hwords : Text.Plain "cannot resolve ".toList ∧ Text.Plain ": ".toList := by
    decide
  show Text.Plain ("cannot resolve ".toList ++ Text.quote name ++ ": ".toList ++ e.message.toList)
  simp only [Text.plain_append]
  exact ⟨⟨⟨hwords.1, Text.plain_quote name⟩, hwords.2⟩, e.plain_message⟩

/-- **Resolving a name leaves one record, on one line.** Whatever the name holds, the attempt leaves
one record in the log, whose level tells whether there is an entry point, and whose text has no
control character and no end of a line. A name that resolves stands in it as it is: it is the name
of a symbol, so that it holds letters and digits only. -/
theorem resolution_leaves_one_plain_record (name : List Char) :
    ∃ r, (W.resolve name).log = [r] ∧ r.Plain ∧
      (r.level = .trace ↔ (W.resolve name).entry.isSome) ∧
      (r.level = .debug ↔ (W.resolve name).entry = none) ∧
      ((W.resolve name).entry.isSome → "resolved ".toList ++ name <+: r.text) := by
  unfold resolve
  cases hlookup : W.lookup name with
  | ok e =>
    obtain ⟨s, rfl, -, rfl⟩ := W.lookup_eq_ok_iff.1 hlookup
    refine ⟨resolvedRecord s.name s, rfl, plain_resolvedRecord s, ?_, ?_, fun _ => ?_⟩
    · exact iff_of_true rfl rfl
    · exact iff_of_false nofun nofun
    · refine ⟨" to ".toList ++ (s.family.record {} ++ ' ' :: s.operation.label), ?_⟩
      simp only [resolvedRecord, List.append_assoc]
  | error e =>
    refine ⟨unresolvedRecord name e, rfl, plain_unresolvedRecord name e, ?_, ?_, nofun⟩
    · exact iff_of_false nofun nofun
    · exact iff_of_true rfl rfl

/-- A name that resolves, and one with a line feed, which imitates the record of the first. -/
theorem resolution_leaves_one_plain_record_forged :
    ((full.resolve "SINT8Add".toList).entry.isSome ∧
      ∃ r, (full.resolve "SINT8Add".toList).log = [r] ∧ r.level = .trace ∧ r.Plain ∧
        "resolved SINT8Add".toList <+: r.text ∧
        r.text = "resolved SINT8Add to Key \x7b width: 8, signed: true \x7d Add".toList) ∧
    (full.resolve "x\nTRACE resolved SINT8Add to Key".toList).entry = none ∧
      ∃ r, (full.resolve "x\nTRACE resolved SINT8Add to Key".toList).log = [r] ∧
        r.level = .debug ∧ r.Plain := by
  have hsome : (full.resolve "SINT8Add".toList).entry.isSome := by
    decide +kernel
  have hlog : (full.resolve "SINT8Add".toList).log = [⟨.trace,
      "resolved SINT8Add to Key \x7b width: 8, signed: true \x7d Add".toList⟩] := by
    decide +kernel
  have hnone : (full.resolve "x\nTRACE resolved SINT8Add to Key".toList).entry = none := by
    decide +kernel
  obtain ⟨r, hr, hplain, htrace, -, hname⟩ :=
    full.resolution_leaves_one_plain_record "SINT8Add".toList
  have htext := List.singleton_inj.1 (hr.symm.trans hlog)
  obtain ⟨r', hr', hplain', -, hdebug', -⟩ :=
    full.resolution_leaves_one_plain_record "x\nTRACE resolved SINT8Add to Key".toList
  exact ⟨⟨hsome, r, hr, htrace.2 hsome, hplain, hname hsome, congrArg LogRecord.text htext⟩,
    hnone, r', hr', hdebug'.2 hnone, hplain'⟩

end WidthSet

end NarrowInt
