import Mathlib
import NarrowInt.Build.Generation
import NarrowInt.Proofs.Text.Blank
import NarrowInt.Proofs.Text.Numeral

/-!
# The language of width lists

A list of widths is what stands between its commas. White space around the pieces does not matter,
pieces of nothing else are skipped, and each of the others is a width or two widths around the first
dash, in this order. Such a list denotes the set of all widths in its ranges, however they are
ordered, repeated or overlap. Any other list is refused for its leftmost piece that is no range: for
its first width before its second, and for these before their order.

## Main definitions

* `Numeral`, `Width.Written`, `Span.Written`: the texts of a number, of a width and of a range
* `Width.Refused`, `Span.Refused`: the texts that are none, and why
* `WidthSet.Piece`, `WidthSet.Covers`: the pieces of a list, and the widths in their ranges
* `WidthSet.Denotes`, `WidthSet.Refuses`: the set that a list denotes, and why it denotes none
* `Generation.stopped`: a run that stops with an explanation

## Main results

* `readNumeral?_eq_some_iff`, `Width.read_eq_ok_iff`, `Span.read_eq_ok_iff`: the readers accept
  these texts
* `Width.read_eq_error_iff`, `Span.read_eq_error_iff`: they refuse the others, for these reasons
* `WidthSet.read_meets_language`: the reader of lists accepts what denotes a set, and what it
  refuses fails the generation
-/

namespace NarrowInt

/-! ## Readings that may fail -/

section Reading

variable {α β ε : Type} {f : α → Except ε β}

section Total

variable {x : Except ε β} {Accepted : β → Prop} {Rejected : ε → Prop}
  (hok : ∀ {b}, Accepted b → x = .ok b) (herror : ∀ {e}, Rejected e → x = .error e)
  (htotal : (∃ b, Accepted b) ∨ ∃ e, Rejected e)

include hok herror htotal

theorem eq_ok_iff_of_total {b : β} : x = .ok b ↔ Accepted b := by
  refine ⟨fun h => ?_, hok⟩
  rcases htotal with ⟨b', hb⟩ | ⟨e, he⟩
  · cases (hok hb).symm.trans h
    exact hb
  · cases (herror he).symm.trans h

theorem eq_error_iff_of_total {e : ε} : x = .error e ↔ Rejected e := by
  refine ⟨fun h => ?_, herror⟩
  rcases htotal with ⟨b, hb⟩ | ⟨e', he⟩
  · cases (hok hb).symm.trans h
  · cases (herror he).symm.trans h
    exact he

end Total

theorem mapM_cons_eq_ok_iff {a : α} {xs : List α} {ys : List β} :
    (a :: xs).mapM f = .ok ys ↔ ∃ y zs, f a = .ok y ∧ xs.mapM f = .ok zs ∧ y :: zs = ys := by
  rw [List.mapM_cons]
  cases f a with
  | error e => exact ⟨nofun, nofun⟩
  | ok y =>
    cases xs.mapM f with
    | error e => exact ⟨nofun, nofun⟩
    | ok zs =>
      constructor
      · rintro ⟨⟩
        exact ⟨y, zs, rfl, rfl, rfl⟩
      · rintro ⟨_, _, ⟨⟩, ⟨⟩, rfl⟩
        rfl

theorem mapM_cons_eq_error_iff {a : α} {xs : List α} {e : ε} :
    (a :: xs).mapM f = .error e ↔
      f a = .error e ∨ (∃ y, f a = .ok y) ∧ xs.mapM f = .error e := by
  rw [List.mapM_cons]
  cases f a with
  | error e' =>
    -- the rest is not looked at
    constructor
    · rintro ⟨⟩
      exact .inl rfl
    · rintro (⟨⟨⟩⟩ | ⟨⟨_, ⟨⟩⟩, -⟩)
      rfl
  | ok y =>
    cases xs.mapM f with
    | error e' =>
      constructor
      · rintro ⟨⟩
        exact .inr ⟨⟨y, rfl⟩, rfl⟩
      · rintro (⟨⟨⟩⟩ | ⟨-, ⟨⟩⟩)
        rfl
    | ok zs => exact ⟨nofun, nofun⟩

/-- A traversal succeeds if every element does, and finds what they give. -/
theorem mapM_eq_ok {xs : List α} {ys : List β} (h : xs.mapM f = .ok ys) :
    (∀ x ∈ xs, ∃ y, f x = .ok y) ∧ ∀ y, y ∈ ys ↔ ∃ x ∈ xs, f x = .ok y := by
  induction xs generalizing ys with
  | nil =>
    cases h
    simp
  | cons x xs ih =>
    obtain ⟨y, zs, hx, hxs, rfl⟩ := mapM_cons_eq_ok_iff.1 h
    obtain ⟨hall, hmem⟩ := ih hxs
    refine ⟨List.forall_mem_cons.2 ⟨⟨y, hx⟩, hall⟩, fun y' => ?_⟩
    rw [List.exists_mem_cons_iff, List.mem_cons, hmem, hx, Except.ok.injEq, eq_comm]

/-- A traversal fails as its first failing element does. -/
theorem mapM_eq_error_iff {xs : List α} {e : ε} :
    xs.mapM f = .error e ↔ ∃ before x after, xs = before ++ x :: after ∧
      (∀ b ∈ before, ∃ y, f b = .ok y) ∧ f x = .error e := by
  induction xs with
  | nil =>
    rw [List.mapM_nil]
    constructor
    · intro h
      cases h
    · rintro ⟨before, x, after, h, -⟩
      cases before <;> cases h
  | cons a xs ih =>
    rw [mapM_cons_eq_error_iff, ih]
    constructor
    · rintro (ha | ⟨ha, before, x, after, rfl, hbefore, hx⟩)
      · exact ⟨[], a, xs, rfl, nofun, ha⟩
      · exact ⟨a :: before, x, after, rfl, List.forall_mem_cons.2 ⟨ha, hbefore⟩, hx⟩
    · rintro ⟨before, x, after, h, hbefore, hx⟩
      cases before with
      | nil =>
        cases h
        exact .inl hx
      | cons b before =>
        -- the head comes before the failing element, so it succeeds
        cases h
        obtain ⟨hb, hbefore⟩ := List.forall_mem_cons.1 hbefore
        exact .inr ⟨hb, before, x, after, rfl, hbefore, hx⟩

end Reading

/-! ## Numbers -/

/-- Decimal digits, after at most one plus sign, of a number that fits 32 bits. -/
def Numeral (cs : List Char) (n : Nat) : Prop :=
  ∃ sign digits, cs = sign ++ digits ∧ (sign = [] ∨ sign = ['+']) ∧ digits ≠ [] ∧
    (∀ c ∈ digits, c.isDigit) ∧ Nat.ofDigitChars 10 digits 0 = n ∧ n < 2 ^ 32

theorem readNumeral?_eq_some_iff {cs : List Char} {n : Nat} :
    readNumeral? cs = some n ↔ Numeral cs n := by
  have hmax : n ≤ Text.maxWord ↔ n < 2 ^ 32 := Nat.lt_succ_iff.symm
  unfold readNumeral? Numeral
  rw [Option.filter_eq_some_iff, Text.readDigits?_eq_some_iff, decide_eq_true_eq, hmax]
  cases hsign : Text.after? ['+'] cs with
  | some digits =>
    obtain rfl := Text.after?_eq_some_iff.1 hsign
    constructor
    · rintro ⟨⟨hne, hdigits, hn⟩, hlt⟩
      exact ⟨['+'], digits, rfl, .inr rfl, hne, hdigits, hn, hlt⟩
    · rintro ⟨sign, digits', h, rfl | rfl, hne, hdigits, hn, hlt⟩
      · -- a plus sign is no digit
        rw [List.nil_append] at h
        exact absurd (hdigits '+' (h ▸ List.mem_cons_self)) (by decide)
      · cases h
        exact ⟨⟨hne, hdigits, hn⟩, hlt⟩
  | none =>
    constructor
    · rintro ⟨⟨hne, hdigits, hn⟩, hlt⟩
      exact ⟨[], cs, rfl, .inl rfl, hne, hdigits, hn, hlt⟩
    · rintro ⟨sign, digits, rfl, rfl | rfl, hne, hdigits, hn, hlt⟩
      · exact ⟨⟨hne, hdigits, hn⟩, hlt⟩
      · exact absurd rfl (Text.after?_eq_none_iff.1 hsign digits)

/-! ## Widths -/

namespace Width

/-- The text is a numeral of the width, white space aside. -/
def Written (cs : List Char) (w : Width) : Prop := ∃ ds, Text.Trimmed cs ds ∧ Numeral ds w.bits

/-- Why a text is no width: it is no numeral, or the number is not from 1 to 32. -/
inductive Refused (cs : List Char) : SelectionError → Prop
  | notAWidth {ds : List Char} (ht : Text.Trimmed cs ds) (h : ∀ n, ¬ Numeral ds n) :
      Refused cs (.notAWidth cs)
  | outsideRange {ds : List Char} {n : Nat} (ht : Text.Trimmed cs ds) (h : Numeral ds n)
      (hn : n = 0 ∨ 32 < n) : Refused cs (.outsideRange n)

theorem read_eq_ok_iff {cs : List Char} {w : Width} : read cs = .ok w ↔ Written cs w := by
  unfold read Written
  simp only [← Text.trim_eq_iff, ← readNumeral?_eq_some_iff, exists_eq_left']
  cases readNumeral? (Text.trim cs) with
  | none => simp
  | some n =>
    rw [Option.some_inj, ← ofNat?_eq_some_iff]
    dsimp only
    cases ofNat? n with
    | none => exact ⟨nofun, nofun⟩
    | some v => rw [Except.ok.injEq, Option.some_inj]

theorem read_eq_error_iff {cs : List Char} {e : SelectionError} :
    read cs = .error e ↔ Refused cs e := by
  have ht := Text.trimmed_trim cs
  constructor
  · intro h
    unfold read at h
    split at h
    · next hnone =>
      cases h
      refine .notAWidth ht fun n hn => ?_
      rw [readNumeral?_eq_some_iff.2 hn] at hnone
      cases hnone
    · next n hsome =>
      split at h
      · cases h
      · next hrange =>
        cases h
        exact .outsideRange ht (readNumeral?_eq_some_iff.1 hsome) (ofNat?_eq_none_iff.1 hrange)
  · intro h
    unfold read
    cases h with
    | notAWidth ht' h =>
      -- a text has one trimmed form only
      obtain rfl := ht'.unique
      rw [Option.eq_none_iff_forall_ne_some.2 fun n hn => h n (readNumeral?_eq_some_iff.1 hn)]
    | outsideRange ht' h hn =>
      obtain rfl := ht'.unique
      rw [readNumeral?_eq_some_iff.2 h]
      simp only [ofNat?_eq_none_iff.2 hn]

theorem written_or_refused (cs : List Char) : (∃ w, Written cs w) ∨ ∃ e, Refused cs e := by
  cases h : read cs with
  | ok w => exact .inl ⟨w, read_eq_ok_iff.1 h⟩
  | error e => exact .inr ⟨e, read_eq_error_iff.1 h⟩

end Width

/-! ## Ranges -/

namespace Span

/-- The text of a range: a width, or two widths around the first dash, in order. -/
inductive Written : List Char → Span → Prop
  | width {cs : List Char} {w : Width} (hdash : '-' ∉ cs) (h : w.Written cs) :
      Written cs ⟨w, w, Nat.le_refl _⟩
  | range {a b : List Char} {v w : Width} (hdash : '-' ∉ a) (hv : v.Written a) (hw : w.Written b)
      (hle : v.bits ≤ w.bits) : Written (a ++ '-' :: b) ⟨v, w, hle⟩

/-- Why a text is no range: its first width is none, or only its second is none, or their order is
wrong. -/
inductive Refused : List Char → SelectionError → Prop
  | width {cs : List Char} {e : SelectionError} (hdash : '-' ∉ cs) (h : Width.Refused cs e) :
      Refused cs e
  | lower {a b : List Char} {e : SelectionError} (hdash : '-' ∉ a) (h : Width.Refused a e) :
      Refused (a ++ '-' :: b) e
  | upper {a b : List Char} {v : Width} {e : SelectionError} (hdash : '-' ∉ a)
      (hv : v.Written a) (h : Width.Refused b e) : Refused (a ++ '-' :: b) e
  | order {a b : List Char} {v w : Width} (hdash : '-' ∉ a) (hv : v.Written a) (hw : w.Written b)
      (hlt : w.bits < v.bits) : Refused (a ++ '-' :: b) (.emptyRange (a ++ '-' :: b))

theorem Written.read {cs : List Char} {s : Span} (h : Written cs s) : Span.read cs = .ok s := by
  unfold Span.read
  cases h with
  | width hdash h =>
    rw [Text.cut?_eq_none_iff.2 hdash]
    simp only [Width.read_eq_ok_iff.2 h]
    rfl
  | range hdash hv hw hle =>
    rw [Text.cut?_eq_some_iff.2 ⟨rfl, hdash⟩]
    simp only [Width.read_eq_ok_iff.2 hv, Width.read_eq_ok_iff.2 hw]
    exact dif_pos hle

theorem Refused.read {cs : List Char} {e : SelectionError} (h : Refused cs e) :
    Span.read cs = .error e := by
  unfold Span.read
  cases h with
  | width hdash h =>
    rw [Text.cut?_eq_none_iff.2 hdash]
    simp only [Width.read_eq_error_iff.2 h]
    rfl
  | lower hdash h =>
    rw [Text.cut?_eq_some_iff.2 ⟨rfl, hdash⟩]
    simp only [Width.read_eq_error_iff.2 h]
    rfl
  | upper hdash hv h =>
    rw [Text.cut?_eq_some_iff.2 ⟨rfl, hdash⟩]
    simp only [Width.read_eq_ok_iff.2 hv, Width.read_eq_error_iff.2 h]
    rfl
  | order hdash hv hw hlt =>
    rw [Text.cut?_eq_some_iff.2 ⟨rfl, hdash⟩]
    simp only [Width.read_eq_ok_iff.2 hv, Width.read_eq_ok_iff.2 hw]
    exact dif_neg (Nat.not_le.2 hlt)

/-- A text is a range, or there is a reason why it is none. -/
theorem written_or_refused (cs : List Char) : (∃ s, Written cs s) ∨ ∃ e, Refused cs e := by
  cases hcut : Text.cut? '-' cs with
  | none =>
    have hdash := Text.cut?_eq_none_iff.1 hcut
    rcases Width.written_or_refused cs with ⟨w, hw⟩ | ⟨e, he⟩
    · exact .inl ⟨_, .width hdash hw⟩
    · exact .inr ⟨e, .width hdash he⟩
  | some sides =>
    obtain ⟨rfl, hdash⟩ := Text.cut?_eq_some_iff.1 hcut
    rcases Width.written_or_refused sides.1 with ⟨v, hv⟩ | ⟨e, he⟩
    · rcases Width.written_or_refused sides.2 with ⟨w, hw⟩ | ⟨e, he⟩
      · rcases Nat.lt_or_ge w.bits v.bits with hlt | hle
        · exact .inr ⟨_, .order hdash hv hw hlt⟩
        · exact .inl ⟨_, .range hdash hv hw hle⟩
      · exact .inr ⟨e, .upper hdash hv he⟩
    · exact .inr ⟨e, .lower hdash he⟩

theorem read_eq_ok_iff {cs : List Char} {s : Span} : read cs = .ok s ↔ Written cs s :=
  eq_ok_iff_of_total Written.read Refused.read (written_or_refused cs)

theorem read_eq_error_iff {cs : List Char} {e : SelectionError} :
    read cs = .error e ↔ Refused cs e :=
  eq_error_iff_of_total Written.read Refused.read (written_or_refused cs)

end Span

/-! ## Lists -/

/-- A run that stops: it has reported what it depends on, and its message names the setting, quotes
the text and ends with an explanation. -/
def Generation.stopped (text explanation : List Char) : Generation where
  report := ["cargo:rerun-if-changed=build.rs".toList,
    "cargo:rerun-if-env-changed=SOFT_BITINT_WIDTHS".toList]
  result := .failure ("invalid SOFT_BITINT_WIDTHS=".toList ++ Text.quote text ++ ": ".toList ++
    explanation)

namespace WidthSet

/-- The text stands between commas of the list, white space around it aside, and is not blank. -/
def Piece (cs piece : List Char) : Prop :=
  ∃ part ∈ cs.splitOn ',', Text.Trimmed part piece ∧ piece ≠ []

/-- The width lies in the range of a piece. -/
def Covers (cs : List Char) (w : Width) : Prop :=
  ∃ piece s, Piece cs piece ∧ Span.Written piece s ∧ s.lower.bits ≤ w.bits ∧ w.bits ≤ s.upper.bits

/-- The list has a piece, every piece is a range, and the set holds the widths in the ranges. -/
structure Denotes (cs : List Char) (W : WidthSet) : Prop where
  exists_piece : ∃ piece, Piece cs piece
  written : ∀ piece, Piece cs piece → ∃ s, Span.Written piece s
  mem_iff : ∀ w, w ∈ W ↔ Covers cs w

/-- Why a list denotes no set: its leftmost piece that is no range is none for this reason, or it
has no piece. -/
inductive Refuses (cs : List Char) : SelectionError → Prop
  | piece {before after : List (List Char)} {part piece : List Char} {e : SelectionError}
      (hcs : cs.splitOn ',' = before ++ part :: after)
      (hbefore : ∀ p ∈ before, ∀ ds, Text.Trimmed p ds → ds ≠ [] → ∃ s, Span.Written ds s)
      (ht : Text.Trimmed part piece) (hne : piece ≠ []) (h : Span.Refused piece e) : Refuses cs e
  | nothing (h : ∀ piece, ¬ Piece cs piece) : Refuses cs .nothingSelected

/-- Sets with the same widths are equal, since both list them in ascending order. -/
theorem eq_of_mem_iff {V W : WidthSet} (h : ∀ w, w ∈ V ↔ w ∈ W) : V = W := by
  have : Std.Irrefl fun v w : Width => v.bits < w.bits := ⟨fun _ => Nat.lt_irrefl _⟩
  have : Std.Antisymm fun v w : Width => v.bits < w.bits :=
    ⟨fun _ _ h₁ h₂ => absurd h₁ (Nat.lt_asymm h₂)⟩
  obtain ⟨vs, hv⟩ := V
  obtain ⟨ws, hw⟩ := W
  congr
  exact hv.eq_of_mem_iff hw fun w => h w

theorem mem_listPieces {cs piece : List Char} : piece ∈ listPieces cs ↔ Piece cs piece := by
  simp only [listPieces, Piece, List.mem_filter, List.mem_map, Text.trim_eq_iff, Bool.not_eq_true',
    List.isEmpty_eq_false_iff]
  constructor
  · rintro ⟨⟨part, hmem, ht⟩, hne⟩
    exact ⟨part, hmem, ht, hne⟩
  · rintro ⟨part, hmem, ht, hne⟩
    exact ⟨⟨part, hmem, ht⟩, hne⟩

/-- What stands before a piece in the list is blank or an earlier piece. -/
theorem exists_parts_of_listPieces {cs piece : List Char} {before after : List (List Char)}
    (h : listPieces cs = before ++ piece :: after) :
    ∃ parts part rest, cs.splitOn ',' = parts ++ part :: rest ∧
      (∀ p ∈ parts, Text.trim p ≠ [] → Text.trim p ∈ before) ∧ Text.Trimmed part piece ∧
      piece ≠ [] := by
  -- the trimmed parts are cut where the pieces are, and the parts where the trimmed ones are
  obtain ⟨before', rest', hmap, rfl, hrest⟩ := List.filter_eq_append_iff.1 h
  obtain ⟨skipped, after', rfl, hskipped, hne, -⟩ := List.filter_eq_cons_iff.1 hrest
  rw [← List.append_assoc] at hmap
  obtain ⟨parts, rest, hparts, hbefore, hrest⟩ := List.map_eq_append_iff.1 hmap
  obtain ⟨part, rest, rfl, hpart, -⟩ := List.map_eq_cons_iff.1 hrest
  refine ⟨parts, part, rest, hparts, ?_, Text.trim_eq_iff.1 hpart, by simpa using hne⟩
  intro p hp hne
  have hmem : Text.trim p ∈ before' ++ skipped := hbefore ▸ List.mem_map_of_mem hp
  rcases List.mem_append.1 hmem with hmem | hmem
  · exact List.mem_filter.2 ⟨hmem, by simpa using hne⟩
  · exact absurd (hskipped _ hmem) (by simpa using hne)

theorem mem_ofSpans {spans : List Span} {w : Width} :
    w ∈ ofSpans spans ↔ ∃ s ∈ spans, s.lower.bits ≤ w.bits ∧ w.bits ≤ s.upper.bits := by
  simp only [ofSpans, mem_ofPredicate, List.any_eq_true, Span.contains, Bool.and_eq_true,
    decide_eq_true_eq]

/-- The ranges of the pieces make up what the list denotes, if there is one. -/
theorem denotes_ofSpans {cs : List Char} {spans : List Span}
    (h : (listPieces cs).mapM Span.read = .ok spans) (hne : spans ≠ []) :
    Denotes cs (ofSpans spans) := by
  obtain ⟨hall, hmem⟩ := mapM_eq_ok h
  refine ⟨?_, fun piece hpiece => ?_, fun w => ?_⟩
  · obtain ⟨s, hs⟩ := List.exists_mem_of_ne_nil spans hne
    obtain ⟨piece, hpiece, -⟩ := (hmem s).1 hs
    exact ⟨piece, mem_listPieces.1 hpiece⟩
  · obtain ⟨s, hs⟩ := hall piece (mem_listPieces.2 hpiece)
    exact ⟨s, Span.read_eq_ok_iff.1 hs⟩
  · rw [mem_ofSpans]
    constructor
    · rintro ⟨s, hs, hw⟩
      obtain ⟨piece, hpiece, hread⟩ := (hmem s).1 hs
      exact ⟨piece, s, mem_listPieces.1 hpiece, Span.read_eq_ok_iff.1 hread, hw⟩
    · rintro ⟨piece, s, hpiece, hs, hw⟩
      exact ⟨s, (hmem s).2 ⟨piece, mem_listPieces.2 hpiece, hs.read⟩, hw⟩

theorem read_of_spans {cs : List Char} {spans : List Span}
    (h : (listPieces cs).mapM Span.read = .ok spans) (hne : spans ≠ []) :
    read cs = .ok (ofSpans spans) := by
  unfold read
  rw [h]
  exact if_neg fun hnil => hne (List.isEmpty_iff.1 hnil)

theorem Denotes.read {cs : List Char} {W : WidthSet} (h : Denotes cs W) :
    WidthSet.read cs = .ok W := by
  cases hspans : (listPieces cs).mapM Span.read with
  | error e =>
    -- the piece that fails is written
    obtain ⟨before, piece, after, hpieces, -, he⟩ := mapM_eq_error_iff.1 hspans
    have hmem : piece ∈ listPieces cs := hpieces ▸ List.mem_append_right _ List.mem_cons_self
    obtain ⟨s, hs⟩ := h.written piece (mem_listPieces.1 hmem)
    cases he.symm.trans hs.read
  | ok spans =>
    -- there is a piece, and its range is one of these
    have hne : spans ≠ [] := by
      rintro rfl
      obtain ⟨piece, hpiece⟩ := h.exists_piece
      obtain ⟨s, hs⟩ := h.written piece hpiece
      exact absurd ((mapM_eq_ok hspans).2 s |>.2 ⟨piece, mem_listPieces.2 hpiece, hs.read⟩)
        List.not_mem_nil
    rw [read_of_spans hspans hne]
    congr 1
    exact eq_of_mem_iff fun w => ((denotes_ofSpans hspans hne).mem_iff w).trans (h.mem_iff w).symm

theorem Refuses.read {cs : List Char} {e : SelectionError} (h : Refuses cs e) :
    WidthSet.read cs = .error e := by
  unfold WidthSet.read
  cases h with
  | @piece before after part piece e hcs hbefore ht hne h =>
    -- the parts before it give the pieces before it, and those are written
    have hread : (listPieces cs).mapM Span.read = .error e := by
      refine mapM_eq_error_iff.2 ⟨(before.map Text.trim).filter fun p => !p.isEmpty, piece,
        (after.map Text.trim).filter fun p => !p.isEmpty, ?_, ?_, h.read⟩
      · rw [listPieces, hcs, List.map_append, List.map_cons, ht.unique, List.filter_append,
          List.filter_cons_of_pos (by simpa using hne)]
      · intro ds hds
        obtain ⟨hds, hne⟩ := List.mem_filter.1 hds
        obtain ⟨p, hp, rfl⟩ := List.mem_map.1 hds
        obtain ⟨s, hs⟩ := hbefore p hp _ (Text.trimmed_trim p) (by simpa using hne)
        exact ⟨s, hs.read⟩
    rw [hread]
    rfl
  | nothing h =>
    rw [List.eq_nil_iff_forall_not_mem.2 fun piece hpiece => h piece (mem_listPieces.1 hpiece)]
    rfl

theorem denotes_or_refuses (cs : List Char) : (∃ W, Denotes cs W) ∨ ∃ e, Refuses cs e := by
  cases hspans : (listPieces cs).mapM Span.read with
  | error e =>
    obtain ⟨before, piece, after, hpieces, hbefore, he⟩ := mapM_eq_error_iff.1 hspans
    obtain ⟨parts, part, rest, hcs, hparts, ht, hne⟩ := exists_parts_of_listPieces hpieces
    refine .inr ⟨e, .piece hcs (fun p hp ds hds hne => ?_) ht hne (Span.read_eq_error_iff.1 he)⟩
    obtain rfl := hds.unique
    obtain ⟨s, hs⟩ := hbefore _ (hparts p hp hne)
    exact ⟨s, Span.read_eq_ok_iff.1 hs⟩
  | ok spans =>
    -- without ranges there are no pieces
    rcases eq_or_ne spans [] with rfl | hne
    · refine .inr ⟨_, .nothing fun piece hpiece => ?_⟩
      obtain ⟨hall, hmem⟩ := mapM_eq_ok hspans
      obtain ⟨s, hs⟩ := hall piece (mem_listPieces.2 hpiece)
      exact absurd ((hmem s).2 ⟨piece, mem_listPieces.2 hpiece, hs⟩) List.not_mem_nil
    · exact .inl ⟨_, denotes_ofSpans hspans hne⟩

theorem read_eq_ok_iff {cs : List Char} {W : WidthSet} : read cs = .ok W ↔ Denotes cs W :=
  eq_ok_iff_of_total Denotes.read Refuses.read (denotes_or_refuses cs)

theorem read_eq_error_iff {cs : List Char} {e : SelectionError} :
    read cs = .error e ↔ Refuses cs e :=
  eq_error_iff_of_total Denotes.read Refuses.read (denotes_or_refuses cs)

/-- What a list denotes is not empty, since its first range is not. -/
theorem Denotes.nonempty {cs : List Char} {W : WidthSet} (h : Denotes cs W) : ∃ w, w ∈ W := by
  obtain ⟨piece, hpiece⟩ := h.exists_piece
  obtain ⟨s, hs⟩ := h.written piece hpiece
  exact ⟨s.lower, (h.mem_iff _).2 ⟨piece, s, hpiece, hs, Nat.le_refl _, s.lower_le_upper⟩⟩

/-- A list that denotes no set fails the generation. -/
theorem Refuses.generate {text : String} {e : SelectionError} (h : Refuses text.toList e) :
    NarrowInt.generate (some text.toUTF8) = .stopped text.toList e.message := by
  unfold NarrowInt.generate
  rw [Setting.text?_toUTF8]
  simp only [h.read]
  rfl

/-- **Lists of widths denote sets, and any other text fails the generation.** The reader accepts the
texts that denote a set, with this set, and refuses the others for their leftmost fault. The set is
not empty, and lists whose ranges hold the same widths denote the same set. A run with a list that
is refused reports what every run reports first, and stops with the explanation: a piece that is no
numeral and a range in the wrong order are quoted, and a number that is no width is written out. -/
theorem read_meets_language :
    (∀ cs W, read cs = .ok W ↔ Denotes cs W) ∧
    (∀ cs e, read cs = .error e ↔ Refuses cs e) ∧
    (∀ cs W, read cs = .ok W → ∃ w, w ∈ W) ∧
    (∀ cs ds V W, read cs = .ok V → read ds = .ok W → (∀ w, Covers cs w ↔ Covers ds w) → V = W) ∧
    (∀ (text : String) piece, read text.toList = .error (.notAWidth piece) →
      generate (some text.toUTF8) =
        .stopped text.toList (Text.quote piece ++ " is not a width".toList)) ∧
    (∀ (text : String) n, read text.toList = .error (.outsideRange n) →
      generate (some text.toUTF8) =
        .stopped text.toList ("width ".toList ++ Text.decimal n ++ " is outside 1..=32".toList)) ∧
    (∀ (text : String) piece, read text.toList = .error (.emptyRange piece) →
      generate (some text.toUTF8) =
        .stopped text.toList ("empty range ".toList ++ Text.quote piece)) ∧
    (∀ text : String, read text.toList = .error .nothingSelected →
      generate (some text.toUTF8) = .stopped text.toList "no widths selected".toList) := by
  have hfail : ∀ (text : String) e, read text.toList = .error e →
      generate (some text.toUTF8) = .stopped text.toList e.message := fun text e h =>
    (read_eq_error_iff.1 h).generate
  refine ⟨fun _ _ => read_eq_ok_iff, fun _ _ => read_eq_error_iff, fun cs W h => ?_,
    fun cs ds V W hV hW h => ?_, fun text piece h => hfail text _ h, fun text n h => hfail text _ h,
    fun text piece h => hfail text _ h, fun text h => hfail text _ h⟩
  · exact (read_eq_ok_iff.1 h).nonempty
  · apply eq_of_mem_iff
    intro w
    calc w ∈ V ↔ Covers cs w := (read_eq_ok_iff.1 hV).mem_iff w
      _ ↔ Covers ds w := h w
      _ ↔ w ∈ W := ((read_eq_ok_iff.1 hW).mem_iff w).symm

theorem read_meets_language_overlapping :
    (∃ V W : WidthSet, read "3-5,, +07 ,4".toList = .ok V ∧ read "7,5,4-4,3,".toList = .ok W ∧
      (∀ w, Covers "3-5,, +07 ,4".toList w ↔ Covers "7,5,4-4,3,".toList w) ∧
      V.members.map Width.bits = [3, 4, 5, 7] ∧ (∃ w, w ∈ V) ∧ V = W) ∧
    (read "2,9-4-1,x".toList = .error (.notAWidth "4-1".toList) ∧
      generate (some "2,9-4-1,x".toUTF8) =
        { report := ["cargo:rerun-if-changed=build.rs".toList,
            "cargo:rerun-if-env-changed=SOFT_BITINT_WIDTHS".toList]
          result := .failure
            "invalid SOFT_BITINT_WIDTHS=\"2,9-4-1,x\": \"4-1\" is not a width".toList }) ∧
    (read "8,33-x".toList = .error (.outsideRange 33) ∧
      generate (some "8,33-x".toUTF8) =
        .stopped "8,33-x".toList "width 33 is outside 1..=32".toList) ∧
    (read "1, 9-4,0".toList = .error (.emptyRange "9-4".toList) ∧
      generate (some "1, 9-4,0".toUTF8) =
        .stopped "1, 9-4,0".toList "empty range \"9-4\"".toList) ∧
    (read " , ".toList = .error .nothingSelected ∧
      generate (some " , ".toUTF8) = .stopped " , ".toList "no widths selected".toList) := by
  obtain ⟨hok, -, hne, heq, hword, hrange, hempty, hnothing⟩ := read_meets_language
  have hV : read "3-5,, +07 ,4".toList = .ok (ofPredicate fun w => w.bits ∈ [3, 4, 5, 7]) := by
    decide +kernel
  have hW : read "7,5,4-4,3,".toList = .ok (ofPredicate fun w => w.bits ∈ [3, 4, 5, 7]) := by
    decide +kernel
  have hcovers : ∀ w, Covers "3-5,, +07 ,4".toList w ↔ Covers "7,5,4-4,3,".toList w := fun w =>
    (((hok _ _).1 hV).mem_iff w).symm.trans (((hok _ _).1 hW).mem_iff w)
  have hdash : read "2,9-4-1,x".toList = .error (.notAWidth "4-1".toList) := by
    decide +kernel
  have hwide : read "8,33-x".toList = .error (.outsideRange 33) := by
    decide +kernel
  have horder : read "1, 9-4,0".toList = .error (.emptyRange "9-4".toList) := by
    decide +kernel
  have hblank : read " , ".toList = .error .nothingSelected := by
    decide +kernel
  have hmessage : "invalid SOFT_BITINT_WIDTHS=".toList ++ Text.quote "2,9-4-1,x".toList ++
      ": ".toList ++ (Text.quote "4-1".toList ++ " is not a width".toList) =
      "invalid SOFT_BITINT_WIDTHS=\"2,9-4-1,x\": \"4-1\" is not a width".toList := by
    decide +kernel
  have hwidth : "width ".toList ++ Text.decimal 33 ++ " is outside 1..=32".toList =
      "width 33 is outside 1..=32".toList := by
    decide +kernel
  have hquote : "empty range ".toList ++ Text.quote "9-4".toList =
      "empty range \"9-4\"".toList := by
    decide +kernel
  refine ⟨⟨_, _, hV, hW, hcovers, ?_, hne _ _ hV, heq _ _ _ _ hV hW hcovers⟩, ⟨hdash, ?_⟩,
    ⟨hwide, ?_⟩, ⟨horder, ?_⟩, hblank, hnothing _ hblank⟩
  · decide +kernel
  · rw [← hmessage]
    exact hword "2,9-4-1,x" _ hdash
  · rw [← hwidth]
    exact hrange "8,33-x" _ hwide
  · rw [← hquote]
    exact hempty "1, 9-4,0" _ horder

end WidthSet

end NarrowInt
