import Mathlib
import NarrowInt.Proofs.Build.Listing
import NarrowInt.Proofs.Build.Setting

/-!
# What a run writes and reports

A list of widths has many spellings, with ranges, repetitions and white space, but the run for it
shows the set in one: ascending, each width once, with a comma and a blank after each but the last.
This is what stands in braces in the first line of the listing and in the warning that reports the
set. It is a list of widths again and denotes the same set, so that a run for what another run shows
is that run. A listing tells which widths it is for, hence two runs write the same bytes exactly
when their lists denote the same set.

The reporting law asks for the warning exactly when the selected set differs from all widths. Runs
do not compare sets: they report whatever a text selects. That is the same for every setting except
the texts that denote all widths.

## Main definitions

* `WidthSet.ListedBy`: a text lists the widths of a set, ascending
* `Generation.file?`, `Generation.warnings`: the bytes that a run writes, and what it warns of
* `Generation.Shows`: the list in braces in both
* `Generation.ObeysReportingLaw`: the warning is there exactly for a set other than all widths

## Main results

* `WidthSet.read_widthList`: the list of a set denotes the set
* `WidthSet.listingText_injective`: different sets have different listings
* `Generation.cases_of_listing`: what leads to a listing, and what is reported then
* `Generation.shown_list_selects_same_widths`: the list that a run shows leads to the same run
* `Generation.selection_reported_when_text`: where the reporting law holds
-/

namespace NarrowInt

/-! ## Texts between marks -/

namespace Text

theorem not_isBlank_of_isDigit {c : Char} (h : c.isDigit) : ¬ isBlank c := by
  have hall : ∀ d < 10, ¬ isBlank d.digitChar := by
    decide
  obtain ⟨hlt, hc⟩ := digitChar_toNat_sub h
  rw [← hc]
  exact hall _ hlt

theorem trim_decimal (n : Nat) : trim (decimal n) = decimal n :=
  trim_eq_self fun _ hc => not_isBlank_of_isDigit (isDigit_of_mem_decimal hc)

/-- Texts with a comma and a blank between them are read back. -/
theorem map_trim_splitOn_intercalate {ls : List (List Char)} (hne : ls ≠ [])
    (hcomma : ∀ l ∈ ls, ',' ∉ l) (htrim : ∀ l ∈ ls, trim l = l) :
    ((", ".toList.intercalate ls).splitOn ',').map trim = ls := by
  induction ls using List.twoStepInduction with
  | nil => exact absurd rfl hne
  | singleton l =>
    rw [List.intercalate_singleton, List.splitOn_eq_singleton (hcomma l List.mem_cons_self),
      List.map_singleton, htrim l List.mem_cons_self]
  | cons_cons l l' ls _ ih =>
    obtain ⟨hl, hls⟩ := List.forall_mem_cons.1 hcomma
    obtain ⟨hl', hls'⟩ := List.forall_mem_cons.1 htrim
    have hcut : ", ".toList.intercalate (l :: l' :: ls) =
        l ++ ',' :: ' ' :: ", ".toList.intercalate (l' :: ls) := by
      rw [List.intercalate_cons_cons, List.append_assoc]
      rfl
    have htail := ih l' (List.cons_ne_nil _ _) hls hls'
    rw [hcut, List.splitOn_append_cons_self_of_not_mem hl, List.map_cons, hl',
      List.splitOn_cons_eq_if_modifyHead, if_neg (by decide)]
    -- the blank after the comma is cut off the next text
    cases hparts : (", ".toList.intercalate (l' :: ls)).splitOn ',' with
    | nil => exact absurd hparts (List.splitOn_ne_nil _ _)
    | cons part parts =>
      rw [hparts, List.map_cons] at htail
      rw [List.modifyHead_cons, List.map_cons, trim_cons_of_isBlank (by decide), htail]

/-- The text inside the first pair of braces. -/
def inBraces? (cs : List Char) : Option (List Char) := do
  let (_, rest) ← cut? '\x7b' cs
  let (inner, _) ← cut? '\x7d' rest
  return inner

theorem inBraces?_append {a cs : List Char} (ha : '\x7b' ∉ a) (hcs : '\x7d' ∉ cs)
    (b : List Char) : inBraces? (a ++ '\x7b' :: (cs ++ '\x7d' :: b)) = some cs := by
  unfold inBraces?
  simp only [cut?_append ha, cut?_append hcs, Option.bind_eq_bind, Option.bind_some]
  rfl

end Text

/-! ## The list of a set -/

theorem readNumeral?_decimal {n : Nat} (h : n < 2 ^ 32) :
    readNumeral? (Text.decimal n) = some n := by
  obtain ⟨hne, hdigits, hn⟩ := Text.readDigits?_eq_some_iff.1 (Text.readDigits?_decimal n)
  exact readNumeral?_eq_some_iff.2 ⟨[], Text.decimal n, rfl, .inl rfl, hne, hdigits, hn, h⟩

theorem Width.read_decimal (w : Width) : Width.read (Text.decimal w.bits) = .ok w := by
  have hlt : w.bits < 2 ^ 32 := Nat.lt_of_le_of_lt w.le_carrier (by decide)
  unfold Width.read
  rw [Text.trim_decimal, readNumeral?_decimal hlt]
  simp only [ofNat?_bits]

/-- A numeral alone is the range of one width. -/
theorem Span.read_decimal (w : Width) :
    Span.read (Text.decimal w.bits) = .ok ⟨w, w, Nat.le_refl _⟩ :=
  (Span.Written.width (Text.notMem_decimal (by decide) _)
    (Width.read_eq_ok_iff.1 w.read_decimal)).read

namespace WidthSet

variable {W : WidthSet}

theorem map_trim_splitOn_widthList (hW : ∃ w, w ∈ W) :
    ((Listing.widthList W).splitOn ',').map Text.trim =
      W.members.map fun w => Text.decimal w.bits := by
  obtain ⟨w, hw⟩ := hW
  unfold Listing.widthList
  refine Text.map_trim_splitOn_intercalate ?_ ?_ ?_
  · exact mt List.map_eq_nil_iff.1 (List.ne_nil_of_mem hw)
  · exact List.forall_mem_map.2 fun v _ => Text.notMem_decimal (by decide) _
  · exact List.forall_mem_map.2 fun v _ => Text.trim_decimal _

theorem listPieces_widthList (hW : ∃ w, w ∈ W) :
    listPieces (Listing.widthList W) = W.members.map fun w => Text.decimal w.bits := by
  rw [listPieces, map_trim_splitOn_widthList hW]
  refine List.filter_eq_self.2 (List.forall_mem_map.2 fun w _ => ?_)
  simpa using Text.decimal_ne_nil w.bits

/-- The list of a set denotes the set. -/
theorem read_widthList (hW : ∃ w, w ∈ W) : read (Listing.widthList W) = .ok W := by
  have hspans : (listPieces (Listing.widthList W)).mapM Span.read =
      .ok (W.members.map fun w => ⟨w, w, Nat.le_refl _⟩) := by
    rw [listPieces_widthList hW]
    exact mapM_map_eq_pure fun w _ => Span.read_decimal w
  have hne : (W.members.map fun w => (⟨w, w, Nat.le_refl _⟩ : Span)) ≠ [] := by
    obtain ⟨w, hw⟩ := hW
    exact mt List.map_eq_nil_iff.1 (List.ne_nil_of_mem hw)
  rw [read_of_spans hspans hne]
  refine congrArg _ (eq_of_mem_iff fun w => ?_)
  rw [mem_ofSpans]
  constructor
  · rintro ⟨s, hs, hlower, hupper⟩
    obtain ⟨v, hv, rfl⟩ := List.mem_map.1 hs
    rwa [Width.ext (Nat.le_antisymm hupper hlower)]
  · intro hw
    exact ⟨_, List.mem_map_of_mem hw, Nat.le_refl _, Nat.le_refl _⟩

/-- The list names the widths of the set between its commas, ascending. -/
def ListedBy (W : WidthSet) (cs : List Char) : Prop :=
  ∃ ns : List Nat, ((cs.splitOn ',').map fun part => Text.readDigits? (Text.trim part)) =
    ns.map some ∧ ns.Pairwise (· < ·) ∧ ∀ n, n ∈ ns ↔ ∃ w ∈ W, w.bits = n

theorem listedBy_widthList (hW : ∃ w, w ∈ W) : W.ListedBy (Listing.widthList W) := by
  refine ⟨W.members.map Width.bits, ?_, List.pairwise_map.2 W.ascending, fun n => List.mem_map⟩
  have h := congrArg (List.map Text.readDigits?) (map_trim_splitOn_widthList hW)
  simpa only [List.map_map, Function.comp_def, Text.readDigits?_decimal] using h

/-- A listing tells which widths it is for. -/
theorem listingText_injective : Function.Injective listingText := by
  intro V W h
  -- the keys that are read off the text are the families of both sets
  have hread : some W.source = some V.source := by
    rw [← W.read?_listingText, ← h, V.read?_listingText]
  have hfamilies : W.families = V.families := congrArg Source.keys (Option.some.inj hread)
  apply eq_of_mem_iff
  intro w
  rw [← mem_families (F := ⟨w, true⟩), ← hfamilies, mem_families]

end WidthSet

/-! ## Runs that write a listing -/

namespace Generation

/-- The bytes of the file that a run writes. -/
def file? (g : Generation) : Option ByteArray :=
  match g.result with
  | .listing W => some (String.ofList W.listingText).toUTF8
  | .failure _ => none

/-- The warnings among the lines that a run reports. -/
def warnings (g : Generation) : List (List Char) :=
  g.report.filter fun line => (Text.after? "cargo:warning=".toList line).isSome

/-- The run shows a list in braces: in the first line of the file that it writes, and in its only
warning. -/
structure Shows (g : Generation) (cs : List Char) : Prop where
  header : ∃ text : String, g.file? = some text.toUTF8 ∧
    ∃ line ∈ (Source.lines text.toList).head?, Text.inBraces? line = some cs
  warning : ∃ line, g.warnings = [line] ∧ Text.inBraces? line = some cs

/-- A listing is written without a setting that is a text, or for a text that denotes its set; in
the second case alone the set is reported. -/
theorem cases_of_listing {s : Setting} {W : WidthSet} (h : (generate s).result = .listing W) :
    (s.text? = none ∧ W = .full ∧ (generate s).report = dependencies) ∨
    ∃ text : String, s = some text.toUTF8 ∧ WidthSet.Denotes text.toList W ∧
      (generate s).report = dependencies ++ [selectionLine W] := by
  cases htext : s.text? with
  | none =>
    refine .inl ⟨rfl, ?_⟩
    unfold generate at h ⊢
    rw [htext] at h ⊢
    cases h
    exact ⟨rfl, rfl⟩
  | some text =>
    obtain rfl := Setting.text?_eq_some_iff.1 htext
    rcases WidthSet.denotes_or_refuses text.toList with ⟨V, hV⟩ | ⟨e, he⟩
    · rw [hV.generate] at h ⊢
      cases h
      exact .inr ⟨text, rfl, hV, rfl⟩
    · rw [he.generate] at h
      cases h

theorem filter_dependencies :
    (dependencies.filter fun line => (Text.after? "cargo:warning=".toList line).isSome) = [] := by
  decide

theorem warnings_dependencies_append (W : WidthSet) :
    warnings ⟨dependencies ++ [selectionLine W], .listing W⟩ = [selectionLine W] := by
  unfold warnings
  dsimp only
  rw [List.filter_append, filter_dependencies]
  rfl

theorem inBraces?_listingHeader (W : WidthSet) :
    Text.inBraces? W.listingHeader = some (Listing.widthList W) :=
  Text.inBraces?_append (by decide) (Listing.notMem_widthList (by decide) (by decide) W) []

theorem inBraces?_selectionLine (W : WidthSet) :
    Text.inBraces? (selectionLine W) = some (Listing.widthList W) := by
  have hcs : '\x7d' ∉ Listing.widthList W := Listing.notMem_widthList (by decide) (by decide) W
  have hline : selectionLine W = "cargo:warning=exporting custom datatypes for widths ".toList ++
      '\x7b' :: (Listing.widthList W ++ '\x7d' :: " only".toList) := by
    unfold selectionLine Listing.braced
    simp only [List.append_assoc, List.cons_append, List.nil_append]
  rw [hline]
  exact Text.inBraces?_append (by decide) hcs _

/-- The run for a text that denotes a set shows the list of the set. -/
theorem shows_generate {text : String} {W : WidthSet} (h : WidthSet.Denotes text.toList W) :
    (generate (some text.toUTF8)).Shows (Listing.widthList W) := by
  rw [h.generate]
  constructor
  · refine ⟨String.ofList W.listingText, rfl, W.listingHeader, ?_, inBraces?_listingHeader W⟩
    rw [String.toList_ofList, WidthSet.listingText, Source.lines_flatMap W.notMem_of_mem_listing]
    rfl
  · exact ⟨_, warnings_dependencies_append W, inBraces?_selectionLine W⟩

theorem file?_generate_eq_iff {text text' : String} {V W : WidthSet}
    (hV : WidthSet.Denotes text.toList V) (hW : WidthSet.Denotes text'.toList W) :
    (generate (some text.toUTF8)).file? = (generate (some text'.toUTF8)).file? ↔ V = W := by
  rw [hV.generate, hW.generate]
  constructor
  · intro h
    have hbytes := String.toByteArray_inj.1 (Option.some_inj.1 h)
    exact WidthSet.listingText_injective (String.ofList_injective hbytes)
  · rintro rfl
    rfl

/-- **The list that a run shows selects the same widths.** The run for a text that denotes a set
shows one list, which names the widths of the set in ascending order, is accepted, and denotes the
set again; the run for this list is the same run, so that it writes the same file. The runs for two
texts write the same bytes exactly when the texts denote the same set. -/
theorem shown_list_selects_same_widths :
    (∀ (text : String) (W : WidthSet), WidthSet.read text.toList = .ok W →
      ∃ list : String, (generate (some text.toUTF8)).Shows list.toList ∧
        W.ListedBy list.toList ∧ WidthSet.read list.toList = .ok W ∧
        generate (some list.toUTF8) = generate (some text.toUTF8)) ∧
    ∀ (text text' : String) (V W : WidthSet), WidthSet.read text.toList = .ok V →
      WidthSet.read text'.toList = .ok W →
      ((generate (some text.toUTF8)).file? = (generate (some text'.toUTF8)).file? ↔ V = W) := by
  constructor
  · intro text W hread
    have hW := WidthSet.read_eq_ok_iff.1 hread
    have hlist := WidthSet.read_widthList hW.nonempty
    refine ⟨String.ofList (Listing.widthList W), ?_⟩
    have hdenotes : WidthSet.Denotes (String.ofList (Listing.widthList W)).toList W := by
      rw [String.toList_ofList]
      exact WidthSet.read_eq_ok_iff.1 hlist
    rw [hdenotes.generate, hW.generate.symm, String.toList_ofList]
    exact ⟨shows_generate hW, WidthSet.listedBy_widthList hW.nonempty, hlist, rfl⟩
  · intro text text' V W hV hW
    exact file?_generate_eq_iff (WidthSet.read_eq_ok_iff.1 hV) (WidthSet.read_eq_ok_iff.1 hW)

/-- Two spellings of the widths 3, 4, 5 and 7 write the same file. -/
theorem shown_list_selects_same_widths_overlapping :
    ∃ W : WidthSet, WidthSet.read "3-5,, +07 ,4".toList = .ok W ∧
      WidthSet.read "7,5,4-4,3,".toList = .ok W ∧
      (∃ list : String, (generate (some "3-5,, +07 ,4".toUTF8)).Shows list.toList ∧
        W.ListedBy list.toList ∧ WidthSet.read list.toList = .ok W ∧
        generate (some list.toUTF8) = generate (some "3-5,, +07 ,4".toUTF8)) ∧
      (generate (some "3-5,, +07 ,4".toUTF8)).file? =
        (generate (some "7,5,4-4,3,".toUTF8)).file? := by
  have hV : WidthSet.read "3-5,, +07 ,4".toList =
      .ok (.ofPredicate fun w => w.bits ∈ [3, 4, 5, 7]) := by
    decide +kernel
  have hW : WidthSet.read "7,5,4-4,3,".toList =
      .ok (.ofPredicate fun w => w.bits ∈ [3, 4, 5, 7]) := by
    decide +kernel
  exact ⟨_, hV, hW, shown_list_selects_same_widths.1 _ _ hV,
    (shown_list_selects_same_widths.2 _ _ _ _ hV hW).2 rfl⟩

/-! ## The reporting law -/

/-- The reporting law: a run that writes a listing warns of the selected widths exactly when they
are not all widths. -/
def ObeysReportingLaw (g : Generation) : Prop :=
  ∀ W, g.result = .listing W → (selectionLine W ∈ g.report ↔ W ≠ .full)

theorem selectionLine_notMem_dependencies (W : WidthSet) : selectionLine W ∉ dependencies := by
  intro h
  have hnil := List.filter_eq_nil_iff.1 filter_dependencies _ h
  exact hnil rfl

/-- A run breaks the reporting law only for a text that denotes all widths, which it reports as any
other set. -/
theorem obeysReportingLaw_generate_iff (s : Setting) :
    (generate s).ObeysReportingLaw ↔
      ¬ ∃ text : String, s = some text.toUTF8 ∧ WidthSet.Denotes text.toList .full := by
  constructor
  · rintro hlaw ⟨text, rfl, hfull⟩
    rw [hfull.generate] at hlaw
    exact (hlaw .full rfl).1 (List.mem_append_right _ List.mem_cons_self) rfl
  · intro hno W hW
    rcases cases_of_listing hW with ⟨-, rfl, hreport⟩ | ⟨text, rfl, htext, hreport⟩
    · -- nothing is selected, and nothing is reported
      rw [hreport]
      exact iff_of_false (selectionLine_notMem_dependencies _) (not_not_intro rfl)
    · rw [hreport]
      refine iff_of_true (List.mem_append_right _ List.mem_cons_self) ?_
      rintro rfl
      exact hno ⟨text, rfl, htext⟩

theorem warnings_generate {s : Setting} {W : WidthSet} (h : (generate s).result = .listing W) :
    (generate s).warnings = if s.text?.isSome then [selectionLine W] else [] := by
  rcases cases_of_listing h with ⟨htext, rfl, hreport⟩ | ⟨text, rfl, htext, hreport⟩
  · rw [htext, warnings, hreport]
    exact filter_dependencies
  · rw [htext.generate, Setting.text?_toUTF8]
    exact warnings_dependencies_append W

/-- **The selected widths are reported whenever a text selects them.** A run that writes a listing
has one warning, with the set, if its setting is a text, and none otherwise. So the reporting law
holds for every setting but the texts that denote all widths: these are reported as well. -/
theorem selection_reported_when_text (s : Setting) :
    (∀ W, (generate s).result = .listing W →
      (generate s).warnings = if s.text?.isSome then [selectionLine W] else []) ∧
    ((generate s).ObeysReportingLaw ↔
      ¬ ∃ text : String, s = some text.toUTF8 ∧ WidthSet.Denotes text.toList .full) :=
  ⟨fun _ => warnings_generate, obeysReportingLaw_generate_iff s⟩

/-- The widths 8 and 16 are reported, and the law holds for them. -/
theorem selection_reported_when_text_two_widths :
    ∃ W : WidthSet, (generate (some "16,8".toUTF8)).result = .listing W ∧
      (generate (some "16,8".toUTF8)).warnings = [selectionLine W] ∧
      (generate (some "16,8".toUTF8)).ObeysReportingLaw := by
  have hread : WidthSet.read "16,8".toList = .ok (.ofPredicate fun w => w.bits ∈ [8, 16]) := by
    decide +kernel
  have hne : WidthSet.ofPredicate (fun w => w.bits ∈ [8, 16]) ≠ .full := by
    decide
  have hW := WidthSet.read_eq_ok_iff.1 hread
  have hresult : (generate (some "16,8".toUTF8)).result =
      .listing (.ofPredicate fun w => w.bits ∈ [8, 16]) := by
    rw [hW.generate]
  obtain ⟨hwarnings, hlaw⟩ := selection_reported_when_text (some "16,8".toUTF8)
  refine ⟨_, hresult, ?_, hlaw.2 ?_⟩
  · rw [hwarnings _ hresult, Setting.text?_toUTF8]
    rfl
  · rintro ⟨text, htext, hfull⟩
    obtain rfl : "16,8" = text := String.toByteArray_inj.1 (Option.some_inj.1 htext)
    have hsame := hread.symm.trans hfull.read
    exact hne (Except.ok.inj hsame)

/-- All widths in one range are reported, although they are what is exported without a setting. -/
theorem not_obeysReportingLaw_all_widths :
    generate (some "1-32".toUTF8) =
        ⟨dependencies ++ [selectionLine .full], .listing .full⟩ ∧
      ¬ (generate (some "1-32".toUTF8)).ObeysReportingLaw := by
  have hread : WidthSet.read "1-32".toList = .ok .full := by
    decide +kernel
  have hfull := WidthSet.read_eq_ok_iff.1 hread
  refine ⟨hfull.generate, ?_⟩
  rw [obeysReportingLaw_generate_iff, not_not]
  exact ⟨_, rfl, hfull⟩

end Generation

end NarrowInt
