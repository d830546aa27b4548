import NarrowInt.Build.Listing
import NarrowInt.Build.Selection

/-!
# Generating the listing

The widths come from a setting, which may be absent. A setting that is no text in UTF-8 counts as
absent, and without a setting all widths are exported. A setting that is no list of widths fails the
generation, and nothing is written.

## Main definitions

* `Setting`: the bytes of the setting, if it is present
* `Generation`: what a run reports, and what it writes or why it fails
* `generate`: the run for a setting
-/

namespace NarrowInt

/-- The bytes of the setting, if it is present. -/
abbrev Setting := Option ByteArray

/-- The text of a setting that is present and valid. -/
def Setting.text? (s : Setting) : Option String := s.bind String.fromUTF8?

@[simp] theorem Setting.text?_toUTF8 (text : String) :
    Setting.text? (some text.toUTF8) = some text :=
  dif_pos text.isValidUTF8

theorem Setting.text?_of_not_isValidUTF8 {bytes : ByteArray} (h : ¬ bytes.IsValidUTF8) :
    Setting.text? (some bytes) = none :=
  dif_neg h

theorem Setting.text?_eq_some_iff {s : Setting} {text : String} :
    s.text? = some text ↔ s = some text.toUTF8 := by
  constructor
  · intro h
    obtain ⟨bytes, rfl, hbytes⟩ := Option.bind_eq_some_iff.1 h
    by_cases hvalid : bytes.IsValidUTF8
    · rw [String.fromUTF8?, dif_pos hvalid] at hbytes
      cases hbytes
      rfl
    · cases h.symm.trans (text?_of_not_isValidUTF8 hvalid)
  · rintro rfl
    exact text?_toUTF8 text

/-- The name of the setting. -/
def Setting.name : List Char := "SOFT_BITINT_WIDTHS".toList

/-- What a run comes to: a listing to write, or the message it stops with. -/
inductive Generation.Result
  | listing (W : WidthSet)
  | failure (message : List Char)

/-- A run: the lines it reports, and what it comes to. -/
structure Generation where
  report : List (List Char)
  result : Generation.Result

namespace Generation

/-- The lines that every run reports first: what it depends on. -/
def dependencies : List (List Char) :=
  ["cargo:rerun-if-changed=build.rs".toList,
    "cargo:rerun-if-env-changed=".toList ++ Setting.name]

/-- The line that reports the selected widths. -/
def selectionLine (W : WidthSet) : List Char :=
  "cargo:warning=exporting custom datatypes for widths ".toList ++ Listing.braced W ++
    " only".toList

/-- The message for a list of widths that is refused. -/
def failureMessage (list : List Char) (e : SelectionError) : List Char :=
  "invalid ".toList ++ Setting.name ++ ['='] ++ Text.quote list ++ ": ".toList ++ e.message

end Generation

open Generation in
/-- The run for a setting. -/
def generate (s : Setting) : Generation :=
  match s.text? with
  | none => ⟨dependencies, .listing .full⟩
  | some list =>
    match WidthSet.read list.toList with
    | .ok W => ⟨dependencies ++ [selectionLine W], .listing W⟩
    | .error e => ⟨dependencies, .failure (failureMessage list.toList e)⟩

end NarrowInt
