import Mathlib
import NarrowInt.Proofs.Build.Selection

/-!
# The law of the setting

A setting decides which widths are exported. Without one all widths are; a list of widths exports
the set that it denotes; and any other setting fails the run, so that nothing is written. Runs keep
this law for every setting that is a text. A setting that is no text in UTF-8 denotes no set, but it
counts as absent: the run exports all widths and does not fail.

## Main definitions

* `Setting.Permits`: what a run may come to for a setting

## Main results

* `WidthSet.Denotes.generate`: a list that denotes a set exports it
* `generate_of_not_isValidUTF8`: a setting that is no text counts as absent
* `Setting.permits_generate_iff`: the law holds for the settings that are texts, and for no others
-/

namespace NarrowInt

/-- What a run may come to for a setting: all widths without one, the set that it denotes, or a
failure when it denotes none. -/
inductive Setting.Permits : Setting → Generation.Result → Prop
  | absent : Permits none (.listing .full)
  | list {text : String} {W : WidthSet} (h : WidthSet.Denotes text.toList W) :
      Permits (some text.toUTF8) (.listing W)
  | other {bytes : ByteArray} {message : List Char}
      (h : ∀ (text : String) (W : WidthSet),
        bytes = text.toUTF8 → ¬ WidthSet.Denotes text.toList W) :
      Permits (some bytes) (.failure message)

/-- A list that denotes a set exports it. -/
theorem WidthSet.Denotes.generate {text : String} {W : WidthSet} (h : Denotes text.toList W) :
    NarrowInt.generate (some text.toUTF8) =
      ⟨Generation.dependencies ++ [Generation.selectionLine W], .listing W⟩ := by
  unfold NarrowInt.generate
  rw [Setting.text?_toUTF8]
  simp only [h.read]

/-- A list that is refused denotes no set. -/
theorem WidthSet.Refuses.not_denotes {cs : List Char} {e : SelectionError} (h : Refuses cs e)
    (W : WidthSet) : ¬ Denotes cs W := by
  intro hW
  cases h.read.symm.trans hW.read

/-- A setting that is no text counts as absent. -/
theorem generate_of_not_isValidUTF8 {bytes : ByteArray} (h : ¬ bytes.IsValidUTF8) :
    generate (some bytes) = generate none := by
  unfold generate
  rw [Setting.text?_of_not_isValidUTF8 h]
  rfl

namespace Setting

/-- A text obeys the law, whether it denotes a set or not. -/
theorem permits_generate_toUTF8 (text : String) :
    Permits (some text.toUTF8) (generate (some text.toUTF8)).result := by
  rcases WidthSet.denotes_or_refuses text.toList with ⟨W, hW⟩ | ⟨e, he⟩
  · rw [hW.generate]
    exact .list hW
  · rw [he.generate]
    refine .other fun text' W htext => ?_
    obtain rfl : text = text' := String.toByteArray_inj.1 htext
    exact he.not_denotes W

/-- Bytes that are no text denote no set, so the law permits no listing for them. -/
theorem not_permits_listing {bytes : ByteArray} (h : ¬ bytes.IsValidUTF8) (W : WidthSet) :
    ¬ Permits (some bytes) (.listing W) := by
  intro hp
  generalize hs : some bytes = s at hp
  cases hp with
  | absent => cases hs
  | @list text W hW =>
    cases hs
    exact h text.isValidUTF8

/-- The law holds for the settings that are absent or texts, and for no others. -/
theorem permits_generate_iff (s : Setting) :
    s.Permits (generate s).result ↔ ∀ bytes ∈ s, bytes.IsValidUTF8 := by
  cases s with
  | none => exact ⟨fun _ => nofun, fun _ => .absent⟩
  | some bytes =>
    simp only [Option.mem_some_iff, forall_eq']
    constructor
    · intro hp
      by_contra h
      -- the run is the one without a setting, which exports all widths
      rw [generate_of_not_isValidUTF8 h] at hp
      exact not_permits_listing h .full hp
    · intro h
      exact permits_generate_toUTF8 ⟨bytes, h⟩

/-- **Settings are obeyed when they are texts.** What a run comes to is permitted for its setting
exactly when the setting is absent or a text in UTF-8. Any other setting is passed over: the run is
the one without a setting. -/
theorem settings_obeyed_when_texts (s : Setting) :
    (s.Permits (generate s).result ↔ ∀ bytes ∈ s, bytes.IsValidUTF8) ∧
    ((∃ bytes ∈ s, ¬ bytes.IsValidUTF8) → generate s = generate none) := by
  refine ⟨s.permits_generate_iff, ?_⟩
  rintro ⟨bytes, rfl, h⟩
  exact generate_of_not_isValidUTF8 h

/-- The list `8,16`, followed by a byte that starts no character. -/
def misencoded : ByteArray := ⟨#[0x38, 0x2c, 0x31, 0x36, 0xff]⟩

theorem not_isValidUTF8_misencoded : ¬ misencoded.IsValidUTF8 := by
  decide

theorem settings_obeyed_when_texts_misencoded :
    (∃ bytes ∈ some misencoded, ¬ bytes.IsValidUTF8) ∧
      (∀ bytes ∈ some "8,16".toUTF8, bytes.IsValidUTF8) ∧
      generate (some misencoded) = generate none ∧
      Permits (some "8,16".toUTF8) (generate (some "8,16".toUTF8)).result := by
  have hbytes : ∃ bytes ∈ some misencoded, ¬ bytes.IsValidUTF8 :=
    ⟨misencoded, rfl, not_isValidUTF8_misencoded⟩
  have htext : ∀ bytes ∈ some "8,16".toUTF8, bytes.IsValidUTF8 := by
    rintro bytes ⟨⟩
    exact "8,16".isValidUTF8
  exact ⟨hbytes, htext, (settings_obeyed_when_texts (some misencoded)).2 hbytes,
    (settings_obeyed_when_texts (some "8,16".toUTF8)).1.2 htext⟩

/-- Bytes that denote no set do not fail the run: it exports all widths. -/
theorem not_permits_generate_misencoded :
    (generate (some misencoded)).result = .listing .full ∧
      ¬ Permits (some misencoded) (generate (some misencoded)).result := by
  rw [generate_of_not_isValidUTF8 not_isValidUTF8_misencoded]
  exact ⟨rfl, not_permits_listing not_isValidUTF8_misencoded .full⟩

end Setting

end NarrowInt
