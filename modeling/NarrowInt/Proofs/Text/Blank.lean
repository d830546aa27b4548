import Mathlib
import NarrowInt.Text.Affix

/-!
# White space around a text

Trimming cuts off white space at both ends, and all of it: what is left neither starts nor ends with
white space. There is only one such text.

## Main definitions

* `Text.Trimmed`: a text without the white space at its ends

## Main results

* `Text.trim_eq_iff`: trimming finds that text
* `Text.trim_eq_self`: a text without white space stays as it is
-/

namespace NarrowInt.Text

/-- The second text is the first without the white space at its ends. -/
structure Trimmed (cs ds : List Char) : Prop where
  around : ∃ a b, cs = a ++ ds ++ b ∧ (∀ c ∈ a, isBlank c) ∧ ∀ c ∈ b, isBlank c
  head : ∀ c ∈ ds.head?, ¬ isBlank c
  last : ∀ c ∈ ds.getLast?, ¬ isBlank c

theorem dropWhile_isBlank_eq_self {cs : List Char} (h : ∀ c ∈ cs.head?, ¬ isBlank c) :
    cs.dropWhile isBlank = cs := by
  cases cs with
  | nil => rfl
  | cons c cs => exact List.dropWhile_cons_of_neg (h c rfl)

theorem head?_dropWhile_isBlank (cs : List Char) :
    ∀ c ∈ (cs.dropWhile isBlank).head?, ¬ isBlank c := by
  intro c hc
  have h := List.head?_dropWhile_not isBlank cs
  rw [Option.mem_def.1 hc] at h
  simpa using h

theorem trimmed_trim (cs : List Char) : Trimmed cs (trim cs) := by
  -- white space goes first at the start, then at the end
  obtain ⟨a, ha, hcs⟩ : ∃ a, (∀ c ∈ a, isBlank c) ∧ cs = a ++ cs.dropWhile isBlank :=
    ⟨cs.takeWhile isBlank, fun _ => List.mem_takeWhile_imp, List.takeWhile_append_dropWhile.symm⟩
  have hstart := head?_dropWhile_isBlank cs
  unfold trim
  generalize cs.dropWhile isBlank = ds at hcs hstart
  have hends := head?_dropWhile_isBlank ds.reverse
  have hds : ds = (ds.reverse.dropWhile isBlank).reverse ++
      (ds.reverse.takeWhile isBlank).reverse := by
    rw [← List.reverse_append, List.takeWhile_append_dropWhile, List.reverse_reverse]
  refine ⟨⟨a, (ds.reverse.takeWhile isBlank).reverse, ?_, ha, ?_⟩, ?_, ?_⟩
  · rw [List.append_assoc, ← hds]
    exact hcs
  · intro c hc
    exact List.mem_takeWhile_imp (List.mem_reverse.1 hc)
  · intro c hc
    refine hstart c ?_
    rw [hds]
    exact List.mem_head?_append_of_mem_head? hc
  · rw [List.getLast?_reverse]
    exact hends

theorem Trimmed.unique {cs ds : List Char} (h : Trimmed cs ds) : trim cs = ds := by
  obtain ⟨⟨a, b, rfl, ha, hb⟩, hhead, hlast⟩ := h
  rcases eq_or_ne ds [] with rfl | hne
  · refine trim_eq_nil_iff.2 fun c hc => ?_
    rw [List.append_nil] at hc
    exact (List.mem_append.1 hc).elim (ha c) (hb c)
  · have hstart : (a ++ ds ++ b).dropWhile isBlank = ds ++ b := by
      rw [List.append_assoc, List.dropWhile_append_of_pos ha]
      refine dropWhile_isBlank_eq_self ?_
      rwa [List.head?_append_of_ne_nil _ hne]
    have hend : (ds ++ b).reverse.dropWhile isBlank = ds.reverse := by
      rw [List.reverse_append,
        List.dropWhile_append_of_pos fun c hc => hb c (List.mem_reverse.1 hc)]
      refine dropWhile_isBlank_eq_self ?_
      rwa [List.head?_reverse]
    rw [trim, hstart, hend, List.reverse_reverse]

/-- Trimming finds the only text without the white space at the ends. -/
theorem trim_eq_iff {cs ds : List Char} : trim cs = ds ↔ Trimmed cs ds := by
  constructor
  · rintro rfl
    exact trimmed_trim cs
  · exact Trimmed.unique

theorem trim_eq_self {cs : List Char} (h : ∀ c ∈ cs, ¬ isBlank c) : trim cs = cs :=
  Trimmed.unique
    { around := ⟨[], [], (List.append_nil cs).symm, nofun, nofun⟩
      head := fun c hc => h c (List.mem_of_head? hc)
      last := fun c hc => h c (List.mem_of_getLast? hc) }

theorem trim_cons_of_isBlank {c : Char} (h : isBlank c) (cs : List Char) :
    trim (c :: cs) = trim cs := by
  rw [trim, List.dropWhile_cons_of_pos h, trim]

end NarrowInt.Text
