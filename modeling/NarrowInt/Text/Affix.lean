/-!
# Cutting texts

What follows a given opening of a text, what precedes a given ending, the two sides of the first
occurrence of a mark, and what is left without the white space at both ends. There are 25 characters
that count as white space.

## Main definitions

* `after?`: the rest of a text after an opening
* `before?`: the rest of a text before an ending
* `cut?`: the texts before and after the first occurrence of a mark
* `isBlank`: the character is white space
* `trim`: a text without the white space at its ends

## Main results

* `after?_eq_some_iff`, `before?_eq_some_iff`: the opening, or the ending, and the rest make up the
  text
* `after?_bind_before?_eq_some_iff`: an opening, the rest and an ending make up the text
* `cut?_eq_some_iff`: the mark stands between the two sides, and not in the first
* `trim_eq_nil_iff`: only a text of white space trims to nothing
-/

namespace NarrowInt.Text

/-! ## Openings, endings and marks -/

/-- The rest of a text after an opening, when the text starts with it. -/
def after? : List Char → List Char → Option (List Char)
  | [], cs => some cs
  | _ :: _, [] => none
  | p :: ps, c :: cs => if p = c then after? ps cs else none

theorem after?_eq_some_iff {opening cs rest : List Char} :
    after? opening cs = some rest ↔ cs = opening ++ rest := by
  induction opening generalizing cs with
  | nil => simp [after?]
  | cons p ps ih =>
    cases cs with
    | nil => simp [after?]
    | cons c cs =>
      by_cases h : p = c
      · simp [after?, h, ih]
      · simp [after?, h, Ne.symm h]

@[simp] theorem after?_append (opening rest : List Char) :
    after? opening (opening ++ rest) = some rest :=
  after?_eq_some_iff.2 rfl

theorem after?_eq_none_iff {opening cs : List Char} :
    after? opening cs = none ↔ ∀ rest, cs ≠ opening ++ rest := by
  rw [Option.eq_none_iff_forall_ne_some]
  exact forall_congr' fun _ => not_congr after?_eq_some_iff

/-- The rest of a text before an ending, when the text ends with it. -/
def before? (ending cs : List Char) : Option (List Char) :=
  (after? ending.reverse cs.reverse).map List.reverse

theorem before?_eq_some_iff {ending cs rest : List Char} :
    before? ending cs = some rest ↔ cs = rest ++ ending := by
  rw [before?, Option.map_eq_some_iff]
  constructor
  · rintro ⟨r, h, rfl⟩
    have := congrArg List.reverse (after?_eq_some_iff.1 h)
    simpa using this
  · rintro rfl
    exact ⟨rest.reverse, by simp, by simp⟩

@[simp] theorem before?_append (rest ending : List Char) :
    before? ending (rest ++ ending) = some rest :=
  before?_eq_some_iff.2 rfl

theorem before?_eq_none_iff {ending cs : List Char} :
    before? ending cs = none ↔ ∀ rest, cs ≠ rest ++ ending := by
  rw [Option.eq_none_iff_forall_ne_some]
  exact forall_congr' fun _ => not_congr before?_eq_some_iff

/-- An opening and an ending can both be cut off when they do not overlap. -/
theorem after?_bind_before?_eq_some_iff {opening ending cs rest : List Char} :
    (after? opening cs).bind (before? ending) = some rest ↔ cs = opening ++ rest ++ ending := by
  rw [Option.bind_eq_some_iff]
  constructor
  · rintro ⟨tail, hopening, hending⟩
    rw [after?_eq_some_iff.1 hopening, before?_eq_some_iff.1 hending, List.append_assoc]
  · rintro rfl
    refine ⟨rest ++ ending, ?_, before?_append _ _⟩
    rw [List.append_assoc, after?_append]

/-- The texts before and after the first occurrence of a mark, when there is one. -/
def cut? (mark : Char) : List Char → Option (List Char × List Char)
  | [] => none
  | c :: cs => if c = mark then some ([], cs) else (cut? mark cs).map fun (a, b) => (c :: a, b)

theorem cut?_eq_some_iff {mark : Char} {cs a b : List Char} :
    cut? mark cs = some (a, b) ↔ cs = a ++ mark :: b ∧ mark ∉ a := by
  induction cs generalizing a with
  | nil => simp [cut?]
  | cons c cs ih =>
    by_cases h : c = mark
    · -- the text is cut here, so nothing can stand before the mark
      subst h
      cases a with
      | nil => simp [cut?]
      | cons d a =>
        simp only [cut?, if_true, Option.some.injEq, Prod.mk.injEq, List.cons_append,
          List.cons.injEq, List.mem_cons, not_or]
        constructor
        · rintro ⟨h, -⟩
          cases h
        · rintro ⟨⟨rfl, -⟩, h, -⟩
          exact absurd rfl h
    · cases a with
      | nil => simp [cut?, h]
      | cons d a =>
        simp only [cut?, h, if_false, Option.map_eq_some_iff, Prod.exists, Prod.mk.injEq,
          List.cons.injEq, List.cons_append, List.mem_cons, not_or]
        constructor
        · rintro ⟨a', b', hcut, ⟨rfl, rfl⟩, rfl⟩
          obtain ⟨rfl, hm⟩ := ih.1 hcut
          exact ⟨⟨rfl, rfl⟩, Ne.symm h, hm⟩
        · rintro ⟨⟨rfl, rfl⟩, -, hm⟩
          exact ⟨a, b, ih.2 ⟨rfl, hm⟩, ⟨rfl, rfl⟩, rfl⟩

theorem cut?_eq_none_iff {mark : Char} {cs : List Char} : cut? mark cs = none ↔ mark ∉ cs := by
  induction cs with
  | nil => simp [cut?]
  | cons c cs ih =>
    by_cases h : c = mark
    · simp [cut?, h]
    · simp [cut?, h, ih, Ne.symm h]

/-! ## White space -/

/-- The code points of white space, as ascending ranges. -/
def blankRanges : List (Nat × Nat) := [
  (0x9, 0xd), (0x20, 0x20), (0x85, 0x85), (0xa0, 0xa0), (0x1680, 0x1680), (0x2000, 0x200a),
  (0x2028, 0x2029), (0x202f, 0x202f), (0x205f, 0x205f), (0x3000, 0x3000)]

/-- The character is white space. -/
def isBlank (c : Char) : Bool :=
  blankRanges.any fun (lo, hi) => decide (lo ≤ c.toNat) && decide (c.toNat ≤ hi)

/-- A text without the white space at its ends. -/
def trim (cs : List Char) : List Char :=
  ((cs.dropWhile isBlank).reverse.dropWhile isBlank).reverse

theorem dropWhile_isBlank_eq_nil_iff {cs : List Char} :
    cs.dropWhile isBlank = [] ↔ ∀ c ∈ cs, isBlank c := by
  induction cs with
  | nil => simp
  | cons c cs ih => by_cases h : isBlank c <;> simp [h, ih]

/-- What is dropped is white space. -/
theorem forall_mem_dropWhile_isBlank_iff {cs : List Char} :
    (∀ c ∈ cs.dropWhile isBlank, isBlank c) ↔ ∀ c ∈ cs, isBlank c := by
  induction cs with
  | nil => simp
  | cons c cs ih => by_cases h : isBlank c <;> simp [h, ih]

/-- Only a text of white space trims to nothing. -/
theorem trim_eq_nil_iff {cs : List Char} : trim cs = [] ↔ ∀ c ∈ cs, isBlank c := by
  rw [trim, List.reverse_eq_nil_iff, dropWhile_isBlank_eq_nil_iff]
  simp only [List.mem_reverse]
  exact forall_mem_dropWhile_isBlank_iff

end NarrowInt.Text
