import NarrowInt.Exports.TypeCode
import NarrowInt.Naming.Symbol

/-!
# The listing of a width set

The entry points of a width set are listed in a source text: the keys of its families, a function
for each operation of each family, which forwards its parameters to the kernel of the operation at
that family, and the table of the functions. One pass over the families writes these three sections
and counts the keys.

## Main definitions

* `Template`: how the function of an operation is written
* `Listing.templates`: the templates in the order in which they are written
* `Listing.Sections`: the sections of a listing, and the number of keys
* `WidthSet.listing`: the lines of the listing
* `WidthSet.listingText`: the listing as one text

## Main results

* `Listing.sections_eq`: the sections of a width set
* `WidthSet.length_listing`: the number of lines
-/

namespace NarrowInt

/-- How the function of an operation is written: the word for the operation, what its name has before
and after the name of the family, its parameters and result, its kernel and the arguments it passes
on. -/
structure Template where
  operation : List Char
  opening : List Char
  ending : List Char
  signature : List Char
  kernel : List Char
  arguments : List Char

namespace Template

/-- The template of the least value. -/
def min : Template where
  operation := "Min".toList
  opening := "Min".toList
  ending := []
  signature := "() -> u32".toList
  kernel := "min".toList
  arguments := "()".toList

/-- The template of the conversion to floats. -/
def toFloat : Template where
  operation := "ToFloat".toList
  opening := []
  ending := "ToFloat".toList
  signature := "(a: u32) -> f32".toList
  kernel := "to_float".toList
  arguments := "(a)".toList

/-- The template of the conversion from floats. -/
def fromFloat : Template where
  operation := "FromFloat".toList
  opening := "FloatTo".toList
  ending := []
  signature := "(a: f32) -> u32".toList
  kernel := "from_float".toList
  arguments := "(a)".toList

/-- The template of an operation on two carriers. -/
def binary (operation kernel : List Char) : Template where
  operation := operation
  opening := []
  ending := operation
  signature := "(a: u32, b: u32) -> u32".toList
  kernel := kernel
  arguments := "(a, b)".toList

/-- The word for the calling convention, which the word for the operation decides. -/
def convention (t : Template) : List Char :=
  if t.operation = "Min".toList then "Min".toList
  else if t.operation = "ToFloat".toList then "ToFloat".toList
  else if t.operation = "FromFloat".toList then "FromFloat".toList
  else "Binary".toList

end Template

namespace Listing

/-- The width and the signedness of a family, as a pair of literals. -/
def parameters (F : Family) : List Char :=
  Text.decimal F.width.bits ++ ", ".toList ++ Family.flag F.signed

/-- The key of a family. -/
def key (F : Family) : List Char := "Key::new(".toList ++ parameters F ++ [')']

/-- The name of the type of a family. -/
def typeName (F : Family) : List Char :=
  (if F.signed then 'S' else 'U') :: 'I' :: 'N' :: 'T' :: Text.decimal F.width.bits

/-- The name of a function. -/
def functionName (F : Family) (t : Template) : List Char := t.opening ++ typeName F ++ t.ending

/-- The call that a function forwards to. -/
def forward (F : Family) (t : Template) : List Char :=
  "abi::".toList ++ t.kernel ++ "::<".toList ++ parameters F ++ ['>'] ++ t.arguments

/-- The row of a family among the keys. -/
def keyRow (F : Family) : List Char := "  ".toList ++ key F ++ [',']

/-- The line that exports the function after it under its own name. -/
def exportLine : List Char := "#[cfg_attr(feature = \"export\", unsafe(no_mangle))]".toList

/-- The definition of a function. -/
def definition (F : Family) (t : Template) : List Char :=
  "pub extern \"C\" fn ".toList ++ functionName F t ++ t.signature ++ " \x7b ".toList ++
    forward F t ++ " \x7d".toList

/-- The row of a function in the table. -/
def tableRow (F : Family) (t : Template) : List Char :=
  "  EntryPoint \x7b key: ".toList ++ key F ++ ", op: Op::".toList ++ t.operation ++
    ", func: Func::".toList ++ t.convention ++ ['('] ++ functionName F t ++ ") \x7d,".toList

/-- The widths of a set, ascending, with commas between them. -/
def widthList (W : WidthSet) : List Char :=
  ", ".toList.intercalate (W.members.map fun w => Text.decimal w.bits)

/-- The widths of a set in braces. -/
def braced (W : WidthSet) : List Char := '\x7b' :: widthList W ++ ['\x7d']

/-- The templates in the order in which they are written. -/
def templates : List Template :=
  [.min, .toFloat, .fromFloat,
    .binary "Max".toList "max".toList,
    .binary "Add".toList "add".toList,
    .binary "Sub".toList "sub".toList,
    .binary "Mul".toList "mul".toList,
    .binary "Div".toList "div".toList]

/-! ## Sections -/

/-- The sections of a listing as far as they are written, and the number of keys so far. -/
structure Sections where
  keyCount : Nat
  keyRows : List (List Char)
  definitions : List (List Char)
  tableRows : List (List Char)

namespace Sections

/-- Nothing is written yet. -/
def empty : Sections := ⟨0, [], [], []⟩

/-- The sections with the lines of one more family: its key, and for each template a function under
its export line and the row of this function. -/
def push (s : Sections) (F : Family) : Sections where
  keyCount := s.keyCount + 1
  keyRows := s.keyRows ++ [keyRow F]
  definitions := s.definitions ++ templates.flatMap fun t => [exportLine, definition F t]
  tableRows := s.tableRows ++ templates.map (tableRow F)

end Sections

/-- The signed family of a width comes before the unsigned one. -/
def signednesses : List Bool := [true, false]

/-- The sections of a width set, written in one pass. -/
def sections (W : WidthSet) : Sections :=
  W.members.foldl (fun s w => signednesses.foldl (fun s signed => s.push ⟨w, signed⟩) s) .empty

/-- The rows of the keys. -/
def keyRows (W : WidthSet) : List (List Char) := W.families.map keyRow

/-- The functions, each under its export line. -/
def definitions (W : WidthSet) : List (List Char) :=
  W.families.flatMap fun F => templates.flatMap fun t => [exportLine, definition F t]

/-- The rows of the table. -/
def tableRows (W : WidthSet) : List (List Char) :=
  W.families.flatMap fun F => templates.map (tableRow F)

/-- A pass over families counts them, and adds the lines of each to the sections. -/
theorem foldl_push (families : List Family) (s : Sections) :
    families.foldl Sections.push s =
      { keyCount := s.keyCount + families.length
        keyRows := s.keyRows ++ families.map keyRow
        definitions := s.definitions ++ families.flatMap fun F =>
          templates.flatMap fun t => [exportLine, definition F t]
        tableRows := s.tableRows ++ families.flatMap fun F => templates.map (tableRow F) } := by
  induction families generalizing s with
  | nil => simp
  | cons F families ih =>
    rw [List.foldl_cons, ih]
    simp only [Sections.push, List.length_cons, List.map_cons, List.flatMap_cons,
      List.append_assoc, List.singleton_append, Nat.add_right_comm, Nat.add_assoc]

/-- The sections of a width set are those of its families, and the keys are as many. -/
theorem sections_eq (W : WidthSet) :
    sections W = ⟨W.families.length, keyRows W, definitions W, tableRows W⟩ := by
  -- the pass over the widths is one over the families
  have hfold : sections W = W.families.foldl Sections.push .empty := by
    unfold sections WidthSet.families
    rw [List.foldl_flatMap]
    rfl
  rw [hfold, foldl_push]
  simp only [Sections.empty, Nat.zero_add, List.nil_append]
  rfl

end Listing

namespace WidthSet

open Listing

variable (W : WidthSet)

/-- The first line of the listing, which names the widths. -/
def listingHeader : List Char := "// @generated by build.rs; widths: ".toList ++ braced W

/-- The lines of the listing. -/
def listing : List (List Char) :=
  [W.listingHeader,
    [],
    "/// Every family with exported entry points, in registration order.".toList,
    "pub(crate) static KEYS: [Key; ".toList ++ Text.decimal (sections W).keyCount ++
      "] = [".toList] ++
  (sections W).keyRows ++
  ["];".toList,
    []] ++
  (sections W).definitions ++
  [[],
    "/// One entry per (family, operation), grouped by family in registration order.".toList,
    "pub(crate) static ENTRY_POINTS: [EntryPoint; ".toList ++
      Text.decimal ((sections W).keyCount * 8) ++ "] = [".toList] ++
  (sections W).tableRows ++
  ["];".toList]

@[simp] theorem length_keyRows : (keyRows W).length = 2 * W.size := by
  simp [keyRows]

/-- Each function takes two lines. -/
@[simp] theorem length_definitions : (definitions W).length = 32 * W.size := by
  rw [definitions, length_flatMap_of_length_eq (n := 16) fun F => rfl, length_families]
  omega

@[simp] theorem length_tableRows : (tableRows W).length = 16 * W.size := by
  rw [tableRows, length_flatMap_of_length_eq (n := 8) fun F => rfl, length_families]
  omega

/-- The listing has ten lines of its own and fifty for each width. -/
theorem length_listing : W.listing.length = 10 + 50 * W.size := by
  simp [listing, sections_eq]
  omega

/-- The listing as one text; a line feed ends each line. -/
def listingText : List Char := W.listing.flatMap (· ++ ['\n'])

end WidthSet

end NarrowInt
