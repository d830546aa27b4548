import Mathlib
import NarrowInt.Build.Selection
import NarrowInt.Exports.Table
import NarrowInt.Proofs.Exports.Routine

/-!
# What a source text declares

A source text of the library declares two arrays, of keys and of entry points, and defines
functions, one to a line. This can be read off the text, however the text was made: the length that
an array is declared with and the rows that stand in it, and of a function its name, its parameters,
its result, and the kernel that it calls, at which family and with which arguments. No line is
passed over: blank lines, comments and the line that exports a function declare nothing, and a text
with any other line that is neither part of an array nor a function cannot be read.

## Main definitions

* `Source.lines`: the lines of a text
* `Source.FunctionItem`, `Source.readFunction?`: a function with its signature and the call that it
  makes, and the reader of its definition
* `Source.Row`, `Source.readRow?`: an entry point, and the reader of its row
* `Source.Item`, `Source.readItems?`: the arrays and the functions on lines, in their order
* `Source.read?`: what a text declares
* `Source.table?`: the entry points that the rows and the functions make up
* `Source.FunctionItem.Forwards`: the function is the one of a symbol
* `Source.AgreesWith`: the declarations are those of a width set
-/

namespace NarrowInt

/-! ## Words -/

theorem Text.cut?_append {mark : Char} {a : List Char} (h : mark ∉ a) (b : List Char) :
    cut? mark (a ++ mark :: b) = some (a, b) :=
  cut?_eq_some_iff.2 ⟨rfl, h⟩

theorem Text.notMem_decimal {mark : Char} (h : ¬ mark.isDigit) (n : Nat) : mark ∉ decimal n :=
  fun hmem => h (isDigit_of_mem_decimal hmem)

/-- The text between an opening and an ending. -/
def Text.between? (opening ending cs : List Char) : Option (List Char) :=
  (after? opening cs).bind (before? ending)

theorem Text.between?_append (opening ending cs : List Char) :
    between? opening ending (opening ++ (cs ++ ending)) = some cs := by
  rw [between?, after?_append]
  exact before?_append cs ending

/-- A compound word in small letters, with low lines between its parts. -/
def Text.snakeCase (cs : List Char) : List Char :=
  (cs.flatMap fun c => if c.isUpper then ['_', c.toLower] else [c]).drop 1

/-- The word for a kind of cell, as the type of a parameter or a result. -/
def Kind.word : Kind → List Char
  | carrier => "u32".toList
  | single => "f32".toList

/-- The kind of a word. -/
def Kind.ofWord? (cs : List Char) : Option Kind := [carrier, single].find? (·.word == cs)

/-- The word for a calling convention. -/
def Convention.word : Convention → List Char
  | min => "Min".toList
  | toFloat => "ToFloat".toList
  | fromFloat => "FromFloat".toList
  | binary => "Binary".toList

/-- The calling convention of a word. -/
def Convention.ofWord? (cs : List Char) : Option Convention :=
  [min, toFloat, fromFloat, binary].find? (·.word == cs)

/-- The operation of a kernel, which has its label in small letters for its name. -/
def Operation.ofKernel? (cs : List Char) : Option Operation :=
  all.find? (Text.snakeCase ·.label == cs)

namespace Source

/-! ## Lines -/

/-- The lines of a text; a line feed ends each line, but for the last it may be missing. -/
def lines (cs : List Char) : List (List Char) :=
  let pieces := cs.splitOn '\n'
  if pieces.getLast? = some [] then pieces.dropLast else pieces

/-- Lines that are ended by line feeds are read back. -/
theorem lines_flatMap {ls : List (List Char)} (h : ∀ line ∈ ls, '\n' ∉ line) :
    lines (ls.flatMap (· ++ ['\n'])) = ls := by
  -- an empty piece follows the last line feed
  have hpieces : (ls.flatMap (· ++ ['\n'])).splitOn '\n' = ls ++ [[]] := by
    induction ls with
    | nil => rfl
    | cons line ls ih =>
      obtain ⟨hline, hls⟩ := List.forall_mem_cons.1 h
      rw [List.flatMap_cons, List.append_assoc, List.splitOn, List.singleton_append,
        List.splitOnP_append_cons_of_forall_mem, List.cons_append]
      · exact congrArg _ (ih hls)
      · intro c hc
        exact beq_eq_false_iff_ne.2 fun h => hline (h ▸ hc)
      · rfl
  unfold lines
  rw [hpieces]
  dsimp only
  rw [List.getLast?_concat, if_pos rfl, List.dropLast_concat]

/-! ## Families -/

/-- The truth value of a word. -/
def readFlag? (cs : List Char) : Option Bool :=
  if cs = "true".toList then some true else if cs = "false".toList then some false else none

/-- The family of a width and a flag, as in `8, true`. -/
def readFamily? (cs : List Char) : Option Family := do
  let (digits, word) ← Text.cut? ',' cs
  let n ← Text.readDigits? digits
  let signed ← readFlag? (Text.trim word)
  Family.ofBits? n signed

/-- The family of a row of keys, as in `Key::new(8, true),`. -/
def readKey? (line : List Char) : Option Family :=
  (Text.between? "  Key::new(".toList "),".toList line).bind readFamily?

/-! ## Functions -/

/-- The parameters of a function, with their kinds, and the kind of its result. -/
structure Signature where
  parameters : List (List Char × Kind)
  result : Kind
deriving DecidableEq

/-- A call of the kernel of an operation at a family. -/
structure KernelCall where
  kernel : Operation
  family : Family
  arguments : List (List Char)
deriving DecidableEq

/-- A function that makes a call. -/
structure FunctionItem where
  name : List Char
  signature : Signature
  call : KernelCall
deriving DecidableEq

/-- The name and the kind of a parameter, as in `a: u32`. -/
def readParameter? (cs : List Char) : Option (List Char × Kind) := do
  let (name, word) ← Text.cut? ':' cs
  let kind ← Kind.ofWord? (Text.trim word)
  return (name, kind)

/-- The signature after an opening bracket, as in `a: f32) -> u32`. -/
def readSignature? (cs : List Char) : Option Signature := do
  let (list, rest) ← Text.cut? ')' cs
  let parameters ← (listPieces list).mapM readParameter?
  let word ← Text.after? " -> ".toList rest
  let result ← Kind.ofWord? (Text.trim word)
  return { parameters, result }

/-- The call of a kernel, as in `add::<8, true>(a, b)`. -/
def readCall? (cs : List Char) : Option KernelCall := do
  let (word, rest) ← Text.cut? ':' cs
  let kernel ← Operation.ofKernel? word
  let rest ← Text.after? ":<".toList rest
  let (list, rest) ← Text.cut? '>' rest
  let family ← readFamily? list
  let list ← Text.between? "(".toList ")".toList rest
  return { kernel, family, arguments := listPieces list }

/-- The function of a line that defines one. -/
def readFunction? (line : List Char) : Option FunctionItem := do
  let rest ← Text.after? "pub extern \"C\" fn ".toList line
  let (head, body) ← Text.cut? '\x7b' rest
  let (name, rest) ← Text.cut? '(' head
  let signature ← readSignature? rest
  let rest ← Text.between? " abi::".toList " \x7d".toList body
  let call ← readCall? rest
  return { name, signature, call }

example : readFunction? ("pub extern \"C\" fn FloatToUINT3(a: f32) -> u32 " ++
      "\x7b abi::from_float::<3, false>(a) \x7d").toList =
    some
      { name := "FloatToUINT3".toList
        signature := ⟨[(['a'], .single)], .carrier⟩
        call := ⟨.fromFloat, ⟨{ bits := 3 }, false⟩, [['a']]⟩ } := by
  decide +kernel

/-! ## Entry points -/

/-- An entry point: its key, its operation, and a function with its calling convention. -/
structure Row where
  family : Family
  operation : Operation
  convention : Convention
  function : List Char
deriving DecidableEq

/-- The entry point of a row. -/
def readRow? (line : List Char) : Option Row := do
  let rest ← Text.after? "  EntryPoint \x7b key: Key::new(".toList line
  let (list, rest) ← Text.cut? ')' rest
  let family ← readFamily? list
  let rest ← Text.after? ", op: Op::".toList rest
  let (word, rest) ← Text.cut? ',' rest
  let operation ← Operation.ofLabel? word
  let rest ← Text.after? " func: Func::".toList rest
  let (word, rest) ← Text.cut? '(' rest
  let convention ← Convention.ofWord? word
  let function ← Text.before? ") \x7d,".toList rest
  return { family, operation, convention, function }

/-! ## Items -/

/-- An array: its name, the type of its rows, the length that it is declared with, and its rows. -/
structure ArrayItem where
  name : List Char
  type : List Char
  length : Nat
  rows : List (List Char)

/-- The array without rows whose declaration starts on a line. -/
def readOpening? (line : List Char) : Option ArrayItem := do
  let rest ← Text.after? "pub(crate) static ".toList line
  let (name, rest) ← Text.cut? ':' rest
  let rest ← Text.after? " [".toList rest
  let (type, rest) ← Text.cut? ';' rest
  let digits ← Text.between? " ".toList "] = [".toList rest
  let length ← Text.readDigits? digits
  return { name, type, length, rows := [] }

/-- The contents of an array with the given name and type. -/
def ArrayItem.read? {α : Type} (a : ArrayItem) (name type : List Char) (f : List Char → Option α) :
    Option (List α) :=
  if a.name = name ∧ a.type = type then a.rows.mapM f else none

/-- An array or a function. -/
inductive Item
  | array (a : ArrayItem)
  | function (f : FunctionItem)

namespace Item

/-- The array of an item that is one. -/
def array? : Item → Option ArrayItem
  | array a => some a
  | function _ => none

/-- The function of an item that is one. -/
def function? : Item → Option FunctionItem
  | array _ => none
  | function f => some f

end Item

/-- The line declares nothing: it is blank, a comment, or the one that exports the function after
it. -/
def isRemark (line : List Char) : Bool :=
  line.isEmpty || (Text.after? "//".toList line).isSome ||
    line == "#[cfg_attr(feature = \"export\", unsafe(no_mangle))]".toList

/-- The items on lines, after the opening of an array and some of its rows, or after whole items. An
array ends at its closing bracket; outside of arrays each line is a remark, opens an array or
defines a function. -/
def readItems? : Option ArrayItem → List (List Char) → Option (List Item)
  | none, [] => some []
  | some _, [] => none
  | none, line :: rest =>
    if isRemark line then readItems? none rest
    else
      match readOpening? line with
      | some a => readItems? (some a) rest
      | none => do
        let f ← readFunction? line
        let items ← readItems? none rest
        return .function f :: items
  | some a, line :: rest =>
    if line = "];".toList then do
      let items ← readItems? none rest
      return .array a :: items
    else readItems? (some { a with rows := a.rows ++ [line] }) rest

-- a function that is not public is no remark, so the lines cannot be read
example : readItems? none ["fn SINT8Add(a: u32, b: u32) -> u32 \x7b a \x7d".toList] = none := by
  decide +kernel

theorem readItems?_cons_of_isRemark {line : List Char} (h : isRemark line)
    (rest : List (List Char)) :
    readItems? none (line :: rest) = readItems? none rest := by
  rw [readItems?, if_pos h]

theorem readItems?_cons_of_readFunction? {line : List Char} {f : FunctionItem}
    (hremark : ¬ isRemark line) (hopening : readOpening? line = none)
    (h : readFunction? line = some f) (rest : List (List Char)) :
    readItems? none (line :: rest) = (readItems? none rest).map (.function f :: ·) := by
  rw [readItems?, if_neg hremark, hopening]
  simp only [h, Option.bind_eq_bind, Option.bind_some]
  cases readItems? none rest <;> rfl

theorem readItems?_rows (a : ArrayItem) {rows : List (List Char)}
    (h : ∀ row ∈ rows, row ≠ "];".toList) (rest : List (List Char)) :
    readItems? (some a) (rows ++ "];".toList :: rest) =
      (readItems? none rest).map (.array { a with rows := a.rows ++ rows } :: ·) := by
  induction rows generalizing a with
  | nil =>
    rw [List.nil_append, readItems?, if_pos rfl, List.append_nil]
    cases readItems? none rest <;> rfl
  | cons row rows ih =>
    obtain ⟨hrow, hrows⟩ := List.forall_mem_cons.1 h
    rw [List.cons_append, readItems?, if_neg hrow, ih _ hrows, List.append_assoc,
      List.singleton_append]

/-- The line that opens the declaration of an array. -/
def arrayOpening (name type : List Char) (n : Nat) : List Char :=
  "pub(crate) static ".toList ++ (name ++ ':' :: (" [".toList ++ (type ++ ';' ::
    (" ".toList ++ (Text.decimal n ++ "] = [".toList)))))

/-- The length stands after an opening with the name and the type. -/
theorem append_eq_arrayOpening {opening name type : List Char}
    (h : opening = "pub(crate) static ".toList ++ (name ++ ':' :: (" [".toList ++ (type ++ ';' ::
      " ".toList)))) (n : Nat) :
    opening ++ Text.decimal n ++ "] = [".toList = arrayOpening name type n := by
  rw [h]
  unfold arrayOpening
  simp only [List.append_assoc, List.cons_append]

theorem readOpening?_arrayOpening {name type : List Char} (hname : ':' ∉ name) (htype : ';' ∉ type)
    (n : Nat) : readOpening? (arrayOpening name type n) = some ⟨name, type, n, []⟩ := by
  unfold readOpening? arrayOpening
  simp only [Text.after?_append, Text.cut?_append hname, Text.cut?_append htype,
    Text.between?_append, Text.readDigits?_decimal, Option.bind_eq_bind, Option.bind_some]
  rfl

/-- An array is read up to its closing bracket. -/
theorem readItems?_array {name type : List Char} (hname : ':' ∉ name) (htype : ';' ∉ type) (n : Nat)
    {rows : List (List Char)} (hrows : ∀ row ∈ rows, row ≠ "];".toList)
    (rest : List (List Char)) :
    readItems? none (arrayOpening name type n :: (rows ++ "];".toList :: rest)) =
      (readItems? none rest).map (.array ⟨name, type, n, rows⟩ :: ·) := by
  have hremark : ¬ isRemark (arrayOpening name type n) := Bool.false_ne_true
  rw [readItems?, if_neg hremark, readOpening?_arrayOpening hname htype]
  exact readItems?_rows _ hrows rest

end Source

/-! ## Sources -/

/-- What a source text declares: the declared length of the array of keys and the keys in it, the
same of the array of entry points, and the functions. -/
structure Source where
  keysLength : Nat
  keys : List Family
  rowsLength : Nat
  rows : List Source.Row
  functions : List Source.FunctionItem

namespace Source

/-- What items declare. There must be one array of keys and then one of entry points, every row of
which can be read. -/
def ofItems? (items : List Item) : Option Source :=
  match items.filterMap Item.array? with
  | [keys, table] => do
    let families ← keys.read? "KEYS".toList "Key".toList readKey?
    let rows ← table.read? "ENTRY_POINTS".toList "EntryPoint".toList readRow?
    return ⟨keys.length, families, table.length, rows, items.filterMap Item.function?⟩
  | _ => none

/-- What a text declares. -/
def read? (cs : List Char) : Option Source := (readItems? none (lines cs)).bind ofItems?

/-- The routine that a function forwards to, if it passes on its parameters in order and they have
the kinds that the routine takes. -/
def FunctionItem.routine? (f : FunctionItem) : Option Routine :=
  if f.call.arguments = f.signature.parameters.map Prod.fst ∧
      f.signature.parameters.map Prod.snd = f.call.kernel.convention.takes ∧
      f.signature.result = f.call.kernel.convention.gives then
    some (.of f.call.family f.call.kernel)
  else none

/-- The entry point of a row: its symbol, and the routine of the function with the name in the row,
which must have the calling convention in the row. -/
def entryPoint? (S : Source) (row : Row) : Option EntryPoint := do
  let f ← S.functions.find? (·.name = row.function)
  let routine ← f.routine?
  if routine.convention = row.convention then some ⟨⟨row.family, row.operation⟩, routine⟩ else none

/-- The entry points that the rows and the functions make up. -/
def table? (S : Source) : Option (List EntryPoint) := S.rows.mapM S.entryPoint?

/-- The function has the name and the signature of a symbol, and forwards its parameters in order to
the kernel of the operation at the family. -/
structure FunctionItem.Forwards (f : FunctionItem) (s : Symbol) : Prop where
  name : f.name = s.name
  takes : f.signature.parameters.map Prod.snd = s.operation.convention.takes
  gives : f.signature.result = s.operation.convention.gives
  distinct : (f.signature.parameters.map Prod.fst).Nodup
  kernel : f.call.kernel = s.operation
  family : f.call.family = s.family
  arguments : f.call.arguments = f.signature.parameters.map Prod.fst

/-- The declarations are those of a width set: as many keys as declared, both families of each
width, ascending; as many entry points as declared, for each key one of each operation, in order,
under the name and with the calling convention of the symbol; for each of them one function, the one
of the symbol; and no two functions of one name. -/
structure AgreesWith (S : Source) (W : WidthSet) : Prop where
  keysLength : S.keysLength = S.keys.length ∧ S.keys.length = 2 * W.size
  keys : S.keys = W.members.flatMap fun w => [⟨w, true⟩, ⟨w, false⟩]
  rowsLength : S.rowsLength = S.rows.length ∧ S.rows.length = 16 * W.size
  row : ∀ i j F op, S.keys[i]? = some F → Operation.all[j]? = some op →
    S.rows[8 * i + j]? = some ⟨F, op, op.convention, (Symbol.mk F op).name⟩
  function : ∀ row ∈ S.rows, ∃ f, S.functions.filter (·.name = row.function) = [f] ∧
    f.Forwards ⟨row.family, row.operation⟩
  nodup : (S.functions.map FunctionItem.name).Nodup

end Source

end NarrowInt
