import Mathlib
import NarrowInt.Build.Listing
import NarrowInt.Proofs.Build.Source
import NarrowInt.Proofs.Exports.Order

/-!
# What the listing of a width set declares

The rows and the definitions of a listing are written from templates, and each is read back as what
it stands for: the row of a key as the family, the row of the table as an entry point of the symbol,
and the definition as the function that a caller of the symbol expects. No line has a line feed in
it, so the lines of the text are those of the listing, and what the text declares agrees with the
width set.

## Main definitions

* `Template.of`: the template of each operation
* `Source.Row.of`, `Source.FunctionItem.of`: the entry point and the function of a symbol
* `WidthSet.source`: the declarations of a width set

## Main results

* `Source.readKey?_keyRow`, `Source.readRow?_tableRow`, `Source.readFunction?_definition`: what is
  written is read back
* `Listing.templates_eq`: the templates follow the order of the operations
* `WidthSet.read?_listingText`: what a listing declares
* `WidthSet.table?_source`: its rows and functions make up the table of the width set
* `WidthSet.listing_declares_entry_points`: it agrees with the width set
-/

namespace NarrowInt

/-- A traversal of written elements reads what was written. -/
theorem mapM_map_eq_pure {m : Type → Type} [Monad m] [LawfulMonad m] {α β γ : Type} {f : α → β}
    {g : β → m γ} {h : α → γ} {xs : List α} (hg : ∀ a ∈ xs, g (f a) = pure (h a)) :
    (xs.map f).mapM g = pure (xs.map h) := by
  induction xs with
  | nil => rfl
  | cons a xs ih =>
    obtain ⟨ha, hxs⟩ := List.forall_mem_cons.1 hg
    rw [List.map_cons, List.mapM_cons, ha, pure_bind, ih hxs, pure_bind]
    rfl

/-! ## Templates -/

/-- The template of each operation. -/
def Template.of : Operation → Template
  | .min => min
  | .toFloat => toFloat
  | .fromFloat => fromFloat
  | .max => binary "Max".toList "max".toList
  | .add => binary "Add".toList "add".toList
  | .sub => binary "Sub".toList "sub".toList
  | .mul => binary "Mul".toList "mul".toList
  | .div => binary "Div".toList "div".toList

namespace Template

theorem operation_of (op : Operation) : (of op).operation = op.label := by
  cases op <;> rfl

theorem convention_of (op : Operation) : (of op).convention = op.convention.word := by
  cases op <;> rfl

theorem ofKernel?_kernel_of (op : Operation) : Operation.ofKernel? (of op).kernel = some op := by
  cases op <;> decide

end Template

theorem Convention.isAlphanum_of_mem_word (c : Convention) : ∀ a ∈ c.word, a.isAlphanum := by
  unfold word
  cases c <;> simp

theorem Convention.ofWord?_word (c : Convention) : ofWord? c.word = some c := by
  cases c <;> decide

namespace Listing

/-- The templates are written in the order of the operations. -/
theorem templates_eq : templates = Operation.all.map .of := rfl

/-! ## Names and parameters -/

/-- The listing names its functions like the symbols. -/
theorem functionName_of (F : Family) (op : Operation) :
    functionName F (.of op) = (Symbol.mk F op).name := by
  have htype : typeName F = F.name := by
    unfold typeName Family.name Family.lead
    cases F.signed <;> rfl
  cases op with
  | min => exact (List.append_nil _).trans (congrArg _ htype)
  | fromFloat => exact (List.append_nil _).trans (congrArg _ htype)
  | _ => exact congrArg (· ++ _) htype

theorem notMem_parameters {mark : Char} (h : ¬ mark.isAlphanum) (hsep : mark ∉ ", ".toList)
    (F : Family) : mark ∉ parameters F := by
  unfold parameters
  simp only [List.mem_append, not_or]
  exact ⟨⟨mt Text.isAlphanum_of_mem_decimal h, hsep⟩, mt (Family.isAlphanum_of_mem_flag _ mark) h⟩

end Listing

namespace Source

/-! ## Reading rows -/

theorem readFamily?_parameters (F : Family) : readFamily? (Listing.parameters F) = some F := by
  obtain ⟨w, signed⟩ := F
  have hcut : Text.cut? ',' (Listing.parameters ⟨w, signed⟩) =
      some (Text.decimal w.bits, ' ' :: Family.flag signed) := by
    rw [Listing.parameters, List.append_assoc]
    exact Text.cut?_append (Text.notMem_decimal (by decide) _) _
  have hflag : readFlag? (Text.trim (' ' :: Family.flag signed)) = some signed := by
    cases signed <;> decide
  simp only [readFamily?, hcut, Option.bind_eq_bind, Option.bind_some, Text.readDigits?_decimal,
    hflag, Family.ofBits?, Width.ofNat?_bits, Option.map_some]

theorem readKey?_keyRow (F : Family) : readKey? (Listing.keyRow F) = some F := by
  have hline : Listing.keyRow F =
      "  Key::new(".toList ++ (Listing.parameters F ++ "),".toList) := by
    unfold Listing.keyRow Listing.key
    simp only [List.append_assoc]
    rfl
  rw [hline, readKey?, Text.between?_append]
  exact readFamily?_parameters F

/-- The entry point of a symbol. -/
def Row.of (s : Symbol) : Row := ⟨s.family, s.operation, s.operation.convention, s.name⟩

theorem readRow?_tableRow (s : Symbol) :
    readRow? (Listing.tableRow s.family (.of s.operation)) = some (.of s) := by
  obtain ⟨F, op⟩ := s
  -- the row, cut at the marks that the reader looks for
  have hkeyWord : "  EntryPoint \x7b key: Key::new(".toList =
      "  EntryPoint \x7b key: ".toList ++ "Key::new(".toList := by
    simp
  have hfuncWord : ", func: Func::".toList = ',' :: " func: Func::".toList := by
    simp
  have hline : Listing.tableRow F (.of op) =
      "  EntryPoint \x7b key: Key::new(".toList ++ (Listing.parameters F ++ ')' ::
        (", op: Op::".toList ++ (op.label ++ ',' ::
          (" func: Func::".toList ++ (op.convention.word ++ '(' ::
            ((Symbol.mk F op).name ++ ") \x7d,".toList)))))) := by
    unfold Listing.tableRow Listing.key
    rw [Template.operation_of, Template.convention_of, Listing.functionName_of, hkeyWord, hfuncWord]
    simp only [List.append_assoc, List.cons_append, List.nil_append]
  have hkey : ')' ∉ Listing.parameters F := Listing.notMem_parameters (by simp) (by simp) F
  have hlabel : ',' ∉ op.label := mt (Symbol.isAlphanum_of_mem_label op ',') (by simp)
  have hword : '(' ∉ op.convention.word :=
    mt (op.convention.isAlphanum_of_mem_word '(') (by simp)
  rw [hline, readRow?]
  simp only [Text.after?_append, Text.cut?_append hkey, Text.cut?_append hlabel,
    Text.cut?_append hword, Text.before?_append, Option.bind_eq_bind, Option.bind_some,
    readFamily?_parameters, Operation.ofLabel?_label, Convention.ofWord?_word]
  rfl

/-! ## Reading functions -/

/-- The signature of a calling convention, with the letters of the alphabet for the parameters. -/
def Signature.of (c : Convention) : Signature := ⟨[['a'], ['b']].zip c.takes, c.gives⟩

/-- The function of a symbol. -/
def FunctionItem.of (s : Symbol) : FunctionItem where
  name := s.name
  signature := .of s.operation.convention
  call := ⟨s.operation, s.family, (Signature.of s.operation.convention).parameters.map Prod.fst⟩

theorem FunctionItem.forwards_of (s : Symbol) : (FunctionItem.of s).Forwards s where
  name := rfl
  takes := by
    show (Signature.of s.operation.convention).parameters.map Prod.snd = _
    cases s.operation.convention <;> rfl
  gives := rfl
  distinct := by
    show ((Signature.of s.operation.convention).parameters.map Prod.fst).Nodup
    cases s.operation.convention <;> decide
  kernel := rfl
  family := rfl
  arguments := rfl

/-- The signature in a template is that of the calling convention. -/
theorem exists_signature (op : Operation) :
    ∃ rest, (Template.of op).signature = '(' :: rest ∧ '\x7b' ∉ rest ∧
      readSignature? (rest ++ [' ']) = some (.of op.convention) := by
  cases op with
  | min => exact ⟨") -> u32".toList, rfl, by decide, by decide⟩
  | toFloat => exact ⟨"a: u32) -> f32".toList, rfl, by decide, by decide⟩
  | fromFloat => exact ⟨"a: f32) -> u32".toList, rfl, by decide, by decide⟩
  | _ => exact ⟨"a: u32, b: u32) -> u32".toList, rfl, by decide, by decide⟩

/-- The arguments in a template are the parameters. -/
theorem exists_arguments (op : Operation) :
    ∃ list, (Template.of op).arguments = "(".toList ++ (list ++ ")".toList) ∧
      listPieces list = (Signature.of op.convention).parameters.map Prod.fst := by
  cases op with
  | min => exact ⟨[], rfl, by decide⟩
  | toFloat => exact ⟨"a".toList, rfl, by decide⟩
  | fromFloat => exact ⟨"a".toList, rfl, by decide⟩
  | _ => exact ⟨"a, b".toList, rfl, by decide⟩

theorem readCall?_forward (s : Symbol) :
    ∃ call, Listing.forward s.family (.of s.operation) = "abi::".toList ++ call ∧
      readCall? call = some (FunctionItem.of s).call := by
  obtain ⟨F, op⟩ := s
  obtain ⟨list, hlist, harguments⟩ := exists_arguments op
  have hcolon : ':' ∉ (Template.of op).kernel := by
    cases op <;> decide
  have hfamily : '>' ∉ Listing.parameters F := Listing.notMem_parameters (by simp) (by simp) F
  refine ⟨(Template.of op).kernel ++ ':' :: (":<".toList ++ (Listing.parameters F ++ '>' ::
    ("(".toList ++ (list ++ ")".toList)))), ?_, ?_⟩
  · unfold Listing.forward
    simp only [hlist, List.append_assoc]
    rfl
  · unfold readCall?
    simp only [Text.cut?_append hcolon, Text.cut?_append hfamily, Text.after?_append,
      Text.between?_append, Option.bind_eq_bind, Option.bind_some,
      Template.ofKernel?_kernel_of, readFamily?_parameters, harguments]
    rfl

/-- The definition of a symbol is read as its function. The first brace ends the signature, and the
first bracket the name. -/
theorem readFunction?_definition (s : Symbol) :
    readFunction? (Listing.definition s.family (.of s.operation)) = some (.of s) := by
  obtain ⟨rest, hrest, hbrace, hsignature⟩ := exists_signature s.operation
  obtain ⟨call, hforward, hcall⟩ := readCall?_forward s
  have hname : ∀ mark : Char, ¬ mark.isAlphanum → mark ∉ s.name := fun mark h hmem =>
    h (Symbol.isAlphanum_of_mem_name hmem)
  -- the definition, cut at the first brace and before it at the first bracket
  have hline : Listing.definition s.family (.of s.operation) =
      "pub extern \"C\" fn ".toList ++ ((s.name ++ '(' :: (rest ++ [' '])) ++ '\x7b' ::
        (" abi::".toList ++ (call ++ " \x7d".toList))) := by
    unfold Listing.definition
    simp only [Listing.functionName_of, hrest, hforward, List.append_assoc, List.cons_append]
    rfl
  have hhead : '\x7b' ∉ s.name ++ '(' :: (rest ++ [' ']) := by
    simp only [List.mem_append, List.mem_cons, List.not_mem_nil, not_or]
    exact ⟨hname _ (by simp), by simp, hbrace, by simp, not_false⟩
  rw [hline, readFunction?]
  simp only [Text.after?_append, Text.between?_append, Text.cut?_append hhead,
    Text.cut?_append (hname '(' (by simp)), Option.bind_eq_bind, Option.bind_some, hsignature,
    hcall]
  rfl

end Source

/-! ## Lines without line feeds -/

namespace Listing

/-- Only digits, commas and blanks stand in the list of a set. -/
theorem notMem_widthList {mark : Char} (h : ¬ mark.isDigit) (hsep : mark ∉ ", ".toList)
    (W : WidthSet) : mark ∉ widthList W := by
  unfold widthList
  induction W.members using List.twoStepInduction with
  | nil => exact List.not_mem_nil
  | singleton w =>
    show mark ∉ Text.decimal w.bits ++ []
    rw [List.append_nil]
    exact Text.notMem_decimal h _
  | cons_cons v w ws _ ih =>
    simp only [List.map_cons, List.intercalate_cons_cons, List.mem_append, not_or]
    exact ⟨⟨Text.notMem_decimal h _, hsep⟩, ih w⟩

theorem notMem_parameters_lineFeed (F : Family) : '\n' ∉ parameters F :=
  notMem_parameters (by simp) (by simp) F

theorem notMem_name (s : Symbol) : '\n' ∉ s.name :=
  mt Symbol.isAlphanum_of_mem_name (by simp)

theorem notMem_keyRow (F : Family) : '\n' ∉ keyRow F := by
  unfold keyRow key
  simp [notMem_parameters_lineFeed]

theorem notMem_tableRow (s : Symbol) : '\n' ∉ tableRow s.family (.of s.operation) := by
  have hlabel : '\n' ∉ s.operation.label := mt (Symbol.isAlphanum_of_mem_label _ '\n') (by simp)
  have hword : '\n' ∉ s.operation.convention.word :=
    mt (Convention.isAlphanum_of_mem_word _ '\n') (by simp)
  unfold tableRow key
  rw [Template.operation_of, Template.convention_of, functionName_of]
  simp [notMem_parameters_lineFeed, notMem_name, hlabel, hword]

theorem notMem_definition (s : Symbol) : '\n' ∉ definition s.family (.of s.operation) := by
  have htemplate : '\n' ∉ (Template.of s.operation).signature ∧
      '\n' ∉ (Template.of s.operation).kernel ∧ '\n' ∉ (Template.of s.operation).arguments := by
    cases s.operation <;> decide
  unfold definition forward
  rw [functionName_of]
  simp [notMem_parameters_lineFeed, notMem_name, htemplate]

theorem notMem_arrayOpening {name type : List Char} (hname : '\n' ∉ name) (htype : '\n' ∉ type)
    (n : Nat) : '\n' ∉ Source.arrayOpening name type n := by
  have hdigits : '\n' ∉ Text.decimal n := Text.notMem_decimal (by simp) n
  unfold Source.arrayOpening
  simp [hname, htype, hdigits]

end Listing

/-! ## Reading the listing -/

namespace WidthSet

open Source Listing

variable (W : WidthSet)

theorem definitions_eq :
    definitions W =
      W.symbols.flatMap fun s => [exportLine, definition s.family (.of s.operation)] := by
  unfold definitions symbols
  rw [templates_eq]
  simp only [List.flatMap_assoc, List.flatMap_map]

theorem tableRows_eq :
    tableRows W = W.symbols.map fun s => tableRow s.family (.of s.operation) := by
  unfold tableRows symbols
  rw [templates_eq]
  simp only [List.map_flatMap, List.map_map]
  rfl

section Sections

variable {p : List Char → Prop}

theorem forall_mem_keyRows (h : ∀ F, p (keyRow F)) : ∀ line ∈ keyRows W, p line := by
  intro line hline
  obtain ⟨F, -, rfl⟩ := List.mem_map.1 hline
  exact h F

theorem forall_mem_definitions (hexport : p exportLine)
    (h : ∀ s : Symbol, p (definition s.family (.of s.operation))) :
    ∀ line ∈ definitions W, p line := by
  intro line hline
  rw [definitions_eq] at hline
  obtain ⟨s, -, hline⟩ := List.mem_flatMap.1 hline
  rcases List.mem_pair.1 hline with rfl | rfl
  · exact hexport
  · exact h s

theorem forall_mem_tableRows (h : ∀ s : Symbol, p (tableRow s.family (.of s.operation))) :
    ∀ line ∈ tableRows W, p line := by
  intro line hline
  rw [tableRows_eq] at hline
  obtain ⟨s, -, rfl⟩ := List.mem_map.1 hline
  exact h s

end Sections

/-- The lines of the listing, the two arrays set apart. -/
theorem listing_eq :
    W.listing =
      [W.listingHeader, [],
        "/// Every family with exported entry points, in registration order.".toList] ++
      arrayOpening "KEYS".toList "Key".toList W.families.length :: (keyRows W ++ "];".toList ::
        ([[]] ++ definitions W ++ [[],
          "/// One entry per (family, operation), grouped by family in registration order.".toList] ++
        arrayOpening "ENTRY_POINTS".toList "EntryPoint".toList (W.families.length * 8) ::
          (tableRows W ++ "];".toList :: []))) := by
  have hkeys : ∀ n, "pub(crate) static KEYS: [Key; ".toList ++ Text.decimal n ++ "] = [".toList =
      arrayOpening "KEYS".toList "Key".toList n :=
    append_eq_arrayOpening (by decide)
  have htable : ∀ n, "pub(crate) static ENTRY_POINTS: [EntryPoint; ".toList ++ Text.decimal n ++
      "] = [".toList = arrayOpening "ENTRY_POINTS".toList "EntryPoint".toList n :=
    append_eq_arrayOpening (by decide)
  unfold listing
  rw [sections_eq]
  dsimp only
  rw [hkeys, htable]
  simp only [List.append_assoc, List.cons_append, List.nil_append]

/-- A line feed stands in no line of the listing. -/
theorem notMem_of_mem_listing : ∀ line ∈ W.listing, '\n' ∉ line := by
  have hheader : '\n' ∉ W.listingHeader := by
    unfold listingHeader braced
    simp [notMem_widthList]
  have hexport : '\n' ∉ exportLine := by
    unfold exportLine
    simp
  have hnil := List.forall_mem_nil fun line : List Char => '\n' ∉ line
  rw [listing_eq]
  simp only [List.forall_mem_append, List.forall_mem_cons]
  exact ⟨⟨hheader, by simp, by simp, hnil⟩, notMem_arrayOpening (by simp) (by simp) _,
    W.forall_mem_keyRows notMem_keyRow, by simp,
    ⟨⟨⟨by simp, hnil⟩, W.forall_mem_definitions hexport notMem_definition⟩, by simp, by simp, hnil⟩,
    notMem_arrayOpening (by simp) (by simp) _, W.forall_mem_tableRows notMem_tableRow, by simp, hnil⟩

/-- The definitions are read as the functions of the symbols; their export lines are remarks. -/
theorem readItems?_definitions (rest : List (List Char)) :
    readItems? none (definitions W ++ rest) =
      (readItems? none rest).map (W.symbols.map (.function ∘ .of) ++ ·) := by
  rw [definitions_eq]
  induction W.symbols with
  | nil => exact Option.map_id'.symm
  | cons s symbols ih =>
    have hremark : ¬ isRemark (definition s.family (.of s.operation)) := Bool.false_ne_true
    rw [List.flatMap_cons, List.append_assoc, List.cons_append, List.cons_append, List.nil_append,
      readItems?_cons_of_isRemark (by decide),
      readItems?_cons_of_readFunction? hremark rfl (readFunction?_definition s), ih, Option.map_map]
    rfl

/-- The items of the listing are the two arrays, with the functions between them. -/
theorem readItems?_listing :
    readItems? none W.listing =
      some (.array ⟨"KEYS".toList, "Key".toList, W.families.length, keyRows W⟩ ::
        (W.symbols.map (.function ∘ .of) ++
          [.array ⟨"ENTRY_POINTS".toList, "EntryPoint".toList, W.families.length * 8,
            tableRows W⟩])) := by
  -- a row starts with a blank, the closing bracket of an array does not
  have hkeyRows : ∀ row ∈ keyRows W, row ≠ "];".toList :=
    W.forall_mem_keyRows fun F h => by cases h
  have htableRows : ∀ row ∈ tableRows W, row ≠ "];".toList :=
    W.forall_mem_tableRows fun s h => by cases h
  have hheader : isRemark W.listingHeader := rfl
  rw [listing_eq]
  simp only [List.cons_append, List.nil_append]
  rw [readItems?_cons_of_isRemark hheader, readItems?_cons_of_isRemark rfl,
    readItems?_cons_of_isRemark (by decide),
    readItems?_array (by decide) (by decide) _ hkeyRows, readItems?_cons_of_isRemark rfl,
    List.append_assoc, readItems?_definitions]
  simp only [List.cons_append, List.nil_append]
  rw [readItems?_cons_of_isRemark rfl, readItems?_cons_of_isRemark (by decide),
    readItems?_array (by decide) (by decide) _ htableRows, readItems?]
  rfl

/-- The declarations of a width set. -/
def source : Source where
  keysLength := W.families.length
  keys := W.families
  rowsLength := W.families.length * 8
  rows := W.symbols.map .of
  functions := W.symbols.map .of

/-- What a listing declares. -/
theorem read?_listingText : Source.read? W.listingText = some W.source := by
  have hkeys : (keyRows W).mapM readKey? = some (W.families.map id) :=
    mapM_map_eq_pure fun F _ => readKey?_keyRow F
  have hrows : (tableRows W).mapM readRow? = some (W.symbols.map .of) := by
    rw [tableRows_eq]
    exact mapM_map_eq_pure fun s _ => readRow?_tableRow s
  have harrays : (W.symbols.map (Item.function ∘ .of)).filterMap Item.array? = [] := by
    rw [List.filterMap_map]
    exact List.filterMap_eq_nil_iff.2 fun s _ => rfl
  have hfunctions : (W.symbols.map (Item.function ∘ .of)).filterMap Item.function? =
      W.symbols.map .of := by
    rw [List.filterMap_map]
    exact congrFun List.filterMap_eq_map' _
  -- the arrays are found around the functions, by their names and the types of their rows
  rw [Source.read?, listingText, lines_flatMap W.notMem_of_mem_listing, readItems?_listing,
    Option.bind_some, ofItems?]
  simp only [List.filterMap_cons, List.filterMap_append, List.filterMap_nil, Item.array?,
    Item.function?, harrays, hfunctions, List.append_nil, List.nil_append]
  rw [ArrayItem.read?, ArrayItem.read?, if_pos ⟨rfl, rfl⟩, if_pos ⟨rfl, rfl⟩, hkeys, hrows,
    List.map_id]
  rfl

/-- A symbol has one function. -/
theorem filter_functions {s : Symbol} (hs : s ∈ W.symbols) :
    W.source.functions.filter (·.name = s.name) = [.of s] := by
  have hname : ∀ t : Symbol, (FunctionItem.of t).name = s.name ↔ t = s := fun t =>
    Symbol.name_injective.eq_iff
  have hone : W.symbols.filter (fun t => decide (t = s)) = [s] := by
    rw [List.filter_eq, List.count_eq_one_of_mem W.nodup_symbols hs]
    rfl
  rw [source, List.filter_map]
  simp only [Function.comp_def, hname, hone]
  rfl

/-- The keys, the entry points and the functions of the symbols agree with the width set. -/
theorem agreesWith : W.source.AgreesWith W where
  keysLength := ⟨rfl, W.length_families⟩
  keys := rfl
  rowsLength := by
    show W.families.length * 8 = (W.symbols.map Row.of).length ∧
      (W.symbols.map Row.of).length = 16 * W.size
    rw [List.length_map, length_symbols, length_families]
    omega
  row := by
    intro i j F op hF hop
    -- an operation stands at its index only
    have hj : op.index = j :=
      (List.getElem?_inj op.index_lt (by decide)).1 (op.all_index.trans hop.symm)
    have hrow := W.getElem?_symbols i op
    rw [show W.families[i]? = some F from hF, Operation.length_all, Nat.mul_comm, hj] at hrow
    rw [source, List.getElem?_map, hrow]
    rfl
  function := by
    intro row hrow
    obtain ⟨s, hs, rfl⟩ := List.mem_map.1 hrow
    exact ⟨.of s, W.filter_functions hs, FunctionItem.forwards_of s⟩
  nodup := by
    rw [source, List.map_map]
    exact W.nodup_symbols.map Symbol.name_injective

/-- The rows and the functions of the listing make up the table: the function of a row forwards to
the routine of its symbol. -/
theorem table?_source : W.source.table? = some W.table := by
  have hentry : ∀ s ∈ W.symbols, W.source.entryPoint? (.of s) = some (.of s) := by
    intro s hs
    have hfind : W.source.functions.find? (·.name = s.name) = some (.of s) := by
      rw [← List.head?_filter, W.filter_functions hs]
      rfl
    have hroutine : (FunctionItem.of s).routine? = some (.of s.family s.operation) := by
      have h := FunctionItem.forwards_of s
      rw [FunctionItem.routine?, h.kernel, h.family]
      exact if_pos ⟨h.arguments, h.takes, h.gives⟩
    have hconvention : (Routine.of s.family s.operation).convention = (Row.of s).convention :=
      Routine.convention_of _ _
    rw [Source.entryPoint?, show (Row.of s).function = s.name from rfl, hfind]
    simp only [Option.bind_eq_bind, Option.bind_some, hroutine, if_pos hconvention]
    rfl
  exact mapM_map_eq_pure hentry

/-- **The listing of a width set declares its keys and its entry points.** What can be read off the
text agrees with the width set: the arrays have their declared lengths, the keys and the entry
points are those of the set in their order, and each entry point has one function, with the name of
its symbol, which forwards to the kernel of the operation at the family. So the rows and the
functions make up the table of the set. The text has ten lines, and fifty for each width. -/
theorem listing_declares_entry_points :
    (∃ S, Source.read? W.listingText = some S ∧ S.AgreesWith W ∧ S.table? = some W.table) ∧
    (lines W.listingText).length = 10 + 50 * W.size := by
  constructor
  · exact ⟨W.source, W.read?_listingText, W.agreesWith, W.table?_source⟩
  · rw [listingText, lines_flatMap W.notMem_of_mem_listing, length_listing]

end WidthSet

end NarrowInt
