import IrAssembly.Proofs.Assembly.LabelLines
import IrAssembly.Proofs.Assembly.Quotation
import IrAssembly.Proofs.Assembly.TypeNames
import IrAssembly.Proofs.Assembly.Wording
import Mathlib.Algebra.Ring.Nat

/-! How many lines the text of a function has. Local and global names and texts of inline assembly
are escaped, so nothing but the cases of a switch takes a further line, unless there is a line break
in the name of a type, which is not escaped. -/

namespace IrAssembly

/-! Lines of a text -/

/-- Text without a line break. -/
def OneLine (text : String) : Prop := '\n' ∉ text.toList

/-- The lines of a text, each up to its line break. -/
def linesOf (text : String) : List String := (text.toList.splitOn '\n').dropLast.map String.ofList

theorem OneLine.append {front back : String} (first : OneLine front) (second : OneLine back) :
    OneLine (front ++ back) := by
  rw [OneLine, String.toList_append, List.mem_append, not_or]
  exact ⟨first, second⟩

theorem OneLine.word {text : String} (free : text.toList.contains '\n' = false) : OneLine text := by
  simpa [OneLine] using free

theorem OneLine.phrase {text : String} (free : isPhrase text = true) : OneLine text := by
  intro member
  exact absurd (List.all_eq_true.mp free '\n' member) (by decide)

theorem linesOf_append (line rest : String) :
    linesOf (line ++ "\n" ++ rest) =
      (line.toList.splitOn '\n').map String.ofList ++ linesOf rest := by
  have letters : (line ++ "\n" ++ rest).toList = line.toList ++ '\n' :: rest.toList := by simp
  have pieces : (line.toList ++ '\n' :: rest.toList).splitOn '\n' =
      line.toList.splitOn '\n' ++ rest.toList.splitOn '\n' := List.splitOnP_append_cons _ _ rfl
  rw [linesOf, letters, pieces, List.dropLast_append_of_ne_nil (List.splitOn_ne_nil _ _),
    List.map_append, linesOf]

theorem linesOf_line (line : String) :
    linesOf (line ++ "\n") = (line.toList.splitOn '\n').map String.ofList := by
  have alone := linesOf_append line ""
  rwa [String.append_empty, show linesOf "" = [] from rfl, List.append_nil] at alone

theorem OneLine.linesOf_eq {line : String} (single : OneLine line) :
    linesOf (line ++ "\n") = [line] := by
  rw [linesOf_line, List.splitOn_eq_singleton single, List.map_singleton, String.ofList_toList]

theorem linesOf_unlines (lines : List String) :
    linesOf (unlines lines) = lines.flatMap fun line => linesOf (line ++ "\n") := by
  induction lines with
  | nil => rfl
  | cons line lines ih =>
    rw [unlines, List.map_cons, String.join_cons, linesOf_append, ← linesOf_line,
      List.flatMap_cons, ← ih, unlines]

/-- Each line break starts a line. -/
theorem length_linesOf_line (line : String) :
    (linesOf (line ++ "\n")).length = line.toList.count '\n' + 1 := by
  rw [linesOf_line, List.length_map, List.splitOn_eq_splitOnP]
  induction line.toList with
  | nil => rfl
  | cons char letters ih =>
    rw [List.splitOnP_cons_eq_if_modifyHead]
    split
    · rename_i same
      rw [List.length_cons, ih, beq_iff_eq.mp same, List.count_cons_self]
    · rename_i differ
      rw [List.length_modifyHead, ih, List.count_cons_of_ne (by simpa using differ)]

theorem toList_unlines (lines : List String) :
    (unlines lines).toList = lines.flatMap fun line => line.toList ++ ['\n'] := by
  induction lines with
  | nil => rfl
  | cons line lines ih =>
    rw [unlines, List.map_cons, String.join_cons, String.toList_append, List.flatMap_cons, ← ih,
      unlines, String.toList_append]
    rfl

theorem flatMap_splitOn (letters : List Char) :
    (letters.splitOn '\n').flatMap (· ++ ['\n']) = letters ++ ['\n'] := by
  rw [List.splitOn_eq_splitOnP]
  induction letters with
  | nil => rfl
  | cons char letters ih =>
    obtain ⟨piece, others, pieces⟩ :=
      List.exists_cons_of_ne_nil (List.splitOnP_ne_nil (· == '\n') letters)
    rw [List.splitOnP_cons_eq_if_modifyHead]
    split
    · rename_i same
      rw [List.flatMap_cons, ih, beq_iff_eq.mp same]
      rfl
    · rw [pieces, List.modifyHead_cons, List.flatMap_cons]
      rw [pieces, List.flatMap_cons] at ih
      simp [← ih]

/-- No letter gets lost where the last line has its line break. -/
theorem unlines_linesOf (lines : List String) :
    unlines (linesOf (unlines lines)) = unlines lines := by
  apply String.toList_injective
  rw [toList_unlines, toList_unlines, linesOf_unlines, List.flatMap_assoc]
  refine List.flatMap_congr fun line _ => ?_
  rw [linesOf_line, List.flatMap_map, ← flatMap_splitOn]
  simp

/-! Types -/

namespace Ty

/-- No name of a structure or a bodiless type in the type has a line break. -/
def NamesOneLine (ty : Ty) : Prop :=
  ∀ part ∈ ty.namedParts, ∀ name, part.name? = some name → OneLine name

theorem oneLine_commaSeparated {parts : List String} (lines : ∀ part ∈ parts, OneLine part) :
    OneLine (commaSeparated parts) :=
  good_intercalate (.word rfl) (.word rfl) .append lines

theorem oneLine_structBody {fields : List String} (lines : ∀ field ∈ fields, OneLine field)
    (packed : Bool) : OneLine (structBody fields packed) := by
  have body : OneLine (if fields.isEmpty then "\x7b\x7d"
      else "\x7b " ++ commaSeparated fields ++ " \x7d") := by
    split
    · exact .word rfl
    · exact .append (.append (.word rfl) (oneLine_commaSeparated lines)) (.word rfl)
  unfold structBody
  dsimp only
  split
  · exact .append (.append (.word rfl) body) (.word rfl)
  · exact body

mutual

theorem oneLine_text : ∀ ty : Ty, ty.NamesOneLine → OneLine ty.text
  | void, _ | label, _ | metadata, _ => .word rfl
  | int bits, _ => .append (.word rfl) (.phrase (isPhrase_toString _))
  | float kind, _ => by
    cases kind <;> exact .word rfl
  | ptr pointee, lines => by
    rw [NamesOneLine, namedParts] at lines
    exact .append (oneLine_text pointee lines) (.word rfl)
  | array len element, lines | vector len element, lines => by
    rw [NamesOneLine, namedParts] at lines
    exact .append (.append (.append (.append (.word rfl) (.phrase (isPhrase_toString _)))
      (.word rfl)) (oneLine_text element lines)) (.word rfl)
  | struct (some name) fields packed, lines => by
    rw [NamesOneLine, namedParts] at lines
    exact .append (.word rfl) (lines _ (List.mem_cons_self ..) name rfl)
  | struct none fields packed, lines => by
    rw [NamesOneLine, namedParts] at lines
    exact oneLine_structBody (oneLine_texts fields lines) packed
  | func result params vararg, lines => by
    rw [NamesOneLine, namedParts, List.forall_mem_append] at lines
    exact .append (.append (.append (oneLine_text result lines.1) (.word rfl))
      (oneLine_commaSeparated (good_parameterTexts (.word rfl) (oneLine_texts params lines.2) _)))
      (.word rfl)
  | bodiless name, lines => by
    rw [NamesOneLine, namedParts] at lines
    exact .append (.word rfl) (lines _ (List.mem_singleton_self _) name rfl)

theorem oneLine_texts : ∀ types : List Ty,
    (∀ part ∈ namedPartsOf types, ∀ name, part.name? = some name → OneLine name) →
    ∀ text ∈ texts types, OneLine text
  | [], _ => List.forall_mem_nil _
  | ty :: types, lines => by
    rw [namedPartsOf, List.forall_mem_append] at lines
    exact List.forall_mem_cons.mpr ⟨oneLine_text ty lines.1, oneLine_texts types lines.2⟩

end

end Ty

/-! Phrases -/

theorem oneLine_of_isPrintable {text : String}
    (printable : ∀ char ∈ text.toList, isPrintable char = true) : OneLine text :=
  fun member => absurd (printable '\n' member) (by decide)

theorem oneLine_quoted (text : String) : OneLine ("\"" ++ escapeString text ++ "\"") :=
  .append (.append (.word rfl)
    (oneLine_of_isPrintable fun _ member => isPrintable_of_mem_escapeString member)) (.word rfl)

theorem oneLine_localName (name : String) : OneLine (localName name) :=
  .append (.word rfl) (oneLine_of_isPrintable fun _ member => isPrintable_of_mem_spelledName member)

namespace Vocabulary

variable {vocabulary : Vocabulary} {text : String}

/-- All types of the vocabulary are written on one line. -/
def TypesOneLine (vocabulary : Vocabulary) : Prop :=
  ∀ ty, ty.DefinedIn vocabulary.definitions ∨ vocabulary.strays ty → OneLine ty.text

theorem Phrases.oneLine (formed : vocabulary.Phrases text) (lines : vocabulary.TypesOneLine) :
    OneLine text := by
  induction formed with
  | phrase free => exact .phrase free
  | quoted text => exact oneLine_quoted text
  | name known => exact oneLine_localName _
  | ty defined => exact lines _ (.inl defined)
  | stray known => exact lines _ (.inr known)
  | append _ _ first second => exact .append first second

/-- Line breaks are those between the lines. -/
theorem Spans.count_lineBreaks {count : Nat} (spans : vocabulary.Spans count text)
    (lines : vocabulary.TypesOneLine) : text.toList.count '\n' + 1 = count := by
  induction spans with
  | line formed => rw [List.count_eq_zero.mpr (formed.oneLine lines)]
  | broken first _ ih =>
    have separator : ("\n" ++ indent ++ indent).toList.count '\n' = 1 := rfl
    rw [String.toList_append, String.toList_append, List.count_append, List.count_append,
      separator, List.count_eq_zero.mpr (first.oneLine lines)]
    omega

end Vocabulary

/-! Functions -/

/-- The type of a value, and those inside if it is a constant. -/
def Value.tys : Value → List Ty
  | .constant known => known.ty :: known.innerTys
  | value => [value.ty]

namespace FunctionDef

/-- The types of an instruction and of its operands. -/
def tysOf (function : FunctionDef) (instruction : Instruction) : List Ty :=
  instruction.mentionedTys ++ (instruction.operands.filterMap function.symbol?).flatMap Value.tys

/-- The types of the signature, the parameters, the instructions in blocks, and their operands. -/
def writtenTys (function : FunctionDef) : List Ty :=
  function.signature.toTy :: function.parameters.map Parameter.ty ++
    (function.sequence.filterMap function.instruction?).flatMap function.tysOf

/-- What a function is written with, whatever its names are. -/
def vocabulary (function : FunctionDef) : Vocabulary where
  names _ := True
  definitions := function.writtenTys.flatMap Ty.namedParts
  strays ty := ty ∈ function.writtenTys

/-- The lines that the instruction with a number takes. -/
def takenLines (function : FunctionDef) (dialect : Dialect) (id : InstId) : List String :=
  match (function.instruction? id).map (function.line dialect) with
  | some (.ok line) => linesOf (indent ++ line ++ "\n")
  | _ => []

/-- The lines of consecutive blocks, each but the first behind a blank line and its label. -/
def blockLines (function : FunctionDef) (dialect : Dialect) : List Block → List String
  | [] => []
  | entry :: later => entry.instructions.flatMap (function.takenLines dialect) ++
    later.flatMap fun block =>
      "" :: labelLine block :: block.instructions.flatMap (function.takenLines dialect)

variable {function : FunctionDef} {dialect : Dialect} {id : InstId} {instruction : Instruction}

/-! Its vocabulary -/

theorem definedIn_of_written {ty : Ty} (written : ty ∈ function.writtenTys) :
    ty.DefinedIn function.vocabulary.definitions :=
  fun _ inside => List.mem_flatMap.mpr ⟨ty, written, inside⟩

theorem typesOneLine (plain : ∀ ty ∈ function.writtenTys, ty.NamesOneLine) :
    function.vocabulary.TypesOneLine := by
  rintro ty (defined | stray)
  · refine ty.oneLine_text fun part inside name named => ?_
    obtain ⟨written, member, within⟩ := List.mem_flatMap.mp (defined inside)
    exact plain written member part within name named
  · exact ty.oneLine_text (plain ty stray)

theorem oneLine_header (plain : ∀ ty ∈ function.writtenTys, ty.NamesOneLine) :
    OneLine function.header := by
  refine (Vocabulary.header (definedIn_of_written (List.mem_cons_self ..)) ?_).oneLine
    (typesOneLine plain)
  intro formal member
  refine ⟨.ty (definedIn_of_written ?_), trivial⟩
  exact List.mem_append_left _ (List.mem_cons_of_mem _ (List.mem_map_of_mem member))

theorem mem_writtenTys (listed : id ∈ function.sequence)
    (found : function.instruction? id = some instruction) {ty : Ty}
    (inside : ty ∈ function.tysOf instruction) : ty ∈ function.writtenTys :=
  List.mem_append_right _ (List.mem_flatMap.mpr
    ⟨instruction, List.mem_filterMap.mpr ⟨id, listed, found⟩, inside⟩)

theorem vocabulary_suffices (listed : id ∈ function.sequence)
    (found : function.instruction? id = some instruction) :
    function.vocabulary.Suffices function instruction where
  mentioned _ mentions :=
    definedIn_of_written (mem_writtenTys listed found (List.mem_append_left _ mentions))
  operands index member value registered := by
    have written {ty : Ty} (inside : ty ∈ value.tys) : ty ∈ function.writtenTys :=
      mem_writtenTys listed found (List.mem_append_right _ (List.mem_flatMap.mpr
        ⟨value, List.mem_filterMap.mpr ⟨index, member, registered⟩, inside⟩))
    cases value with
    | constant known =>
      exact .constant (definedIn_of_written (written (.head _))) fun _ inside =>
        written (.tail _ inside)
    | result slot => exact .result (definedIn_of_written (written (.head _))) trivial
    | parameter formal => exact .parameter (definedIn_of_written (written (.head _))) trivial
    | function callee => exact .function (definedIn_of_written (written (.head _)))
  blocks _ _ := trivial

/-! Its lines -/

theorem Spells.takes {text : String} (spells : function.Spells dialect id text) :
    ∃ instruction line, function.instruction? id = some instruction ∧
      function.line dialect instruction = .ok line ∧
      function.takenLines dialect id = linesOf (indent ++ line ++ "\n") ∧
      text = indent ++ line := by
  obtain ⟨instruction, body, found, written, rfl⟩ := spells
  have line : function.line dialect instruction = .ok (instruction.assignment ++ body) := by
    unfold FunctionDef.line Instruction.assignment
    rw [written]
    cases instruction.result? <;> simp [bind, Except.bind, pure, Except.pure]
  refine ⟨instruction, _, found, line, ?_, rfl⟩
  rw [takenLines, found, Option.map_some, line]

theorem flatMap_linesOf {ids : List InstId} {lines : List String}
    (spelled : List.Forall₂ (function.Spells dialect) ids lines) :
    (lines.flatMap fun line => linesOf (line ++ "\n")) =
      ids.flatMap (function.takenLines dialect) := by
  induction spelled with
  | nil => rfl
  | cons first _ ih =>
    obtain ⟨_, _, _, _, taken, rfl⟩ := first.takes
    rw [List.flatMap_cons, List.flatMap_cons, ih, taken]

theorem oneLine_labelLine (plain : ∀ ty ∈ function.writtenTys, ty.NamesOneLine) (block : Block) :
    OneLine (labelLine block) :=
  (Vocabulary.labelLine block).oneLine (typesOneLine plain)

theorem flatMap_linesOf_later (plain : ∀ ty ∈ function.writtenTys, ty.NamesOneLine)
    {later : List Block} {groups : List (List String)}
    (written : List.Forall₂ (fun block group =>
      function.laterBlockLines dialect block = .ok group) later groups) :
    (groups.flatten.flatMap fun line => linesOf (line ++ "\n")) = later.flatMap fun block =>
      "" :: labelLine block :: block.instructions.flatMap (function.takenLines dialect) := by
  induction written with
  | nil => rfl
  | cons first _ ih =>
    obtain ⟨held, heldWritten, rfl⟩ := exists_held_of_laterBlockLines first
    have blank : OneLine "" := .word rfl
    rw [List.flatten_cons, List.flatMap_append, ih, List.flatMap_cons, List.flatMap_cons,
      List.flatMap_cons, flatMap_linesOf (instructionLines_spell heldWritten), blank.linesOf_eq,
      (oneLine_labelLine plain _).linesOf_eq]
    rfl

theorem linesOf_unlines_lines (plain : ∀ ty ∈ function.writtenTys, ty.NamesOneLine)
    {lines : List String} (written : function.lines dialect = .ok lines) :
    linesOf (unlines lines) =
      function.header :: function.blockLines dialect function.orderedBlocks ++ ["\x7d"] := by
  have closing : OneLine "\x7d" := .word rfl
  have opening := (oneLine_header plain).linesOf_eq
  rw [linesOf_unlines]
  rw [FunctionDef.lines] at written
  cases blocks : function.orderedBlocks with
  | nil =>
    rw [blocks] at written
    cases written
    rw [List.flatMap_cons, List.flatMap_singleton, opening, closing.linesOf_eq]
    rfl
  | cons entry later =>
    rw [blocks] at written
    obtain ⟨first, firstWritten, rest⟩ := of_bind_eq_ok written
    obtain ⟨groups, groupsWritten, same⟩ := of_bind_eq_ok rest
    cases same
    rw [List.flatMap_append, List.flatMap_append, List.flatMap_cons, List.flatMap_singleton,
      opening, closing.linesOf_eq, flatMap_linesOf (instructionLines_spell firstWritten),
      flatMap_linesOf_later plain (forall₂_of_mapM_eq_ok groupsWritten), blockLines]
    simp

/-! How many they are -/

theorem length_takenLines (plain : ∀ ty ∈ function.writtenTys, ty.NamesOneLine)
    (listed : id ∈ function.sequence) (found : function.instruction? id = some instruction)
    {line : String} (written : function.line dialect instruction = .ok line) :
    (linesOf (indent ++ line ++ "\n")).length = instruction.lineCount := by
  have spans := (vocabulary_suffices listed found).line (fun _ _ => trivial) line written
  rw [length_linesOf_line]
  exact (spans.behind (.phrase rfl)).count_lineBreaks (typesOneLine plain)

theorem length_flatMap_takenLines {ids : List InstId}
    (counted : ∀ id ∈ ids, ∃ instruction, function.instruction? id = some instruction ∧
      (function.takenLines dialect id).length = instruction.lineCount) :
    (ids.flatMap (function.takenLines dialect)).length =
      ((ids.filterMap function.instruction?).map Instruction.lineCount).sum := by
  induction ids with
  | nil => rfl
  | cons id ids ih =>
    obtain ⟨⟨instruction, found, length⟩, others⟩ := List.forall_mem_cons.mp counted
    rw [List.flatMap_cons, List.length_append, ih others, length,
      List.filterMap_cons_some found, List.map_cons, List.sum_cons]

theorem length_blockLines (blocks : List Block) :
    (function.blockLines dialect blocks).length = 2 * (blocks.length - 1) +
      ((blocks.flatMap Block.instructions).flatMap (function.takenLines dialect)).length := by
  cases blocks with
  | nil => rfl
  | cons entry later =>
    rw [blockLines, List.length_append, List.flatMap_cons, List.flatMap_append, List.length_append,
      List.length_cons, Nat.add_sub_cancel]
    induction later with
    | nil => simp
    | cons block later ih =>
      simp only [List.flatMap_cons, List.flatMap_append, List.length_append, List.length_cons]
        at ih ⊢
      omega

/-- If no name of a type has a line break, the text of a function is its header, the lines of the
instructions block after block, with a blank line and a label in front of each block but the first,
and the closing brace. An instruction takes one line, a switch one for each of its cases. -/
theorem lines_counted {text : String} (plain : ∀ ty ∈ function.writtenTys, ty.NamesOneLine)
    (written : function.assembly dialect = .ok text) :
    unlines (linesOf text) = text ∧
      linesOf text =
        function.header :: function.blockLines dialect function.orderedBlocks ++ ["\x7d"] ∧
      (∀ id ∈ function.sequence, ∃ instruction line,
        function.instruction? id = some instruction ∧
        function.line dialect instruction = .ok line ∧
        function.takenLines dialect id = linesOf (indent ++ line ++ "\n") ∧
        (function.takenLines dialect id).length = instruction.lineCount) ∧
      (linesOf text).length = 2 + 2 * (function.orderedBlocks.length - 1) +
        ((function.sequence.filterMap function.instruction?).map Instruction.lineCount).sum := by
  obtain ⟨lines, linesWritten, same⟩ := of_bind_eq_ok written
  cases same
  have parts := linesOf_unlines_lines plain linesWritten
  have counted : ∀ id ∈ function.sequence, ∃ instruction line,
      function.instruction? id = some instruction ∧
      function.line dialect instruction = .ok line ∧
      function.takenLines dialect id = linesOf (indent ++ line ++ "\n") ∧
      (function.takenLines dialect id).length = instruction.lineCount := by
    intro id listed
    obtain ⟨_, _, spells⟩ := exists_of_forall₂ (lines_spell linesWritten) listed
    obtain ⟨instruction, line, found, lineWritten, taken, _⟩ := spells.takes
    refine ⟨instruction, line, found, lineWritten, taken, ?_⟩
    rw [taken, length_takenLines plain listed found lineWritten]
  refine ⟨unlines_linesOf lines, parts, counted, ?_⟩
  rw [parts, List.length_append, List.length_cons, List.length_singleton, length_blockLines,
    flatMap_orderedBlocks, length_flatMap_takenLines]
  · omega
  · intro id listed
    obtain ⟨instruction, _, found, _, _, length⟩ := counted id listed
    exact ⟨instruction, found, length⟩

/-- A switch of two cases and a return, with line breaks in the names of everything but types. -/
theorem lines_counted_of_switch : ∃ (function : FunctionDef) (text : String),
    function.name = "f\n" ∧ function.assembly .v32 = .ok text ∧
    (∀ ty ∈ function.writtenTys, ty.NamesOneLine) ∧ (linesOf text).length = 7 := by
  let formal : Parameter := ⟨0, "a\nb", .i32⟩
  let function : FunctionDef :=
    { name := "f\n", signature := ⟨.void, [.i32], false⟩, order := [⟨0⟩, ⟨1⟩]
      parameters := [formal]
      blocks := [⟨⟨0⟩, 0, none, [0]⟩, ⟨⟨1⟩, 1, some "\n", [1]⟩]
      instructions := [.literalSwitch 0 ⟨1⟩ [(1, ⟨1⟩), (2, ⟨1⟩)], .ret none]
      symbols := [.parameter formal] }
  have types : function.writtenTys = [.func .void [.i32] false, .i32, .i32] := rfl
  have plain : ∀ ty ∈ function.writtenTys, ty.NamesOneLine := by
    rw [types]
    simp [Ty.NamesOneLine, Ty.namedParts, Ty.namedPartsOf, Ty.i32]
  have succeeds : (function.assembly .v32).toOption.isSome = true := by decide +kernel
  cases written : function.assembly .v32 with
  | error error =>
    rw [written] at succeeds
    cases succeeds
  | ok text => exact ⟨function, text, rfl, written, plain, (lines_counted plain written).2.2.2⟩

end FunctionDef

end IrAssembly
