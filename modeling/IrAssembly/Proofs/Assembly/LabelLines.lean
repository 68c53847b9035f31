import IrAssembly.Proofs.Assembly.InstructionLines
import IrAssembly.Proofs.Function.Labels
import IrAssembly.Proofs.Function.Typing

/-! References to named blocks and the lines that label them. An instruction refers to a block by
the spelling of its name behind a sigil, and the same spelling labels every block but the first of
the listing. -/

namespace IrAssembly

/-- A text that holds another one. -/
def Shows (text part : String) : Prop := ∃ front back, text = front ++ part ++ back

namespace Shows

variable {text part : String} {parts : List String}

theorem refl (text : String) : Shows text text := ⟨"", "", by simp⟩

theorem behind (shows : Shows text part) (front : String) : Shows (front ++ text) part := by
  obtain ⟨before, after, rfl⟩ := shows
  exact ⟨front ++ before, after, by simp only [String.append_assoc]⟩

theorem before (shows : Shows text part) (back : String) : Shows (text ++ back) part := by
  obtain ⟨front, after, rfl⟩ := shows
  exact ⟨front, after ++ back, by simp only [String.append_assoc]⟩

theorem intercalate (shows : Shows text part) (member : text ∈ parts) (separator : String) :
    Shows (separator.intercalate parts) part := by
  induction parts with
  | nil => cases member
  | cons first parts ih =>
    by_cases last : parts = []
    · subst last
      rw [List.mem_singleton.mp member] at shows
      rwa [String.intercalate_singleton]
    · rw [String.intercalate_cons_of_ne_nil last]
      rcases List.mem_cons.mp member with rfl | later
      · exact (shows.before separator).before _
      · exact (ih later).behind _

end Shows

/-- What is related to an entry of the first list is in the second one. -/
theorem exists_of_forall₂ {α β : Type} {relation : α → β → Prop} {items : List α}
    {results : List β} (related : List.Forall₂ relation items results) {item : α}
    (member : item ∈ items) : ∃ result ∈ results, relation item result := by
  induction related with
  | nil => cases member
  | cons first _ ih =>
    rcases List.mem_cons.mp member with rfl | later
    · exact ⟨_, List.mem_cons_self .., first⟩
    · obtain ⟨result, found, stepped⟩ := ih later
      exact ⟨result, List.mem_cons_of_mem _ found, stepped⟩

/-- How an instruction refers to a block with a name: as a target, or as the origin of a value. -/
def Instruction.reference (instruction : Instruction) (name : String) : String :=
  match instruction with
  | phi .. => ", " ++ localName name ++ " ]"
  | _ => "label " ++ localName name

namespace FunctionDef

variable {function : FunctionDef} {dialect : Dialect} {ref : BlockRef} {name text : String}

/-! References -/

theorem blockName_of_labelOf (named : function.labelOf ref = some name) :
    function.blockName ref = .ok (localName name) := by
  obtain ⟨⟨id, index, label, instructions⟩, found, same⟩ := Option.bind_eq_some_iff.mp named
  cases same
  rw [blockName, found]

theorem labelText_of_labelOf (named : function.labelOf ref = some name) :
    function.labelText ref = .ok ("label " ++ localName name) := by
  rw [labelText, blockName_of_labelOf named]
  rfl

/-- The target of a branch, once its label is written. -/
theorem shows_of_labelText (named : function.labelOf ref = some name)
    (written : function.labelText ref = .ok text) : Shows text ("label " ++ localName name) := by
  rw [labelText_of_labelOf named] at written
  cases written
  exact .refl _

theorem switchText_shows {condition : SymbolIndex} {default : BlockRef} {cases : List String}
    (written : function.switchText dialect condition default cases = .ok text) {part : String}
    (shown : (∀ label, function.labelText default = .ok label → Shows label part) ∨
      ∃ case ∈ cases, Shows case part) : Shows text part := by
  obtain ⟨conditionText, _, rest⟩ := of_bind_eq_ok written
  obtain ⟨defaultText, label, same⟩ := of_bind_eq_ok rest
  cases same
  rcases shown with target | ⟨case, member, shows⟩
  · exact ((((target defaultText label).behind _).before _).before _).before _
  · exact ((shows.intercalate member _).behind _).before _

/-- A switch mentions its default block and the block of each case, whatever the cases look like. -/
theorem switch_shows {α : Type} {condition : SymbolIndex} {default : BlockRef}
    {cases : List (α × BlockRef)} {caseTexts : List String}
    {caseText : α × BlockRef → Except WriteError String}
    (casesWritten : cases.mapM caseText = .ok caseTexts)
    (written : function.switchText dialect condition default caseTexts = .ok text)
    (named : function.labelOf ref = some name)
    (shows : ∀ value line, caseText (value, ref) = .ok line →
      Shows line ("label " ++ localName name))
    (aims : ref ∈ default :: cases.map Prod.snd) : Shows text ("label " ++ localName name) := by
  refine switchText_shows written ?_
  rcases List.mem_cons.mp aims with rfl | inCases
  · exact .inl fun label => shows_of_labelText named
  · obtain ⟨⟨value, target⟩, member, rfl⟩ := List.mem_map.mp inCases
    have each := forall₂_of_mapM_eq_ok casesWritten
    obtain ⟨line, listed, lineWritten⟩ := exists_of_forall₂ each member
    exact .inr ⟨line, listed, shows value line lineWritten⟩

/-- An instruction shows the name of every named block that it mentions. -/
theorem bodyText_shows {instruction : Instruction}
    (written : function.bodyText dialect instruction = .ok text)
    (aims : ref ∈ instruction.blocks) (named : function.labelOf ref = some name) :
    Shows text (instruction.reference name) := by
  cases instruction with
  | branch successor =>
    rw [List.mem_singleton.mp aims] at named
    obtain ⟨label, labelled, same⟩ := of_bind_eq_ok written
    cases same
    exact (shows_of_labelText named labelled).behind _
  | conditionalBranch condition onTrue onFalse =>
    obtain ⟨conditionText, _, rest⟩ := of_bind_eq_ok written
    obtain ⟨trueText, trueLabel, rest⟩ := of_bind_eq_ok rest
    obtain ⟨falseText, falseLabel, same⟩ := of_bind_eq_ok rest
    cases same
    rcases List.mem_cons.mp aims with rfl | other
    · exact (((shows_of_labelText named trueLabel).behind _).before _).before _
    · rw [List.mem_singleton.mp other] at named
      exact (shows_of_labelText named falseLabel).behind _
  | indirectBranch address successors =>
    obtain ⟨labels, labelled, rest⟩ := of_bind_eq_ok written
    obtain ⟨addressText, _, same⟩ := of_bind_eq_ok rest
    cases same
    obtain ⟨label, listed, labelWritten⟩ := exists_of_forall₂ (forall₂_of_mapM_eq_ok labelled) aims
    exact (((shows_of_labelText named labelWritten).intercalate listed _).behind _).before _
  | switch condition default cases =>
    obtain ⟨caseTexts, casesWritten, rest⟩ := of_bind_eq_ok written
    refine switch_shows casesWritten rest named ?_ aims
    intro value line lineWritten
    obtain ⟨valueText, _, rest⟩ := of_bind_eq_ok lineWritten
    obtain ⟨label, labelled, same⟩ := of_bind_eq_ok rest
    cases same
    exact (shows_of_labelText named labelled).behind _
  | literalSwitch condition default cases =>
    obtain ⟨ty, _, rest⟩ := of_bind_eq_ok written
    obtain ⟨caseTexts, casesWritten, rest⟩ := of_bind_eq_ok rest
    refine switch_shows casesWritten rest named ?_ aims
    intro value line lineWritten
    obtain ⟨label, labelled, same⟩ := of_bind_eq_ok lineWritten
    cases same
    exact (shows_of_labelText named labelled).behind _
  | phi result incoming =>
    obtain ⟨edges, edgesWritten, same⟩ := of_bind_eq_ok written
    cases same
    obtain ⟨⟨value, origin⟩, member, rfl⟩ := List.mem_map.mp aims
    have each := forall₂_of_mapM_eq_ok edgesWritten
    obtain ⟨edge, listed, edgeWritten⟩ := exists_of_forall₂ each member
    obtain ⟨valueText, _, rest⟩ := of_bind_eq_ok edgeWritten
    rw [blockName_of_labelOf named] at rest
    cases rest
    have shows : Shows ("[ " ++ valueText ++ ", " ++ localName name ++ " ]")
        (", " ++ localName name ++ " ]") :=
      ⟨"[ " ++ valueText, "", by simp [String.append_assoc]⟩
    exact (shows.intercalate listed _).behind _
  | _ => cases aims

/-! Labels -/

/-- The line that labels a block of a name. -/
def labelOfName (name : String) : String := spelledName name ++ ":"

theorem labelLine_eq_iff {block : Block} :
    labelLine block = labelOfName name ↔ block.name = some name := by
  obtain ⟨id, index, own, instructions⟩ := block
  cases own with
  | some own =>
    simp only [labelLine, labelOfName, String.append_left_inj, Option.some.injEq]
    exact spelledName_injective.eq_iff
  | none =>
    -- a comment does not start like a name
    obtain ⟨char, others, letters, first⟩ := exists_head_spelledName name
    have differ : ';' ≠ char := by
      rintro rfl
      exact absurd first (by decide)
    refine iff_of_false (fun same => ?_) (by simp)
    have lists := congrArg String.toList same
    simp [labelLine, labelOfName, letters, differ] at lists

/-- The lines of a later block start with its label. -/
theorem exists_held_of_laterBlockLines {block : Block} {lines : List String}
    (written : function.laterBlockLines dialect block = .ok lines) :
    ∃ held, function.instructionLines dialect block = .ok held ∧
      lines = "" :: labelLine block :: held := by
  obtain ⟨held, heldWritten, same⟩ := of_bind_eq_ok written
  cases same
  exact ⟨held, heldWritten, rfl⟩

theorem isIndented_of_mem_instructionLines {block : Block} {lines : List String}
    (written : function.instructionLines dialect block = .ok lines) {line : String}
    (member : line ∈ lines) : isIndented line = true := by
  rw [← filter_isIndented (instructionLines_spell written)] at member
  exact (List.mem_filter.mp member).2

/-- The listing has this line, and behind it the lines of the block. -/
def Opens (function : FunctionDef) (dialect : Dialect) (lines : List String) (line : String)
    (block : Block) : Prop :=
  ∃ front held back, function.instructionLines dialect block = .ok held ∧
    lines = front ++ (line :: held) ++ back

variable {lines : List String}

/-- Behind the instructions of the first block, the later blocks follow with their labels. -/
theorem lines_parts (written : function.lines dialect = .ok lines) :
    ∃ first groups, (∀ line ∈ first, isIndented line = true) ∧
      List.Forall₂ (fun block group => function.laterBlockLines dialect block = .ok group)
        function.orderedBlocks.tail groups ∧
      lines = function.header :: first ++ groups.flatten ++ ["\x7d"] := by
  rw [FunctionDef.lines] at written
  cases blocks : function.orderedBlocks with
  | nil =>
    rw [blocks] at written
    cases written
    exact ⟨[], [], by simp, .nil, rfl⟩
  | cons entry later =>
    rw [blocks] at written
    obtain ⟨first, firstWritten, rest⟩ := of_bind_eq_ok written
    obtain ⟨groups, groupsWritten, same⟩ := of_bind_eq_ok rest
    cases same
    exact ⟨first, groups, fun line => isIndented_of_mem_instructionLines firstWritten,
      forall₂_of_mapM_eq_ok groupsWritten, rfl⟩

/-- A block behind the first one stands below its label. -/
theorem opens_of_later (written : function.lines dialect = .ok lines) {block : Block}
    (later : block ∈ function.orderedBlocks.tail) :
    function.Opens dialect lines (labelLine block) block := by
  obtain ⟨first, groups, _, groupsWritten, rfl⟩ := lines_parts written
  obtain ⟨group, listed, groupWritten⟩ := exists_of_forall₂ groupsWritten later
  obtain ⟨held, heldWritten, rfl⟩ := exists_held_of_laterBlockLines groupWritten
  obtain ⟨front, back, rfl⟩ := List.append_of_mem listed
  refine ⟨function.header :: first ++ front.flatten ++ [""], held,
    back.flatten ++ ["\x7d"], heldWritten, ?_⟩
  simp

theorem isIndented_labelOfName (name : String) : isIndented (labelOfName name) = false := by
  have label : labelLine ⟨⟨0⟩, 0, some name, []⟩ = labelOfName name := labelLine_eq_iff.mpr rfl
  rw [← label, isIndented_labelLine]

/-- A label is neither the header nor one of the lines that are the same in every listing. -/
theorem labelOfName_ne (function : FunctionDef) (name : String) :
    labelOfName name ≠ function.header ∧ labelOfName name ≠ "" ∧ labelOfName name ≠ "\x7d" := by
  have last : (labelOfName name).toList.getLast? = some ':' := by simp [labelOfName]
  refine ⟨?_, ?_, ?_⟩
  · intro same
    rw [same] at last
    simp only [header] at last
    rw [String.toList_append, List.getLast?_append] at last
    cases last
  · intro same
    rw [same] at last
    cases last
  · intro same
    rw [same] at last
    cases last

/-- The labels of a listing are those of the blocks behind the first one. -/
theorem labelOfName_mem_lines_iff (written : function.lines dialect = .ok lines) :
    labelOfName name ∈ lines ↔ ∃ block ∈ function.orderedBlocks.tail, block.name = some name := by
  constructor
  · obtain ⟨first, groups, indented, groupsWritten, rfl⟩ := lines_parts written
    obtain ⟨notHeader, notEmpty, notClosing⟩ := labelOfName_ne function name
    have atMargin (line : String) (inside : isIndented line = true) : labelOfName name ≠ line := by
      rintro rfl
      rw [isIndented_labelOfName] at inside
      cases inside
    intro member
    simp only [List.cons_append, List.mem_cons, List.mem_append, notHeader, notClosing,
      List.not_mem_nil, false_or, or_false] at member
    rcases member with inFirst | inGroups
    · exact absurd rfl (atMargin _ (indented _ inFirst))
    · obtain ⟨group, listed, inside⟩ := List.mem_flatten.mp inGroups
      obtain ⟨block, later, groupWritten⟩ := exists_of_forall₂ groupsWritten.flip listed
      obtain ⟨held, heldWritten, rfl⟩ := exists_held_of_laterBlockLines groupWritten
      refine ⟨block, later, labelLine_eq_iff.mp ?_⟩
      rcases List.mem_cons.mp inside with same | inside
      · exact absurd same notEmpty
      · rcases List.mem_cons.mp inside with same | inHeld
        · exact same.symm
        · exact absurd rfl (atMargin _ (isIndented_of_mem_instructionLines heldWritten inHeld))
  · rintro ⟨block, later, named⟩
    obtain ⟨front, held, back, _, rfl⟩ := opens_of_later written later
    rw [labelLine_eq_iff.mpr named]
    simp

/-- Blocks with the same name are the same. -/
theorem eq_of_name (distinct : (function.blocks.filterMap Block.name).Nodup) {block other : Block}
    (member : block ∈ function.blocks) (otherMember : other ∈ function.blocks)
    (named : block.name = some name) (same : other.name = some name) : block = other := by
  let apart (first second : Block) : Prop :=
    ∀ name, first.name = some name → ∀ other, second.name = some other → name ≠ other
  have symmetric : Std.Symm apart :=
    ⟨fun _ _ differ name named other same => (differ other same name named).symm⟩
  have pairwise : function.blocks.Pairwise apart := List.pairwise_filterMap.mp distinct
  by_contra differ
  exact pairwise.forall member otherMember differ name named name same rfl

theorem mem_blocks_of_mem_orderedBlocks {block : Block} (member : block ∈ function.orderedBlocks) :
    block ∈ function.blocks := by
  obtain ⟨ref, _, found⟩ := List.mem_filterMap.mp member
  exact List.mem_of_getElem? found

/-- Where an instruction mentions a block with a name, its line shows the spelling of the name, and
the listing has the same spelling as a label, above the instructions of the block, unless the block
is the first one. The label of the first block is nowhere. -/
theorem labelled_iff_later (distinct : (function.blocks.filterMap Block.name).Nodup)
    (written : function.lines dialect = .ok lines) {id : InstId} {instruction : Instruction}
    {block : Block} (placed : id ∈ function.sequence)
    (found : function.instruction? id = some instruction) (aims : ref ∈ instruction.blocks)
    (present : function.block? ref = some block) (named : block.name = some name) :
    (∃ line ∈ lines, function.Spells dialect id line ∧
      Shows line (instruction.reference name)) ∧
    (labelOfName name ∈ lines ↔ block ∈ function.orderedBlocks.tail) ∧
    (block ∈ function.orderedBlocks.tail →
      function.Opens dialect lines (labelOfName name) block) := by
  refine ⟨?_, ?_, ?_⟩
  · obtain ⟨line, listed, spells⟩ := exists_of_forall₂ (lines_spell written) placed
    refine ⟨line, (List.mem_filter.mp listed).1, spells, ?_⟩
    obtain ⟨same, body, foundSame, bodyWritten, rfl⟩ := spells
    obtain rfl := Option.some.inj (found.symm.trans foundSame)
    have labelled : function.labelOf ref = some name := by rw [labelOf, present]; exact named
    exact ((bodyText_shows bodyWritten aims labelled).behind _).behind _
  · rw [labelOfName_mem_lines_iff written]
    constructor
    · rintro ⟨other, later, same⟩
      have member := mem_blocks_of_mem_orderedBlocks (List.mem_of_mem_tail later)
      rwa [eq_of_name distinct (List.mem_of_getElem? present) member named same]
    · exact fun later => ⟨block, later, named⟩
  · intro later
    rw [← labelLine_eq_iff.mpr named]
    exact opens_of_later written later

/-- A loop in a block whose name needs quotes. -/
theorem quoted_label_printed : ∃ (function : FunctionDef) (lines : List String),
    function.lines .v38 = .ok lines ∧ labelOfName "loop head" = "\"loop head\":" ∧
    (Instruction.branch ⟨1⟩).reference "loop head" = "label %\"loop head\"" ∧
    labelOfName "loop head" ∈ lines := by
  let head : Block := ⟨⟨1⟩, 1, some "loop head", [1]⟩
  let function : FunctionDef :=
    { name := "f", signature := ⟨.void, [], false⟩, order := [⟨0⟩, ⟨1⟩]
      blocks := [⟨⟨0⟩, 0, none, [0]⟩, head], instructions := [.branch ⟨1⟩, .branch ⟨1⟩] }
  have written : function.lines .v38 = .ok _ := rfl
  have distinct : (function.blocks.filterMap Block.name).Nodup := List.nodup_singleton _
  have placed : 0 ∈ function.sequence := .head _
  have aims : ⟨1⟩ ∈ (Instruction.branch ⟨1⟩).blocks := .head _
  have present : function.block? ⟨1⟩ = some head := rfl
  obtain ⟨_, labelled, _⟩ := labelled_iff_later distinct written placed rfl aims present rfl
  exact ⟨_, _, written, by decide +kernel, by decide +kernel, labelled.mpr (.head _)⟩

/-- A value comes from the first block, which has a name, but no label. -/
theorem first_label_missing : ∃ function : FunctionDef,
    (function.blocks.filterMap Block.name).Nodup ∧
    (function.lines .v38).toOption = some ["define void @f() \x7b", "  br label %next", "", "next:",
      "  %1 = phi i32 [ 1, %start ]", "  ret void", "\x7d"] := by
  refine ⟨{ name := "f", signature := ⟨.void, [], false⟩, order := [⟨0⟩, ⟨1⟩]
            blocks := [⟨⟨0⟩, 0, some "start", [0]⟩, ⟨⟨1⟩, 1, some "next", [1, 2]⟩]
            instructions := [.branch ⟨1⟩, .phi ⟨"1", .i32⟩ [(0, ⟨0⟩)], .ret none]
            symbols := [.constant (.i32 1)] }, ?_, ?_⟩
  · decide
  · decide +kernel

end FunctionDef

end IrAssembly
