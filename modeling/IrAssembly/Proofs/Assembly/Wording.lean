import IrAssembly.Proofs.Assembly.Vocabulary
import IrAssembly.Proofs.Function.Typing

/-! The words of the lines of a function. Every type in them is mentioned by the function itself,
unless it stands inside a constant or belongs to a parameter that the signature does not know. An
instruction breaks its line between the cases of a switch only. -/

namespace IrAssembly

/-! Constants -/

namespace Constant

mutual

/-- The types that are written inside a constant, at every depth. -/
def innerTys : Constant → List Ty
  | aggregate _ elements => innerTysOf elements
  | elementPointer _ base indices _ =>
    base.ty :: base.ty.pointee?.toList ++ innerTys base ++ innerTysOf indices
  | _ => []

def innerTysOf : List Constant → List Ty
  | [] => []
  | constant :: constants => constant.ty :: innerTys constant ++ innerTysOf constants

end

end Constant

section Words

variable {vocabulary : Vocabulary}

theorem isPhrase_integerText (ty : Ty) (value : Int64) :
    isPhrase (integerText ty value) = true := by
  unfold integerText
  split
  · split <;> rfl
  · exact isPhrase_toString_int _

theorem isPhrase_literal (constant : FloatConstant) : isPhrase constant.literal = true := by
  unfold FloatConstant.literal
  split <;> simp only [isPhrase_append, isPhrase_hexText] <;> rfl

theorem isPhrase_alignmentClause (align : UInt32) : isPhrase (alignmentClause align) = true := by
  unfold alignmentClause
  split
  · rw [isPhrase_append, isPhrase_toString]
    rfl
  · rfl

theorem isPhrase_keywords (access : MemoryAccess) : isPhrase access.keywords = true := by
  rw [MemoryAccess.keywords, isPhrase_append]
  split <;> split <;> rfl

theorem isPhrase_orderingClause (access : MemoryAccess) :
    isPhrase access.orderingClause = true := by
  unfold MemoryAccess.orderingClause
  split
  · rw [isPhrase_append, isPhrase_append]
    cases access.ordering <;> split <;> rfl
  · rfl

theorem InlineAsm.text_phrases (asm : InlineAsm) : vocabulary.Phrases asm.text := by
  have quotes : asm.text =
      ("asm " ++ (if asm.sideEffects then "sideeffect " else "") ++
        (if asm.alignStack then "alignstack " else "")) ++
      ("\"" ++ escapeString asm.body ++ "\"") ++ ", " ++
      ("\"" ++ escapeString asm.constraints ++ "\"") := by
    have between : "\", \"" = "\"" ++ (", " ++ "\"") := rfl
    simp only [InlineAsm.text, between, String.append_assoc]
  rw [quotes]
  refine (((Vocabulary.Phrases.phrase ?_).append (.quoted _)).append (.phrase rfl)).append
    (.quoted _)
  rw [isPhrase_append, isPhrase_append]
  split <;> split <;> rfl

end Words

namespace Constant

open Vocabulary

variable {vocabulary : Vocabulary} {dialect : Dialect}

theorem aggregateBrackets_phrases (ty : Ty) :
    Gives (fun brackets => isPhrase brackets.1 = true ∧ isPhrase brackets.2 = true)
      (aggregateBrackets ty) := by
  unfold aggregateBrackets
  split
  · exact .done ⟨rfl, rfl⟩
  · exact .done ⟨rfl, rfl⟩
  · exact .done ⟨rfl, rfl⟩
  · exact .done ⟨rfl, rfl⟩
  · exact .failed

/-- The text in front of a typed operand of an address computation. -/
theorem explicitPointee_phrases {base : Ty}
    (pointee : ∀ pointee, base.pointee? = some pointee → vocabulary.Phrases pointee.text) :
    Gives vocabulary.Phrases (explicitPointee dialect base) := by
  unfold explicitPointee
  split
  · split
    · rename_i target points
      exact .done ((pointee target points).append (.phrase rfl))
    · exact .failed
  · exact .done .empty

mutual

theorem text_phrases : ∀ constant : Constant, (∀ ty ∈ constant.innerTys, vocabulary.strays ty) →
    Gives vocabulary.Phrases (constant.text dialect)
  | int ty value, _ => .done (.phrase (isPhrase_integerText ty value))
  | bigInt _ value, _ => .done (.phrase (isPhrase_toString_int value))
  | float value, _ => .done (.phrase (isPhrase_literal value))
  | null _, _ | undef _, _ | zero _, _ => .done (.phrase rfl)
  | inlineAsm asm, _ => .done asm.text_phrases
  | global name _, _ => .done (.globalName name)
  | aggregate ty elements, strays => by
    rw [text]
    refine (aggregateBrackets_phrases ty).bind fun brackets _ words => ?_
    refine (typedTexts_phrases elements strays).bind fun items _ formed => ?_
    exact .done (((Phrases.phrase words.1).append (.commaSeparated formed)).append
      (.phrase words.2))
  | elementPointer _ base indices inbounds, strays => by
    rw [innerTys, List.forall_mem_append, List.forall_mem_append, List.forall_mem_cons] at strays
    obtain ⟨⟨⟨baseTy, pointees⟩, inBase⟩, inIndices⟩ := strays
    have pointee (pointee : Ty) (points : base.ty.pointee? = some pointee) :
        vocabulary.Phrases pointee.text :=
      .stray (pointees pointee (Option.mem_toList.mpr points))
    rw [text]
    refine (explicitPointee_phrases pointee).bind fun pointeeText _ pointeeForms => ?_
    refine (text_phrases base inBase).bind fun baseText _ baseForms => ?_
    refine (typedTexts_phrases indices inIndices).bind fun indexTexts _ indicesForm => ?_
    have opening :
        vocabulary.Phrases ("getelementptr" ++ (if inbounds then " inbounds" else "")) :=
      .append (.phrase rfl) (.ite (.phrase rfl) .empty)
    have operands := Phrases.commaSeparated
      (List.forall_mem_cons.mpr ⟨(Phrases.stray baseTy).typed baseForms, indicesForm⟩)
    exact .done ((((opening.append (.phrase rfl)).append pointeeForms).append operands).append
      (.phrase rfl))

theorem typedTexts_phrases : ∀ constants : List Constant,
    (∀ ty ∈ innerTysOf constants, vocabulary.strays ty) →
    Gives (fun texts => ∀ text ∈ texts, vocabulary.Phrases text) (typedTexts dialect constants)
  | [], _ => .done (List.forall_mem_nil _)
  | constant :: constants, strays => by
    rw [innerTysOf, List.forall_mem_append, List.forall_mem_cons] at strays
    obtain ⟨⟨ownTy, inside⟩, others⟩ := strays
    rw [typedTexts]
    refine (text_phrases constant inside).bind fun text _ formed => ?_
    refine (typedTexts_phrases constants others).bind fun texts _ othersForm => ?_
    exact .done (List.forall_mem_cons.mpr ⟨(Phrases.stray ownTy).typed formed, othersForm⟩)

end

end Constant

/-! Operands -/

namespace FunctionDef

/-- The local names in the text of a function: those of its parameters, results and operands, and
those of its blocks, which may be numbers. -/
inductive Names (function : FunctionDef) : String → Prop where
  | parameter (member : formal ∈ function.parameters) : Names function formal.name
  | result (member : instruction ∈ function.instructions)
      (named : instruction.result? = some slot) : Names function slot.name
  | parameterOperand (member : .parameter formal ∈ function.symbols) : Names function formal.name
  | resultOperand (member : .result slot ∈ function.symbols) : Names function slot.name
  | block (member : block ∈ function.blocks) :
      Names function (block.name.getD (toString block.index))

end FunctionDef

/-- The vocabulary is enough for what a function mentions, the types inside its constants and those
of its parameters apart, which need not be defined. -/
structure Vocabulary.Serves (vocabulary : Vocabulary) (function : FunctionDef) : Prop where
  mentioned : ∀ ty ∈ function.mentionedTys, ty.DefinedIn vocabulary.definitions
  names : ∀ name, function.Names name → vocabulary.names name
  constants : ∀ constant, .constant constant ∈ function.symbols →
    ∀ ty ∈ constant.innerTys, vocabulary.strays ty
  parameters : ∀ formal ∈ function.parameters, vocabulary.Phrases formal.ty.text

/-- The vocabulary is enough for an operand. -/
inductive Vocabulary.Covers (vocabulary : Vocabulary) : Value → Prop where
  | constant {known : Constant} (ty : known.ty.DefinedIn vocabulary.definitions)
      (inner : ∀ ty ∈ known.innerTys, vocabulary.strays ty) : Covers vocabulary (.constant known)
  | result {slot : ResultRef} (ty : slot.ty.DefinedIn vocabulary.definitions)
      (named : vocabulary.names slot.name) : Covers vocabulary (.result slot)
  | parameter {formal : Parameter} (ty : formal.ty.DefinedIn vocabulary.definitions)
      (named : vocabulary.names formal.name) : Covers vocabulary (.parameter formal)
  | function {callee : FunctionRef}
      (ty : callee.signature.toTy.DefinedIn vocabulary.definitions) :
      Covers vocabulary (.function callee)

/-- The vocabulary is enough for an instruction of a function, its operands and the blocks that it
may mention. -/
structure Vocabulary.Suffices (vocabulary : Vocabulary) (function : FunctionDef)
    (instruction : Instruction) : Prop where
  mentioned : ∀ ty ∈ instruction.mentionedTys, ty.DefinedIn vocabulary.definitions
  operands : ∀ index ∈ instruction.operands, ∀ value, function.symbol? index = some value →
    vocabulary.Covers value
  blocks : ∀ block ∈ function.blocks, vocabulary.names (block.name.getD (toString block.index))

/-- The number of lines of an instruction. Each case of a switch has its own line, and the first is
the line of the switch. -/
def Instruction.lineCount : Instruction → Nat
  | .switch _ _ cases => max 1 cases.length
  | .literalSwitch _ _ cases => max 1 cases.length
  | _ => 1

namespace Vocabulary

variable {vocabulary : Vocabulary} {function : FunctionDef} {dialect : Dialect}

namespace Covers

variable {value : Value}

theorem valueTy (covers : vocabulary.Covers value) :
    value.ty.DefinedIn vocabulary.definitions := by
  cases covers <;> assumption

theorem operandTy (covers : vocabulary.Covers value) :
    value.operandTy.DefinedIn vocabulary.definitions := by
  have defined := covers.valueTy
  cases value with
  | function callee => exact defined.ptr
  | _ => exact defined

theorem valueText (covers : vocabulary.Covers value) :
    Gives vocabulary.Phrases (value.text dialect) := by
  cases covers with
  | constant _ inner => exact Constant.text_phrases _ inner
  | result _ named => exact .done (.name named)
  | parameter _ named => exact .done (.name named)
  | function _ => exact .done (.globalName _)

theorem typedText (covers : vocabulary.Covers value) :
    Gives vocabulary.Phrases (value.typedText dialect) :=
  covers.valueText.bind fun _ _ formed => .done ((Phrases.ty covers.operandTy).typed formed)

end Covers

theorem parameterList {signature : Signature}
    (defined : signature.toTy.DefinedIn vocabulary.definitions) :
    vocabulary.Phrases signature.parameterList := by
  refine ((Phrases.phrase rfl).append (.commaSeparated
    (good_parameterTexts (.phrase rfl) ?_ _))).append (.phrase rfl)
  exact List.forall_mem_map.mpr fun param member => .ty (defined.signature.2 param member)

theorem calleeTyText {signature : Signature}
    (defined : signature.toTy.DefinedIn vocabulary.definitions) :
    vocabulary.Phrases (FunctionDef.calleeTyText dialect signature) := by
  unfold FunctionDef.calleeTyText
  exact .ite (.append (.append (.phrase rfl) (parameterList defined)) (.ite (.phrase rfl) .empty))
    .empty

theorem flagsText (flags : List BinaryFlag) :
    vocabulary.Phrases (String.join (flags.map fun flag => flag.text ++ " ")) := by
  refine .join (List.forall_mem_map.mpr fun flag _ => .append (.phrase ?_) (.phrase rfl))
  cases flag <;> rfl

theorem header (defined : function.signature.toTy.DefinedIn vocabulary.definitions)
    (parameters : ∀ formal ∈ function.parameters,
      vocabulary.Phrases formal.ty.text ∧ vocabulary.names formal.name) :
    vocabulary.Phrases function.header := by
  refine .append (.append (.append (.append (.append (.append (.phrase rfl)
    (.ty defined.signature.1)) (.phrase rfl)) (.globalName function.name)) (.phrase rfl))
    (.commaSeparated (good_parameterTexts (.phrase rfl)
      (List.forall_mem_map.mpr fun formal member => ?_) _))) (.phrase rfl)
  obtain ⟨type, named⟩ := parameters formal member
  exact type.typed (.name named)

theorem labelLine (block : Block) : vocabulary.Phrases (FunctionDef.labelLine block) := by
  unfold FunctionDef.labelLine
  split
  · exact .append (.spelledName _) (.phrase rfl)
  · exact .append (.phrase rfl) (.phrase (isPhrase_toString _))

namespace Suffices

variable {instruction : Instruction}

theorem operand (enough : vocabulary.Suffices function instruction) {index : SymbolIndex}
    (member : index ∈ instruction.operands) :
    Gives vocabulary.Covers (function.operand index) := by
  unfold FunctionDef.operand
  split
  · rename_i value found
    exact .done (enough.operands index member value found)
  · exact .failed

theorem operandText (enough : vocabulary.Suffices function instruction) {index : SymbolIndex}
    (member : index ∈ instruction.operands) :
    Gives vocabulary.Phrases (function.operandText dialect index) :=
  (enough.operand member).bind fun _ _ covers => covers.valueText

theorem typedOperand (enough : vocabulary.Suffices function instruction) {index : SymbolIndex}
    (member : index ∈ instruction.operands) :
    Gives vocabulary.Phrases (function.typedOperand dialect index) :=
  (enough.operand member).bind fun _ _ covers => covers.typedText

theorem typedOperands (enough : vocabulary.Suffices function instruction)
    {indices : List SymbolIndex} (members : indices ⊆ instruction.operands) :
    Gives (fun texts => ∀ text ∈ texts, vocabulary.Phrases text)
      (indices.mapM (function.typedOperand dialect)) :=
  .mapM fun _ member => enough.typedOperand (members member)

theorem writtenTy (enough : vocabulary.Suffices function instruction) {index : SymbolIndex}
    (member : index ∈ instruction.operands) :
    Gives (Ty.DefinedIn vocabulary.definitions) (function.operandTy index) :=
  (enough.operand member).bind fun _ _ covers => .done covers.operandTy

theorem blockName (enough : vocabulary.Suffices function instruction) (ref : BlockRef) :
    Gives vocabulary.Phrases (function.blockName ref) := by
  unfold FunctionDef.blockName
  split
  · rename_i found
    exact .done (.name (enough.blocks _ (List.mem_of_getElem? found)))
  · rename_i index _ found
    have known := enough.blocks _ (List.mem_of_getElem? found)
    have number : Stem.bare.numbered index = toString index := String.empty_append ..
    have spelled := Stem.localName_numbered .bare index
    rw [number] at spelled
    rw [← spelled]
    exact .done (.name known)
  · exact .failed

theorem labelText (enough : vocabulary.Suffices function instruction) (ref : BlockRef) :
    Gives vocabulary.Phrases (function.labelText ref) :=
  (enough.blockName ref).bind fun _ _ formed => .done ((Phrases.phrase rfl).append formed)

/-! Calls and switches -/

theorem callText (enough : vocabulary.Suffices function instruction) {target : SymbolIndex}
    {arguments : List SymbolIndex} (members : target :: arguments ⊆ instruction.operands) :
    Gives (vocabulary.Spans 1) (function.callText dialect target arguments) := by
  obtain ⟨isTarget, areArguments⟩ := List.cons_subset.mp members
  refine (enough.operand isTarget).bind fun callee _ covers => ?_
  dsimp only
  have reached := covers.valueTy.stripPointers
  split
  · rename_i signature found
    have defined : signature.toTy.DefinedIn vocabulary.definitions := by
      rwa [Ty.toTy_of_signature? found]
    refine covers.valueText.bind fun name _ nameForms => ?_
    refine (enough.typedOperands areArguments).bind fun texts _ formed => .done (.line ?_)
    exact .append (.append (.append (.append (.append (.append (.append (.phrase rfl)
      (.ty defined.signature.1)) (calleeTyText defined)) (.phrase rfl)) nameForms) (.phrase rfl))
      (.commaSeparated formed)) (.phrase rfl)
  · exact .failed

theorem switchText (enough : vocabulary.Suffices function instruction) {condition : SymbolIndex}
    (member : condition ∈ instruction.operands) (otherwise : BlockRef) {cases : List String}
    {count : Nat} (formed : ∀ text ∈ cases, vocabulary.Phrases text)
    (counted : count = cases.length) :
    Gives (vocabulary.Spans (max 1 count))
      (function.switchText dialect condition otherwise cases) := by
  subst counted
  refine (enough.typedOperand member).bind fun conditionText _ conditionForms => ?_
  refine (enough.labelText otherwise).bind fun label _ labelForms => .done ?_
  exact ((Spans.intercalate formed).behind (.append (.append (.append (.append (.phrase rfl)
    conditionForms) (.phrase rfl)) labelForms) (.phrase rfl))).append (.phrase rfl)

/-! Instructions -/

/-- An opcode and its typed operands. -/
theorem operandsText (enough : vocabulary.Suffices function instruction) {opcode : String}
    (free : isPhrase opcode = true) {indices : List SymbolIndex}
    (members : indices ⊆ instruction.operands) :
    Gives (vocabulary.Spans 1) (do
      let operands ← indices.mapM (function.typedOperand dialect)
      return opcode ++ commaSeparated operands) :=
  (enough.typedOperands members).bind fun _ _ formed =>
    .done (.line (.append (.phrase free) (.commaSeparated formed)))

theorem bodyText (enough : vocabulary.Suffices function instruction) :
    Gives (vocabulary.Spans instruction.lineCount) (function.bodyText dialect instruction) := by
  have mentioned {ty : Ty} (mentions : ty ∈ instruction.mentionedTys) :
      vocabulary.Phrases ty.text :=
    .ty (enough.mentioned ty mentions)
  cases instruction with
  | allocate result allocated count align =>
    have allocatedForms := mentioned (.tail _ (.head _))
    have alignForms : vocabulary.Phrases (alignmentClause align) :=
      .phrase (isPhrase_alignmentClause align)
    refine (enough.operand (.head _)).bind fun value _ covers => ?_
    dsimp only
    split
    · exact .done (.line (.append (.append (.append (.phrase rfl) allocatedForms) .empty)
        alignForms))
    · refine covers.typedText.bind fun text _ formed => .done (.line ?_)
      exact .append (.append (.append (.phrase rfl) allocatedForms) (.append (.phrase rfl) formed))
        alignForms
  | load result source access =>
    refine (enough.typedOperand (.head _)).bind fun text _ formed => .done (.line ?_)
    exact .append (.append (.append (.append (.append (.phrase rfl)
      (.phrase (isPhrase_keywords access))) (.ite (.append (mentioned (.head _)) (.phrase rfl))
      .empty)) formed) (.phrase (isPhrase_orderingClause access)))
      (.phrase (isPhrase_alignmentClause _))
  | store destination source access =>
    refine (enough.writtenTy (.head _)).bind fun pointer _ defined => ?_
    split
    · rename_i pointee points
      refine (enough.operandText (.tail _ (.head _))).bind fun sourceText _ sourceForms => ?_
      refine (enough.operandText (.head _)).bind fun destinationText _ destinationForms => ?_
      refine .done (.line (.append (.append (.append (.append (.append (.append (.append (.append
        (.append (.append (.phrase rfl) (.phrase (isPhrase_keywords access))) (.ty ?_))
        (.phrase rfl)) sourceForms) (.phrase rfl)) (.ty defined)) (.phrase rfl)) destinationForms)
        (.phrase (isPhrase_orderingClause access))) (.phrase (isPhrase_alignmentClause _))))
      exact defined.pointee points
    · exact .failed
  | binary result operator flags lhs rhs =>
    have phrase : isPhrase operator.text = true := by cases operator <;> rfl
    refine (enough.operandText (.head _)).bind fun lhsText _ lhsForms => ?_
    refine (enough.operandText (.tail _ (.head _))).bind fun rhsText _ rhsForms =>
      .done (.line ?_)
    exact .append (.append (.append (.append (.append (.append (.append (.phrase phrase)
      (.phrase rfl)) (flagsText flags)) (mentioned (.head _))) (.phrase rfl)) lhsForms)
      (.phrase rfl)) rhsForms
  | compare result operator lhs rhs =>
    have opcode : isPhrase operator.opcode = true := by cases operator <;> rfl
    have phrase : isPhrase operator.text = true := by cases operator <;> rfl
    refine (enough.typedOperand (.head _)).bind fun lhsText _ lhsForms => ?_
    refine (enough.operandText (.tail _ (.head _))).bind fun rhsText _ rhsForms =>
      .done (.line ?_)
    exact .append (.append (.append (.append (.append (.append (.phrase opcode) (.phrase rfl))
      (.phrase phrase)) (.phrase rfl)) lhsForms) (.phrase rfl)) rhsForms
  | cast result operator value =>
    have phrase : isPhrase operator.text = true := by cases operator <;> rfl
    refine (enough.typedOperand (.head _)).bind fun text _ formed => .done (.line ?_)
    exact .append (.append (.append (.append (.phrase phrase) (.phrase rfl)) formed)
      (.phrase rfl)) (mentioned (.head _))
  | call result target arguments | voidCall target arguments =>
    exact enough.callText (List.Subset.refl _)
  | branch successor =>
    exact (enough.labelText successor).bind fun _ _ formed =>
      .done (.line (.append (.phrase rfl) formed))
  | conditionalBranch condition onTrue onFalse =>
    refine (enough.typedOperand (.head _)).bind fun text _ formed => ?_
    refine (enough.labelText onTrue).bind fun trueText _ trueForms => ?_
    refine (enough.labelText onFalse).bind fun falseText _ falseForms => .done (.line ?_)
    exact .append (.append (.append (.append (.append (.phrase rfl) formed) (.phrase rfl))
      trueForms) (.phrase rfl)) falseForms
  | indirectBranch address successors =>
    refine Gives.bind (.mapM fun ref _ => enough.labelText ref) fun labels _ labelsForm => ?_
    refine (enough.typedOperand (.head _)).bind fun text _ formed => .done (.line ?_)
    exact .append (.append (.append (.append (.phrase rfl) formed) (.phrase rfl))
      (.commaSeparated labelsForm)) (.phrase rfl)
  | switch condition otherwise cases =>
    refine Gives.bind (.mapM fun case listed => ?_) fun texts written formed =>
      enough.switchText (.head _) otherwise formed (forall₂_of_mapM_eq_ok written).length_eq
    have member := List.mem_cons_of_mem condition (List.mem_map_of_mem (f := Prod.fst) listed)
    refine (enough.typedOperand member).bind fun value _ valueForms => ?_
    refine (enough.labelText case.2).bind fun label _ labelForms => .done ?_
    exact .append (.append valueForms (.phrase rfl)) labelForms
  | literalSwitch condition otherwise cases =>
    refine (enough.writtenTy (.head _)).bind fun ty _ defined => ?_
    refine Gives.bind (.mapM fun case _ => ?_) fun texts written formed =>
      enough.switchText (.head _) otherwise formed (forall₂_of_mapM_eq_ok written).length_eq
    refine (enough.labelText case.2).bind fun label _ labelForms => .done ?_
    exact .append (.append ((Phrases.ty defined).typed (.phrase (isPhrase_toString_int _)))
      (.phrase rfl)) labelForms
  | phi result incoming =>
    refine Gives.bind (.mapM fun edge listed => ?_) fun edges _ formed => .done (.line (.append
      (.append (.append (.phrase rfl) (mentioned (.head _))) (.phrase rfl))
      (.commaSeparated formed)))
    have member := List.mem_map_of_mem (f := Prod.fst) listed
    refine (enough.operandText member).bind fun value _ valueForms => ?_
    refine (enough.blockName edge.2).bind fun name _ nameForms => .done ?_
    exact .append (.append (.append (.append (.phrase rfl) valueForms) (.phrase rfl)) nameForms)
      (.phrase rfl)
  | elementPointer result base indices inbounds =>
    refine (enough.writtenTy (.head _)).bind fun baseTy _ defined => ?_
    refine (Constant.explicitPointee_phrases fun pointee points =>
      .ty (defined.pointee points)).bind fun pointeeText _ pointeeForms => ?_
    refine (enough.typedOperand (.head _)).bind fun baseText _ baseForms => ?_
    refine (enough.typedOperands (List.subset_cons_self ..)).bind fun indexTexts _ indicesForm =>
      .done (.line ?_)
    exact .append (.append (.append (.phrase rfl) (.ite (.phrase rfl) .empty)) pointeeForms)
      (.commaSeparated (List.forall_mem_cons.mpr ⟨baseForms, indicesForm⟩))
  | extractElement result vector index => exact enough.operandsText rfl (List.Subset.refl _)
  | insertElement result vector value index => exact enough.operandsText rfl (List.Subset.refl _)
  | select result condition onTrue onFalse => exact enough.operandsText rfl (List.Subset.refl _)
  | shuffleVector result first second mask => exact enough.operandsText rfl (List.Subset.refl _)
  | extractValue result aggregate index =>
    refine (enough.typedOperand (.head _)).bind fun text _ formed => .done (.line ?_)
    exact .append (.append (.append (.phrase rfl) formed) (.phrase rfl))
      (.phrase (isPhrase_toString _))
  | insertValue result aggregate value index =>
    refine (enough.typedOperand (.head _)).bind fun text _ formed => ?_
    refine (enough.typedOperand (.tail _ (.head _))).bind fun valueText _ valueForms =>
      .done (.line ?_)
    exact .append (.append (.append (.append (.append (.phrase rfl) formed) (.phrase rfl))
      valueForms) (.phrase rfl)) (.phrase (isPhrase_toString _))
  | ret value =>
    cases value with
    | none => exact .done (.line (.phrase rfl))
    | some value =>
      exact (enough.typedOperand (.head _)).bind fun _ _ formed =>
        .done (.line (.append (.phrase rfl) formed))
  | unreachable => exact .done (.line (.phrase rfl))

theorem line (enough : vocabulary.Suffices function instruction)
    (named : ∀ slot, instruction.result? = some slot → vocabulary.names slot.name) :
    Gives (vocabulary.Spans instruction.lineCount) (function.line dialect instruction) := by
  refine enough.bodyText.bind fun body _ spans => ?_
  split
  · rename_i slot found
    exact .done (spans.behind (.append (.name (named slot found)) (.phrase rfl)))
  · exact .done spans

end Suffices

/-! Definitions -/

namespace Serves

theorem signature (serves : vocabulary.Serves function) :
    function.signature.toTy.DefinedIn vocabulary.definitions :=
  serves.mentioned _ (List.mem_append_left _ (List.mem_cons_self ..))

theorem covers (serves : vocabulary.Serves function) {value : Value}
    (member : value ∈ function.symbols) : vocabulary.Covers value := by
  have defined : value.ty.DefinedIn vocabulary.definitions :=
    serves.mentioned _
      (List.mem_append_left _ (List.mem_cons_of_mem _ (List.mem_map_of_mem member)))
  cases value with
  | constant known => exact .constant defined (serves.constants known member)
  | result slot => exact .result defined (serves.names _ (.resultOperand member))
  | parameter formal => exact .parameter defined (serves.names _ (.parameterOperand member))
  | function callee => exact .function defined

theorem suffices_of_mem (serves : vocabulary.Serves function) {instruction : Instruction}
    (member : instruction ∈ function.instructions) :
    vocabulary.Suffices function instruction where
  mentioned _ mentions := serves.mentioned _
    (List.mem_append_right _ (List.mem_flatMap.mpr ⟨instruction, member, mentions⟩))
  operands _ _ _ found := serves.covers (List.mem_of_getElem? found)
  blocks _ listed := serves.names _ (.block listed)

theorem instructionLines (serves : vocabulary.Serves function) (block : Block) :
    Gives (fun lines => ∀ line ∈ lines, vocabulary.Forms line)
      (function.instructionLines dialect block) := by
  refine .mapM fun id _ => ?_
  split
  · rename_i instruction found
    have member := List.mem_of_getElem? found
    have named (slot : ResultSlot) (result : instruction.result? = some slot) :=
      serves.names _ (.result member result)
    exact ((serves.suffices_of_mem member).line named).bind fun _ _ spans =>
      .done (.append (.word rfl) spans.forms)
  · exact .failed

theorem laterBlockLines (serves : vocabulary.Serves function) (block : Block) :
    Gives (fun lines => ∀ line ∈ lines, vocabulary.Forms line)
      (function.laterBlockLines dialect block) :=
  (serves.instructionLines block).bind fun _ _ formed => .done (List.forall_mem_cons.mpr
    ⟨.empty, List.forall_mem_cons.mpr ⟨(labelLine block).forms, formed⟩⟩)

theorem lines (serves : vocabulary.Serves function) :
    Gives (fun lines => ∀ line ∈ lines, vocabulary.Forms line) (function.lines dialect) := by
  have opening : vocabulary.Forms function.header := Phrases.forms <|
    header serves.signature fun formal member =>
      ⟨serves.parameters formal member, serves.names _ (.parameter member)⟩
  have closing : ∀ line ∈ ["\x7d"], vocabulary.Forms line :=
    List.forall_mem_singleton.mpr (.word rfl)
  unfold FunctionDef.lines
  split
  · exact .done (List.forall_mem_cons.mpr ⟨opening, closing⟩)
  · refine (serves.instructionLines _).bind fun entryLines _ entryForms => ?_
    refine Gives.bind (.mapM fun block _ => serves.laterBlockLines block) fun groups _ formed => ?_
    have entryPart := List.forall_mem_cons.mpr ⟨opening, entryForms⟩
    have laterPart : ∀ line ∈ groups.flatten, vocabulary.Forms line := by
      intro line member
      obtain ⟨group, listed, inside⟩ := List.mem_flatten.mp member
      exact formed group listed line inside
    exact .done (List.forall_mem_append.mpr
      ⟨List.forall_mem_append.mpr ⟨entryPart, laterPart⟩, closing⟩)

end Serves

end Vocabulary

end IrAssembly
