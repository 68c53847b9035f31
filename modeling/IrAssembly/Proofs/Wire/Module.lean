import IrAssembly.Proofs.Wire.Instruction
import IrAssembly.Proofs.Wire.Value
import IrAssembly.Wire.Module

/-! Functions, modules and data layouts are read back from their interchange form. -/

namespace IrAssembly

structure Block.Fits (block : Block) : Prop where
  id : block.id.Fits
  index : IsWord block.index
  instructions : ∀ id ∈ block.instructions, IsWord id

structure FunctionDef.Fits (function : FunctionDef) : Prop where
  parameters : ∀ formal ∈ function.parameters, IsWord formal.index
  blocks : ∀ block ∈ function.blocks, block.Fits
  order : ∀ ref ∈ function.order, ref.Fits
  instructions : ∀ instruction ∈ function.instructions, instruction.Fits
  symbols : ∀ value ∈ function.symbols, value.Fits

def Module.Fits (unit : Module) : Prop := ∀ function ∈ unit.functions, function.Fits

/-- No constant is written as null. -/
theorem Constant.toJson_ne_null (constant : Constant) : constant.toJson ≠ .null := by
  cases constant <;> simp [Constant.toJson, Json.tagged, Json.record]

namespace Reading

variable {bound : Nat}

theorem block_recovers {given : Block} (fits : given.Fits) :
    Recovers bound block given.toJson given := by
  intro depth le nests
  obtain ⟨inner, innerLe, within, found⟩ := fields_record le nests (by simp)
  simp only [List.map_cons, List.map_nil, List.forall_mem_cons] at within found
  have id := blockRef_recovers fits.id inner innerLe within.1
  have instructions := words_recovers fits.instructions inner innerLe within.2.2.2.1
  simp [block, Block.toJson, found, id, index_nat fits.index, instructions]

theorem symbolTable_recovers {symbols : List Value} (fits : ∀ value ∈ symbols, value.Fits) :
    Recovers bound symbolTable (.record [("symbols", .list Value.toJson symbols)]) symbols := by
  intro depth le nests
  obtain ⟨inner, innerLe, within, found⟩ := fields_record le nests (by simp)
  simp only [List.map_cons, List.map_nil, List.forall_mem_cons] at within found
  have inside := Recovers.list (fun value member => value_recovers (fits value member)) inner
    innerLe within.1
  simp [symbolTable, found, inside]

theorem functionDef_recovers {function : FunctionDef} (fits : function.Fits) :
    Recovers bound functionDef function.toJson function := by
  intro depth le nests
  obtain ⟨inner, innerLe, within, found⟩ := fields_record le nests (by simp)
  simp only [List.map_cons, List.map_nil, List.forall_mem_cons] at within found
  obtain ⟨_, inSignature, inParameters, inBlocks, inOrder, inInstructions, inSymbols, _⟩ := within
  have given := signature_recovers bound function.signature inner innerLe inSignature
  have parameters := Recovers.list
    (fun formal member => parameter_recovers (fits.parameters formal member)) inner innerLe
    inParameters
  have blocks := Recovers.list (fun block member => block_recovers (fits.blocks block member))
    inner innerLe inBlocks
  have order := Recovers.list (fun ref member => blockRef_recovers (fits.order ref member)) inner
    innerLe inOrder
  have instructions := Recovers.list
    (fun instruction member => instruction_recovers (fits.instructions instruction member)) inner
    innerLe inInstructions
  have symbols := symbolTable_recovers fits.symbols inner innerLe inSymbols
  simp [functionDef, FunctionDef.toJson, found, given, parameters, blocks, order, instructions,
    symbols]

theorem globalVariable_recovers (bound : Nat) (global : GlobalVariable) :
    Recovers bound globalVariable global.toJson global := by
  intro depth le nests
  obtain ⟨inner, innerLe, within, found⟩ := fields_record le nests (by simp)
  simp only [List.map_cons, List.map_nil, List.forall_mem_cons] at within found
  have given := ty_recovers bound global.valueTy inner innerLe within.2.1
  have initializer := Recovers.option (fun known _ => constant_recovers bound known)
    Constant.toJson_ne_null inner innerLe within.2.2.2.1
  simp [globalVariable, GlobalVariable.toJson, found, given, initializer]

theorem unit_recovers {given : Module} (fits : given.Fits) :
    Recovers bound unit given.toJson given := by
  intro depth le nests
  obtain ⟨inner, innerLe, within, found⟩ := fields_record le nests (by simp)
  simp only [List.map_cons, List.map_nil, List.forall_mem_cons] at within found
  obtain ⟨_, _, _, inTypes, inGlobals, inDeclarations, inFunctions, _⟩ := within
  have types := Recovers.list (fun ty _ => ty_recovers bound ty) inner innerLe inTypes
  have globals := Recovers.list (fun global _ => globalVariable_recovers bound global) inner
    innerLe inGlobals
  have declarations := Recovers.list (fun callee _ => functionRef_recovers bound callee) inner
    innerLe inDeclarations
  have functions := Recovers.list
    (fun function member => functionDef_recovers (fits function member)) inner innerLe inFunctions
  simp [unit, Module.toJson, found, types, globals, declarations, functions]

/-! Data layouts -/

theorem width_recovers (bound : Nat) (width : UInt32) :
    Recovers bound uint32 (widthJson width) width :=
  fun depth _ _ => uint32_nat depth width

theorem alignEntry_recovers (bound : Nat) (entry : AlignEntry) :
    Recovers bound alignEntry entry.toJson entry := by
  intro depth le nests
  obtain ⟨inner, innerLe, within, found⟩ := fields_record le nests (by simp)
  simp only [List.map_cons, List.map_nil, widthJson] at found
  simp [alignEntry, AlignEntry.toJson, widthJson, found]

theorem dataLayout_recovers (bound : Nat) (layout : DataLayout) :
    Recovers bound dataLayout layout.toJson layout := by
  intro depth le nests
  obtain ⟨inner, innerLe, within, found⟩ := fields_record le nests (by simp)
  simp only [List.map_cons, List.map_nil, List.forall_mem_cons] at within found
  obtain ⟨_, _, _, inIntegers, inFloats, inVectors, _, _, inNative, inStack, _⟩ := within
  have entries {entries : List AlignEntry}
      (nests : (Json.list AlignEntry.toJson entries).nesting ≤ inner) :
      list alignEntry inner (.list AlignEntry.toJson entries) = some entries :=
    Recovers.list (fun entry _ => alignEntry_recovers bound entry) inner innerLe nests
  have native := Recovers.list (fun width _ => width_recovers bound width) inner innerLe inNative
  have stack := Recovers.option (fun width _ => width_recovers bound width)
    (fun _ same => by cases same) inner innerLe inStack
  have width (given : UInt32) : uint32 inner (widthJson given) = some given := uint32_nat _ given
  simp [dataLayout, DataLayout.toJson, found, entries inIntegers, entries inFloats,
    entries inVectors, native, stack, width]

end Reading

end IrAssembly
