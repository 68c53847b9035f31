import IrAssembly.Layout.Basic
import IrAssembly.Module
import IrAssembly.Wire.Instruction
import IrAssembly.Wire.Value

/-!
Function definitions, modules and data layouts in the interchange form.
-/

namespace IrAssembly

def Block.toJson (block : Block) : Json :=
  .record [("id", block.id.toJson), ("index", .nat block.index),
    ("name", .option .text block.name), ("instructions", .list .nat block.instructions)]

def FunctionDef.toJson (function : FunctionDef) : Json :=
  .record [("name", .text function.name), ("ty", function.signature.toJson),
    ("parameters", .list Parameter.toJson function.parameters),
    ("blocks", .list Block.toJson function.blocks),
    ("order", .list BlockRef.toJson function.order),
    ("instructions", .list Instruction.toJson function.instructions),
    ("symbols", .record [("symbols", .list Value.toJson function.symbols)]),
    ("sealed", .bool function.finished)]

def GlobalVariable.toJson (global : GlobalVariable) : Json :=
  .record [("name", .text global.name), ("value_type", global.valueTy.toJson),
    ("is_constant", .bool global.constant),
    ("initializer", .option Constant.toJson global.initializer),
    ("linkage", .text global.linkage.wireName), ("align", .nat global.align.toNat)]

def Module.toJson (unit : Module) : Json :=
  .record [("name", .text unit.name), ("data_layout", .option .text unit.dataLayout),
    ("target_triple", .option .text unit.targetTriple),
    ("type_definitions", .list Ty.toJson unit.typeDefinitions),
    ("globals", .list GlobalVariable.toJson unit.globals),
    ("declarations", .list FunctionRef.toJson unit.declarations),
    ("functions", .list FunctionDef.toJson unit.functions)]

/-- A width or alignment. -/
def widthJson (width : UInt32) : Json := .nat width.toNat

def AlignEntry.toJson (entry : AlignEntry) : Json :=
  .record [("bits", widthJson entry.bits), ("abi", widthJson entry.abi),
    ("preferred", widthJson entry.preferred)]

def DataLayout.toJson (layout : DataLayout) : Json :=
  .record [("endianness", .text layout.endianness.wireName),
    ("pointer_size", widthJson layout.pointerSize), ("pointer_abi", widthJson layout.pointerAbi),
    ("integers", .list AlignEntry.toJson layout.integers),
    ("floats", .list AlignEntry.toJson layout.floats),
    ("vectors", .list AlignEntry.toJson layout.vectors),
    ("aggregate_abi", widthJson layout.aggregateAbi),
    ("stack_object_abi", widthJson layout.stackObjectAbi),
    ("native_integer_widths", .list widthJson layout.nativeIntegerWidths),
    ("stack_alignment", .option widthJson layout.stackAlignment),
    ("mangling", .option .text layout.mangling)]

namespace Reading

def block : Reading Block := fun depth json => do
  let (depth, [id, position, name, instructions]) ←
    fields ["id", "index", "name", "instructions"] depth json | none
  return ⟨← required blockRef depth id, ← required index depth position,
    ← optional string depth name, ← required (list index) depth instructions⟩

/-- The symbol table is a record of its own. -/
def symbolTable : Reading (List Value) := fun depth json => do
  let (depth, [symbols]) ← fields ["symbols"] depth json | none
  required (list value) depth symbols

def functionDef : Reading FunctionDef := fun depth json => do
  let (depth, [name, given, parameters, blocks, order, instructions, symbols, finished]) ←
    fields ["name", "ty", "parameters", "blocks", "order", "instructions", "symbols", "sealed"]
      depth json | none
  return {
    name := ← required string depth name
    signature := ← required signature depth given
    parameters := ← required (list parameter) depth parameters
    blocks := ← required (list block) depth blocks
    order := ← required (list blockRef) depth order
    instructions := ← required (list instruction) depth instructions
    symbols := ← required symbolTable depth symbols
    finished := ← required bool depth finished }

def globalVariable : Reading GlobalVariable := fun depth json => do
  let (depth, [name, valueTy, isConstant, initializer, given, align]) ←
    fields ["name", "value_type", "is_constant", "initializer", "linkage", "align"] depth json
      | none
  return ⟨← required string depth name, ← required ty depth valueTy,
    ← required bool depth isConstant, ← optional constant depth initializer,
    ← required linkage depth given, ← required uint32 depth align⟩

def unit : Reading Module := fun depth json => do
  let (depth,
      [name, dataLayout, targetTriple, typeDefinitions, globals, declarations, functions]) ←
    fields ["name", "data_layout", "target_triple", "type_definitions", "globals", "declarations",
      "functions"] depth json | none
  return {
    name := ← required string depth name
    dataLayout := ← optional string depth dataLayout
    targetTriple := ← optional string depth targetTriple
    typeDefinitions := ← required (list ty) depth typeDefinitions
    globals := ← required (list globalVariable) depth globals
    declarations := ← required (list functionRef) depth declarations
    functions := ← required (list functionDef) depth functions }

def alignEntry : Reading AlignEntry := fun depth json => do
  let (depth, [bits, abi, preferred]) ← fields ["bits", "abi", "preferred"] depth json | none
  return ⟨← required uint32 depth bits, ← required uint32 depth abi,
    ← required uint32 depth preferred⟩

def dataLayout : Reading DataLayout := fun depth json => do
  let (depth,
      [given, pointerSize, pointerAbi, integers, floats, vectors, aggregateAbi, stackObjectAbi,
        nativeIntegerWidths, stackAlignment, mangling]) ←
    fields ["endianness", "pointer_size", "pointer_abi", "integers", "floats", "vectors",
      "aggregate_abi", "stack_object_abi", "native_integer_widths", "stack_alignment", "mangling"]
      depth json | none
  return {
    endianness := ← required endianness depth given
    pointerSize := ← required uint32 depth pointerSize
    pointerAbi := ← required uint32 depth pointerAbi
    integers := ← required (list alignEntry) depth integers
    floats := ← required (list alignEntry) depth floats
    vectors := ← required (list alignEntry) depth vectors
    aggregateAbi := ← required uint32 depth aggregateAbi
    stackObjectAbi := ← required uint32 depth stackObjectAbi
    nativeIntegerWidths := ← required (list uint32) depth nativeIntegerWidths
    stackAlignment := ← optional uint32 depth stackAlignment
    mangling := ← optional string depth mangling }

end Reading

end IrAssembly
