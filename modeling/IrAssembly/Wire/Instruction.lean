import IrAssembly.Instruction
import IrAssembly.Wire.Ty

/-!
Instructions in the interchange form. Instructions with a result write its name and type first.
-/

namespace IrAssembly

def BlockRef.toJson (block : BlockRef) : Json := .nat block.id

def MemoryAccess.toJson (access : MemoryAccess) : Json :=
  .record [("align", .nat access.align.toNat), ("is_volatile", .bool access.volatile),
    ("ordering", .text access.ordering.wireName), ("scope", .text access.scope.wireName)]

/-- A list of operands. -/
def operandsJson (operands : List SymbolIndex) : Json := .list .nat operands

/-- Pairs of a key and a block. -/
def armsJson {α : Type} (key : α → Json) (arms : List (α × BlockRef)) : Json :=
  .list (fun (label, block) => .arr [key label, block.toJson]) arms

namespace Instruction

/-- A variant whose first fields are the name and the type of the result. -/
def resultJson (name : String) (result : ResultSlot) (fields : List (String × Json)) : Json :=
  .tagged name
    (.record (("result", .text result.name) :: ("result_type", result.ty.toJson) :: fields))

def toJson : Instruction → Json
  | allocate result allocated count align =>
    resultJson "Allocate" result
      [("allocated_type", allocated.toJson), ("count", .nat count), ("align", .nat align.toNat)]
  | load result source access =>
    resultJson "Load" result [("source", .nat source), ("access", access.toJson)]
  | store destination source access =>
    .tagged "Store"
      (.record [("destination", .nat destination), ("source", .nat source),
        ("access", access.toJson)])
  | binary result operator flags lhs rhs =>
    resultJson "BinaryOperation" result
      [("operator", .text operator.wireName),
        ("flags", .list (fun flag : BinaryFlag => .text flag.wireName) flags), ("lhs", .nat lhs),
        ("rhs", .nat rhs)]
  | compare result operator lhs rhs =>
    resultJson "Compare" result
      [("operator", .text operator.wireName), ("lhs", .nat lhs), ("rhs", .nat rhs)]
  | cast result operator value =>
    resultJson "Cast" result [("operator", .text operator.wireName), ("value", .nat value)]
  | call result target arguments =>
    resultJson "Call" result [("target", .nat target), ("arguments", operandsJson arguments)]
  | voidCall target arguments =>
    .tagged "VoidCall" (.record [("target", .nat target), ("arguments", operandsJson arguments)])
  | branch successor => .tagged "Branch" (.record [("successor", successor.toJson)])
  | conditionalBranch condition onTrue onFalse =>
    .tagged "ConditionalBranch"
      (.record [("condition", .nat condition), ("true_successor", onTrue.toJson),
        ("false_successor", onFalse.toJson)])
  | indirectBranch address successors =>
    .tagged "IndirectBranch"
      (.record [("address", .nat address), ("successors", .list BlockRef.toJson successors)])
  | switch condition default cases =>
    .tagged "Switch"
      (.record [("condition", .nat condition), ("default_block", default.toJson),
        ("cases", armsJson .nat cases)])
  | literalSwitch condition default cases =>
    .tagged "SwitchOld"
      (.record [("condition", .nat condition), ("default_block", default.toJson),
        ("cases", armsJson (fun value : Int64 => .integer value.toInt) cases)])
  | phi result incoming => resultJson "Phi" result [("incoming", armsJson .nat incoming)]
  | elementPointer result base indices inbounds =>
    resultJson "GetElementPointer" result
      [("base", .nat base), ("indices", operandsJson indices), ("inbounds", .bool inbounds)]
  | extractElement result vector index =>
    resultJson "ExtractElement" result [("vector", .nat vector), ("index", .nat index)]
  | insertElement result vector value index =>
    resultJson "InsertElement" result
      [("vector", .nat vector), ("value", .nat value), ("index", .nat index)]
  | extractValue result aggregate index =>
    resultJson "ExtractValue" result [("aggregate", .nat aggregate), ("index", .nat index.toNat)]
  | insertValue result aggregate value index =>
    resultJson "InsertValue" result
      [("aggregate", .nat aggregate), ("value", .nat value), ("index", .nat index.toNat)]
  | select result condition onTrue onFalse =>
    resultJson "Select" result
      [("condition", .nat condition), ("true_value", .nat onTrue), ("false_value", .nat onFalse)]
  | shuffleVector result first second mask =>
    resultJson "ShuffleVector" result
      [("vector1", .nat first), ("vector2", .nat second), ("mask", .nat mask)]
  | ret value => .tagged "Return" (.record [("value", .option .nat value)])
  | unreachable => .text "Unreachable"

end Instruction

namespace Reading

def blockRef : Reading BlockRef := fun depth json => BlockRef.mk <$> below (2 ^ 32) depth json

def memoryAccess : Reading MemoryAccess := fun depth json => do
  let (depth, [align, isVolatile, ordering, given]) ←
    fields ["align", "is_volatile", "ordering", "scope"] depth json | none
  return ⟨← required uint32 depth align, ← required bool depth isVolatile,
    ← required atomicOrdering depth ordering, ← required scope depth given⟩

/-- Name and type of a result from their two fields. -/
def resultSlot (depth : Nat) (name given : Option Json) : Option ResultSlot := do
  return ⟨← required string depth name, ← required ty depth given⟩

def operand (depth : Nat) (field : Option Json) : Option SymbolIndex := required index depth field

def operands (depth : Nat) (field : Option Json) : Option (List SymbolIndex) :=
  required (list index) depth field

def successor (depth : Nat) (field : Option Json) : Option BlockRef := required blockRef depth field

/-- Pairs of a key and a block. -/
def arms {α : Type} (key : Reading α) (depth : Nat) (field : Option Json) :
    Option (List (α × BlockRef)) :=
  required (list (pair key blockRef)) depth field

/-- Fields that follow the name and the type of a result. -/
def resultFields (names : List String) : Reading (ResultSlot × Nat × List (Option Json)) :=
  fun depth json => do
    let (depth, name :: given :: rest) ← fields ("result" :: "result_type" :: names) depth json
      | none
    return (← resultSlot depth name given, depth, rest)

/-- An instruction variant with a result. -/
def resultInstruction (name : String) : Reading Instruction := fun depth json =>
  match name with
  | "Allocate" => do
    let (result, depth, [allocated, count, align]) ←
      resultFields ["allocated_type", "count", "align"] depth json | none
    return .allocate result (← required ty depth allocated) (← operand depth count)
      (← required uint32 depth align)
  | "Load" => do
    let (result, depth, [source, access]) ← resultFields ["source", "access"] depth json | none
    return .load result (← operand depth source) (← required memoryAccess depth access)
  | "BinaryOperation" => do
    let (result, depth, [operator, flags, lhs, rhs]) ←
      resultFields ["operator", "flags", "lhs", "rhs"] depth json | none
    return .binary result (← required binaryOperator depth operator)
      (← required (list binaryFlag) depth flags) (← operand depth lhs) (← operand depth rhs)
  | "Compare" => do
    let (result, depth, [operator, lhs, rhs]) ←
      resultFields ["operator", "lhs", "rhs"] depth json | none
    return .compare result (← required compareOperator depth operator) (← operand depth lhs)
      (← operand depth rhs)
  | "Cast" => do
    let (result, depth, [operator, value]) ← resultFields ["operator", "value"] depth json | none
    return .cast result (← required castOperator depth operator) (← operand depth value)
  | "Call" => do
    let (result, depth, [target, arguments]) ←
      resultFields ["target", "arguments"] depth json | none
    return .call result (← operand depth target) (← operands depth arguments)
  | "Phi" => do
    let (result, depth, [incoming]) ← resultFields ["incoming"] depth json | none
    return .phi result (← arms index depth incoming)
  | "GetElementPointer" => do
    let (result, depth, [base, indices, inbounds]) ←
      resultFields ["base", "indices", "inbounds"] depth json | none
    return .elementPointer result (← operand depth base) (← operands depth indices)
      (← required bool depth inbounds)
  | "ExtractElement" => do
    let (result, depth, [vector, position]) ← resultFields ["vector", "index"] depth json | none
    return .extractElement result (← operand depth vector) (← operand depth position)
  | "InsertElement" => do
    let (result, depth, [vector, value, position]) ←
      resultFields ["vector", "value", "index"] depth json | none
    return .insertElement result (← operand depth vector) (← operand depth value)
      (← operand depth position)
  | "ExtractValue" => do
    let (result, depth, [aggregate, position]) ←
      resultFields ["aggregate", "index"] depth json | none
    return .extractValue result (← operand depth aggregate) (← required uint64 depth position)
  | "InsertValue" => do
    let (result, depth, [aggregate, value, position]) ←
      resultFields ["aggregate", "value", "index"] depth json | none
    return .insertValue result (← operand depth aggregate) (← operand depth value)
      (← required uint64 depth position)
  | "Select" => do
    let (result, depth, [condition, onTrue, onFalse]) ←
      resultFields ["condition", "true_value", "false_value"] depth json | none
    return .select result (← operand depth condition) (← operand depth onTrue)
      (← operand depth onFalse)
  | "ShuffleVector" => do
    let (result, depth, [first, second, mask]) ←
      resultFields ["vector1", "vector2", "mask"] depth json | none
    return .shuffleVector result (← operand depth first) (← operand depth second)
      (← operand depth mask)
  | _ => none

/-- An instruction variant with fields but without a result. -/
def effectInstruction (name : String) : Reading Instruction := fun depth json =>
  match name with
  | "Store" => do
    let (depth, [destination, source, access]) ←
      fields ["destination", "source", "access"] depth json | none
    return .store (← operand depth destination) (← operand depth source)
      (← required memoryAccess depth access)
  | "VoidCall" => do
    let (depth, [target, arguments]) ← fields ["target", "arguments"] depth json | none
    return .voidCall (← operand depth target) (← operands depth arguments)
  | "Branch" => do
    let (depth, [target]) ← fields ["successor"] depth json | none
    return .branch (← successor depth target)
  | "ConditionalBranch" => do
    let (depth, [condition, onTrue, onFalse]) ←
      fields ["condition", "true_successor", "false_successor"] depth json | none
    return .conditionalBranch (← operand depth condition) (← successor depth onTrue)
      (← successor depth onFalse)
  | "IndirectBranch" => do
    let (depth, [address, successors]) ← fields ["address", "successors"] depth json | none
    return .indirectBranch (← operand depth address) (← required (list blockRef) depth successors)
  | "Switch" => do
    let (depth, [condition, default, cases]) ←
      fields ["condition", "default_block", "cases"] depth json | none
    return .switch (← operand depth condition) (← successor depth default)
      (← arms index depth cases)
  | "SwitchOld" => do
    let (depth, [condition, default, cases]) ←
      fields ["condition", "default_block", "cases"] depth json | none
    return .literalSwitch (← operand depth condition) (← successor depth default)
      (← arms int64 depth cases)
  | "Return" => do
    let (depth, [value]) ← fields ["value"] depth json | none
    return .ret (← optional index depth value)
  | _ => none

def instruction : Reading Instruction := fun depth json => do
  let (name, payload) ← variant depth json
  if name = "Unreachable" then
    if payload.isUnit then some .unreachable else none
  else payload.read (resultInstruction name) <|> payload.read (effectInstruction name)

end Reading

end IrAssembly
