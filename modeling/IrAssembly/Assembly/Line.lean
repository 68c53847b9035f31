import IrAssembly.Assembly.Operand
import IrAssembly.Function.Basic

/-!
The assembly line of each instruction, without its indentation. Operands are looked up in the
symbol table of the function, block targets in its block arena.
-/

namespace IrAssembly

def indent : String := "  "

/-- The alignment clause, when an alignment is set. -/
def alignmentClause (encoded : UInt32) : String :=
  match decodeAlignment encoded with
  | some align => ", align " ++ toString align
  | none => ""

namespace MemoryAccess

/-- The words after the opcode of a load or store. -/
def keywords (access : MemoryAccess) : String :=
  (if access.ordering.isAtomic then "atomic " else "")
    ++ (if access.volatile then "volatile " else "")

/-- Scope and ordering of an atomic access, after its operands. -/
def orderingClause (access : MemoryAccess) : String :=
  if access.ordering.isAtomic then
    (if access.scope = .singleThread then " singlethread" else "") ++ " " ++ access.ordering.text
  else ""

end MemoryAccess

namespace FunctionDef

/-- The symbol at an index. -/
def operand (function : FunctionDef) (index : SymbolIndex) : Except WriteError Value :=
  match function.symbol? index with
  | some value => .ok value
  | none => .error (.unknownSymbol function.name index)

def operandText (function : FunctionDef) (dialect : Dialect) (index : SymbolIndex) :
    Except WriteError String := do
  (← function.operand index).text dialect

def typedOperand (function : FunctionDef) (dialect : Dialect) (index : SymbolIndex) :
    Except WriteError String := do
  (← function.operand index).typedText dialect

def operandTy (function : FunctionDef) (index : SymbolIndex) : Except WriteError Ty := do
  return (← function.operand index).operandTy

/-- The name of a block, or its position if it has none. -/
def blockName (function : FunctionDef) (block : BlockRef) : Except WriteError String :=
  match function.block? block with
  | some ⟨_, _, some name, _⟩ => .ok (localName name)
  | some ⟨_, index, none, _⟩ => .ok ("%" ++ toString index)
  | none => .error (.unknownBlock function.name block)

def labelText (function : FunctionDef) (block : BlockRef) : Except WriteError String := do
  return "label " ++ (← function.blockName block)

/-- A function type is spelled out in a call when the result type alone could be misread: for
variadic callees and for callees that return a pointer to a function. -/
def calleeTyText (dialect : Dialect) (callee : Signature) : String :=
  let returnsFunction :=
    match callee.result with
    | .ptr (.func _ _ _) => true
    | _ => false
  if callee.vararg || returnsFunction then
    " " ++ callee.parameterList ++ (if dialect.calleePointer then "*" else "")
  else ""

/-- A call, without the name of its result. -/
def callText (function : FunctionDef) (dialect : Dialect) (target : SymbolIndex)
    (arguments : List SymbolIndex) : Except WriteError String := do
  let callee ← function.operand target
  let ty := callee.ty.stripPointers
  let some signature := ty.signature? | throw (.callThrough ty)
  let name ← callee.text dialect
  let argumentTexts ← arguments.mapM (function.typedOperand dialect)
  return "call " ++ signature.result.text ++ calleeTyText dialect signature ++ " " ++ name
    ++ "(" ++ commaSeparated argumentTexts ++ ")"

/-- A switch with its cases, one case a line from the second on. -/
def switchText (function : FunctionDef) (dialect : Dialect) (condition : SymbolIndex)
    (default : BlockRef) (cases : List String) : Except WriteError String := do
  let conditionText ← function.typedOperand dialect condition
  let defaultText ← function.labelText default
  return "switch " ++ conditionText ++ ", " ++ defaultText
    ++ " [ " ++ ("\n" ++ indent ++ indent).intercalate cases ++ " ]"

/-- Everything of an instruction's line but the name of its result. -/
def bodyText (function : FunctionDef) (dialect : Dialect) :
    Instruction → Except WriteError String
  | .allocate _ allocated count align => do
    let countText ←
      match ← function.operand count with
      | .constant (.int _ 1) => pure ""
      | value => do
        let text ← value.typedText dialect
        pure (", " ++ text)
    return "alloca " ++ allocated.text ++ countText ++ alignmentClause align
  | .load result source access => do
    let pointee := if dialect.explicitPointee then result.ty.text ++ ", " else ""
    let sourceText ← function.typedOperand dialect source
    return "load " ++ access.keywords ++ pointee ++ sourceText ++ access.orderingClause
      ++ alignmentClause access.align
  | .store destination source access => do
    let pointer ← function.operandTy destination
    let some pointee := pointer.pointee? | throw (.storeThrough pointer)
    let sourceText ← function.operandText dialect source
    let destinationText ← function.operandText dialect destination
    return "store " ++ access.keywords ++ pointee.text ++ " " ++ sourceText ++ ", "
      ++ pointer.text ++ " " ++ destinationText ++ access.orderingClause
      ++ alignmentClause access.align
  | .binary result operator flags lhs rhs => do
    let flagWords := String.join (flags.map fun flag => flag.text ++ " ")
    let lhsText ← function.operandText dialect lhs
    let rhsText ← function.operandText dialect rhs
    return operator.text ++ " " ++ flagWords ++ result.ty.text ++ " " ++ lhsText ++ ", " ++ rhsText
  | .compare _ operator lhs rhs => do
    let lhsText ← function.typedOperand dialect lhs
    let rhsText ← function.operandText dialect rhs
    return operator.opcode ++ " " ++ operator.text ++ " " ++ lhsText ++ ", " ++ rhsText
  | .cast result operator value => do
    let valueText ← function.typedOperand dialect value
    return operator.text ++ " " ++ valueText ++ " to " ++ result.ty.text
  | .call _ target arguments | .voidCall target arguments =>
    function.callText dialect target arguments
  | .branch successor => do
    return "br " ++ (← function.labelText successor)
  | .conditionalBranch condition onTrue onFalse => do
    let conditionText ← function.typedOperand dialect condition
    let trueText ← function.labelText onTrue
    let falseText ← function.labelText onFalse
    return "br " ++ conditionText ++ ", " ++ trueText ++ ", " ++ falseText
  | .indirectBranch address successors => do
    let labels ← successors.mapM function.labelText
    let addressText ← function.typedOperand dialect address
    return "indirectbr " ++ addressText ++ ", [ " ++ commaSeparated labels ++ " ]"
  | .switch condition default cases => do
    let caseTexts ← cases.mapM fun (value, block) => do
      let valueText ← function.typedOperand dialect value
      let label ← function.labelText block
      pure (valueText ++ ", " ++ label)
    function.switchText dialect condition default caseTexts
  | .literalSwitch condition default cases => do
    let ty ← function.operandTy condition
    let caseTexts ← cases.mapM fun (value, block) => do
      let label ← function.labelText block
      pure (ty.text ++ " " ++ toString value.toInt ++ ", " ++ label)
    function.switchText dialect condition default caseTexts
  | .phi result incoming => do
    let edges ← incoming.mapM fun (value, block) => do
      let valueText ← function.operandText dialect value
      let name ← function.blockName block
      pure ("[ " ++ valueText ++ ", " ++ name ++ " ]")
    return "phi " ++ result.ty.text ++ " " ++ commaSeparated edges
  | .elementPointer _ base indices inbounds => do
    let baseTy ← function.operandTy base
    let pointee ← explicitPointee dialect baseTy
    let baseText ← function.typedOperand dialect base
    let indexTexts ← indices.mapM (function.typedOperand dialect)
    return "getelementptr " ++ (if inbounds then "inbounds " else "") ++ pointee
      ++ commaSeparated (baseText :: indexTexts)
  | .extractElement _ vector index => do
    let operands ← [vector, index].mapM (function.typedOperand dialect)
    return "extractelement " ++ commaSeparated operands
  | .insertElement _ vector value index => do
    let operands ← [vector, value, index].mapM (function.typedOperand dialect)
    return "insertelement " ++ commaSeparated operands
  | .extractValue _ aggregate index => do
    let aggregateText ← function.typedOperand dialect aggregate
    return "extractvalue " ++ aggregateText ++ ", " ++ toString index.toNat
  | .insertValue _ aggregate value index => do
    let aggregateText ← function.typedOperand dialect aggregate
    let valueText ← function.typedOperand dialect value
    return "insertvalue " ++ aggregateText ++ ", " ++ valueText ++ ", " ++ toString index.toNat
  | .select _ condition onTrue onFalse => do
    let operands ← [condition, onTrue, onFalse].mapM (function.typedOperand dialect)
    return "select " ++ commaSeparated operands
  | .shuffleVector _ first second mask => do
    let operands ← [first, second, mask].mapM (function.typedOperand dialect)
    return "shufflevector " ++ commaSeparated operands
  | .ret (some value) => do
    return "ret " ++ (← function.typedOperand dialect value)
  | .ret none => return "ret void"
  | .unreachable => return "unreachable"

/-- The line of an instruction, which starts with the name of its result if it has one. -/
def line (function : FunctionDef) (dialect : Dialect) (instruction : Instruction) :
    Except WriteError String := do
  let body ← function.bodyText dialect instruction
  match instruction.result? with
  | some result => return localName result.name ++ " = " ++ body
  | none => return body

end FunctionDef

end IrAssembly
