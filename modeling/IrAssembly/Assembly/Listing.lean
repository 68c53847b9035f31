import IrAssembly.Assembly.Line
import IrAssembly.Module

/-!
The assembly listing of a module: header, type definitions, global variables, function
definitions and declarations, with a blank line before each group and each function.
-/

namespace IrAssembly

/-- Lines as a text, each with its line break. -/
def unlines (lines : List String) : String := String.join (lines.map fun line => line ++ "\n")

/-- The line that gives a named type its body. -/
def Ty.definitionLine : Ty → Except WriteError String
  | .struct (some name) fields packed =>
    .ok (localName name ++ " = type " ++ structBody (texts fields) packed)
  | .bodiless name => .ok (localName name ++ " = type opaque")
  | ty => .error (.definitionOf ty)

/-- The linkage word; an external variable is marked so only when it has no initializer. -/
def GlobalVariable.linkageText (global : GlobalVariable) : String :=
  match global.linkage, global.initializer with
  | .internal, _ => "internal "
  | .unlisted, _ => "private "
  | .external, none => "external "
  | .external, some _ => ""

def GlobalVariable.line (global : GlobalVariable) (dialect : Dialect) :
    Except WriteError String := do
  let initializer ←
    match global.initializer with
    | some constant => do
      let text ← constant.text dialect
      pure (" " ++ text)
    | none => pure ""
  return globalName global.name ++ " = " ++ global.linkageText
    ++ (if global.constant then "constant " else "global ") ++ global.valueTy.text ++ initializer
    ++ alignmentClause global.align

def FunctionRef.declarationLine (function : FunctionRef) : String :=
  "declare " ++ function.signature.result.text ++ " " ++ globalName function.name
    ++ function.signature.parameterList

namespace FunctionDef

/-- The line that opens the definition. -/
def header (function : FunctionDef) : String :=
  let params := function.parameters.map fun parameter =>
    parameter.ty.text ++ " " ++ localName parameter.name
  "define " ++ function.signature.result.text ++ " " ++ globalName function.name
    ++ "(" ++ commaSeparated (parameterTexts params function.signature.vararg) ++ ") \x7b"

/-- The line that opens a block: its label, or a comment with its position. -/
def labelLine (block : Block) : String :=
  match block.name with
  | some name => spelledName name ++ ":"
  | none => "; <label>:" ++ toString block.index

/-- The indented lines of a block's instructions. -/
def instructionLines (function : FunctionDef) (dialect : Dialect) (block : Block) :
    Except WriteError (List String) :=
  block.instructions.mapM fun id => do
    let some instruction := function.instruction? id | throw (.unknownInstruction function.name id)
    return indent ++ (← function.line dialect instruction)

/-- The blocks after the first, each behind a blank line and its label. -/
def laterBlockLines (function : FunctionDef) (dialect : Dialect) (block : Block) :
    Except WriteError (List String) := do
  return "" :: labelLine block :: (← function.instructionLines dialect block)

/-- The lines of a definition; the label of the first block is not written. -/
def lines (function : FunctionDef) (dialect : Dialect) : Except WriteError (List String) := do
  match function.orderedBlocks with
  | [] => return [function.header, "\x7d"]
  | entry :: later =>
    let entryLines ← function.instructionLines dialect entry
    let laterLines ← later.mapM (function.laterBlockLines dialect)
    return function.header :: entryLines ++ laterLines.flatten ++ ["\x7d"]

def assembly (function : FunctionDef) (dialect : Dialect) : Except WriteError String := do
  return unlines (← function.lines dialect)

end FunctionDef

namespace Module

/-- A quoted setting of the target, if there is one. -/
def targetLine (setting : String) : Option String → List String
  | some value => ["target " ++ setting ++ " = \"" ++ escapeString value ++ "\""]
  | none => []

/-- A group of lines behind a blank line, or nothing. -/
def group : List String → List String
  | [] => []
  | lines => "" :: lines

def headerLines (unit : Module) : List String :=
  ("; ModuleID = '" ++ unit.name ++ "'") :: targetLine "datalayout" unit.dataLayout
    ++ targetLine "triple" unit.targetTriple

def lines (unit : Module) (dialect : Dialect) : Except WriteError (List String) := do
  let types ← unit.typeDefinitions.mapM Ty.definitionLine
  let globals ← unit.globals.mapM fun global => global.line dialect
  let functions ← unit.functions.mapM fun function => function.lines dialect
  let declarations := unit.declarations.map FunctionRef.declarationLine
  return unit.headerLines ++ group types ++ group globals ++ (functions.map group).flatten
    ++ group declarations

/-- The listing of a module. -/
def assembly (unit : Module) (dialect : Dialect) : Except WriteError String := do
  return unlines (← unit.lines dialect)

end Module

end IrAssembly
