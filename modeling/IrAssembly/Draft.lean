import IrAssembly.Layout.Spec
import IrAssembly.Module
import IrAssembly.Ty.Named

/-!
A module in the making. Finishing it declares every function that is called and not known, and
defines every named type that is used.
-/

namespace IrAssembly

structure Draft where
  unit : Module
  layout : DataLayout
  deriving DecidableEq, Repr

namespace Draft

/-- The target that matches the default data layout. -/
def x86_64Triple : String := "x86_64-unknown-linux-gnu"

/-- A module for x86-64 Linux. -/
def start (name : String) : Draft where
  unit :=
    { name := name, dataLayout := some DataLayout.x86_64Spec, targetTriple := some x86_64Triple }
  layout := .x86_64

/-- A module with another data layout and no target. -/
def withLayout (name spec : String) : Except LayoutError Draft := do
  let layout ← DataLayout.parse spec
  return ⟨{ name := name, dataLayout := some spec }, layout⟩

def setTargetTriple (draft : Draft) (triple : String) : Draft :=
  { draft with unit := { draft.unit with targetTriple := some triple } }

/-- Add a definition, which replaces a declaration of the same name. -/
def addFunction (draft : Draft) (function : FunctionDef) : Draft :=
  let declarations := draft.unit.declarations.filter fun declared =>
    declared.name != function.name
  { draft with unit := { draft.unit with declarations := declarations }.addFunction function }

/-- Declare an external function. -/
def declareFunction (draft : Draft) (name : String) (signature : Signature) :
    FunctionRef × Draft :=
  let declaration := ⟨name, signature⟩
  (declaration, { draft with unit := draft.unit.addDeclaration declaration })

def addTypeDefinition (draft : Draft) (ty : Ty) : Draft :=
  { draft with unit := draft.unit.addTypeDefinition ty }

/-- Add a global variable; the constant holds its address. -/
def addGlobal (draft : Draft) (global : GlobalVariable) : Constant × Draft :=
  (global.reference, { draft with unit := draft.unit.addGlobal global })

end Draft

/-- The functions among the operands of a definition, in the order of their registration. -/
def FunctionDef.callees (function : FunctionDef) : List FunctionRef :=
  function.symbols.filterMap fun value =>
    match value with
    | .function callee => some callee
    | _ => none

/-- The types that the instruction itself mentions. -/
def Instruction.mentionedTys : Instruction → List Ty
  | .allocate result allocated _ _ => [result.ty, allocated]
  | instruction => (instruction.result?.map ResultSlot.ty).toList

/-- The types of a definition's signature, operands and instructions. -/
def FunctionDef.mentionedTys (function : FunctionDef) : List Ty :=
  function.signature.toTy :: function.symbols.map Value.ty
    ++ function.instructions.flatMap Instruction.mentionedTys

/-- The types of all globals, declarations and definitions. -/
def Module.mentionedTys (unit : Module) : List Ty :=
  unit.globals.map GlobalVariable.valueTy
    ++ unit.declarations.map (fun declaration => declaration.signature.toTy)
    ++ unit.functions.flatMap FunctionDef.mentionedTys

/-- Complete a draft: declare the functions it calls, define the named types it mentions. -/
def Draft.finish (draft : Draft) : Module :=
  let callees := draft.unit.functions.flatMap FunctionDef.callees
  let named := Ty.namedTypes draft.unit.mentionedTys
  named.foldl Module.addTypeDefinition (callees.foldl Module.addDeclaration draft.unit)

end IrAssembly
