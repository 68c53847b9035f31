import IrAssembly.Function.Basic

/-!
Modules: type definitions, global variables, declarations and function definitions of one
translation unit.
-/

namespace IrAssembly

inductive Linkage where
  /-- Visible to other modules. -/
  | external
  /-- Visible in this module only. -/
  | internal
  /-- Not in the symbol table. -/
  | unlisted
  deriving DecidableEq, Repr

structure GlobalVariable where
  name : String
  valueTy : Ty
  constant : Bool
  initializer : Option Constant
  linkage : Linkage
  /-- Encoded as on loads and stores. -/
  align : UInt32
  deriving DecidableEq, Repr

/-- The constant that holds the address of the variable. -/
def GlobalVariable.reference (global : GlobalVariable) : Constant :=
  .global global.name (.ptr global.valueTy)

structure Module where
  name : String
  dataLayout : Option String := none
  targetTriple : Option String := none
  /-- Named structures and bodiless types. -/
  typeDefinitions : List Ty := []
  globals : List GlobalVariable := []
  declarations : List FunctionRef := []
  functions : List FunctionDef := []
  deriving DecidableEq, Repr

namespace Module

def function? (unit : Module) (name : String) : Option FunctionDef :=
  unit.functions.find? (·.name == name)

/-- Whether a function of this name is defined or declared. -/
def knows (unit : Module) (name : String) : Bool :=
  unit.functions.any (·.name == name) || unit.declarations.any (·.name == name)

def addFunction (unit : Module) (function : FunctionDef) : Module :=
  { unit with functions := unit.functions ++ [function] }

def addGlobal (unit : Module) (global : GlobalVariable) : Module :=
  { unit with globals := unit.globals ++ [global] }

/-- Declare an external function unless its name is already known. -/
def addDeclaration (unit : Module) (declaration : FunctionRef) : Module :=
  if unit.knows declaration.name then unit
  else { unit with declarations := unit.declarations ++ [declaration] }

/-- Add a type definition unless it is already present. -/
def addTypeDefinition (unit : Module) (ty : Ty) : Module :=
  if ty ∈ unit.typeDefinitions then unit
  else { unit with typeDefinitions := unit.typeDefinitions ++ [ty] }

end Module

end IrAssembly
