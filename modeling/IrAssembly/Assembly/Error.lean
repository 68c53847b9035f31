import IrAssembly.Ty.Text
import IrAssembly.Instruction

/-!
Why a part of a module cannot be written as assembly.
-/

namespace IrAssembly

inductive WriteError where
  /-- An aggregate constant whose type is no array, vector or structure. -/
  | aggregateOf (ty : Ty)
  /-- An address computation on a base that is no pointer. -/
  | elementPointerOn (ty : Ty)
  | storeThrough (ty : Ty)
  /-- A call target whose type is no function below its pointers. -/
  | callThrough (ty : Ty)
  /-- A type definition of a type without a name. -/
  | definitionOf (ty : Ty)
  | unknownSymbol (function : String) (index : SymbolIndex)
  | unknownBlock (function : String) (block : BlockRef)
  | unknownInstruction (function : String) (id : InstId)
  deriving DecidableEq, Repr

namespace WriteError

/-- What cannot be printed; literal structures are called so. -/
def definitionSubject : Ty → String
  | .struct none fields packed => "literal " ++ (Ty.struct none fields packed).text
  | ty => ty.text

def unprintable (what : String) : String := "cannot print " ++ what ++ ": not implemented"

def message : WriteError → String
  | aggregateOf ty => unprintable ("aggregate constant of type " ++ ty.text)
  | elementPointerOn ty => unprintable ("getelementptr on " ++ ty.text)
  | storeThrough ty => unprintable ("store through " ++ ty.text)
  | callThrough ty => unprintable ("call through " ++ ty.text)
  | definitionOf ty => unprintable ("type definition of " ++ definitionSubject ty)
  | unknownSymbol function index =>
    "function '" ++ function ++ "' has no symbol " ++ toString index
  | unknownBlock function block =>
    "function '" ++ function ++ "' has no block " ++ toString block.id
  | unknownInstruction function id =>
    "function '" ++ function ++ "' has no instruction " ++ toString id

end WriteError

end IrAssembly
