import IrAssembly.Constant

/-!
Values that instructions take as operands: constants, results of instructions, parameters and
functions.
-/

namespace IrAssembly

/-- Index of an instruction in the arena of its function. -/
abbrev InstId := Nat

/-- Position of a value in the symbol table of a function. -/
abbrev SymbolIndex := Nat

/-- The result of an instruction. -/
structure ResultRef where
  id : InstId
  name : String
  ty : Ty
  deriving DecidableEq, Repr

/-- A formal parameter of a function definition. -/
structure Parameter where
  index : Nat
  name : String
  ty : Ty
  deriving DecidableEq, Repr

/-- A function, defined or declared, referred to by name. -/
structure FunctionRef where
  name : String
  signature : Signature
  deriving DecidableEq, Repr

inductive Value where
  | constant (constant : Constant)
  | result (result : ResultRef)
  | parameter (parameter : Parameter)
  | function (function : FunctionRef)
  deriving DecidableEq, Repr

namespace Value

/-- A function used as a value has its function type. -/
def ty : Value → Ty
  | constant known => known.ty
  | result slot => slot.ty
  | parameter formal => formal.ty
  | function callee => callee.signature.toTy

def asConstant? : Value → Option Constant
  | constant known => some known
  | _ => none

def asResult? : Value → Option ResultRef
  | result slot => some slot
  | _ => none

/-- Results, parameters and functions have names. -/
def name? : Value → Option String
  | constant _ => none
  | result slot => some slot.name
  | parameter formal => some formal.name
  | function callee => some callee.name

/-- The type under which the value is written as an operand: functions are used through a
pointer. -/
def operandTy : Value → Ty
  | function callee => .ptr callee.signature.toTy
  | value => value.ty

end Value

end IrAssembly
