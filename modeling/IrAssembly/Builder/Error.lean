import IrAssembly.Function.Edit
import IrAssembly.Ty.Text

/-!
Why a builder operation is refused.
-/

namespace IrAssembly

inductive BuildError where
  | typeMismatch (operation : String) (expected found : Ty)
  | notAPointer (operation : String) (found : Ty)
  | notAVector (operation : String) (found : Ty)
  | notAnAggregate (operation : String) (found : Ty)
  | invalidCondition (operation : String) (found : Ty)
  | indexOutOfRange (ty : Ty) (index : UInt64)
  | nonConstantStructIndex (ty : Ty)
  | unsupportedCallTarget (ty : Ty)
  | argumentCount (callee : String) (expected found : Nat)
  | literalTarget (literal : String) (ty : Ty)
  | untypedOperands (operation : String)
  | unsupportedVaArgType (ty : Ty)
  | unsupportedCast (operator : String) (source target : Ty)
  | noMoreParameters (function : String) (declared : Nat)
  deriving DecidableEq, Repr

def BuildError.message : BuildError → String
  | typeMismatch operation expected found =>
    operation ++ ": expected operand of type " ++ expected.text ++ ", found " ++ found.text
  | notAPointer operation found => operation ++ ": expected a pointer, found " ++ found.text
  | notAVector operation found => operation ++ ": expected a vector, found " ++ found.text
  | notAnAggregate operation found =>
    operation ++ ": expected an array or structure, found " ++ found.text
  | invalidCondition operation found =>
    operation ++ ": condition must be i1 or a vector of i1, found " ++ found.text
  | indexOutOfRange ty index =>
    "index " ++ toString index.toNat ++ " is out of range for " ++ ty.text
  | nonConstantStructIndex ty =>
    "structure " ++ ty.text ++ " can only be indexed by an integer constant"
  | unsupportedCallTarget ty => "cannot handle call target of type " ++ ty.text
  | argumentCount callee expected found =>
    "call to " ++ callee ++ " expects " ++ toString expected ++ " argument(s), got "
      ++ toString found
  | literalTarget literal ty => "cannot convert literal " ++ literal ++ " to " ++ ty.text
  | untypedOperands operation =>
    operation ++ ": at least one operand must be a typed value"
  | unsupportedVaArgType ty => "va_arg of type " ++ ty.text ++ " is not implemented"
  | unsupportedCast operator source target =>
    "cannot " ++ operator ++ " from " ++ source.text ++ " to " ++ target.text
  | noMoreParameters function declared =>
    "function '" ++ function ++ "' declares only " ++ toString declared ++ " parameter(s)"

/-- How a builder operation can end without a result: it refuses its arguments, or its caller broke
a rule. -/
inductive Failure where
  | refused (error : BuildError)
  | violated (violation : Violation)
  deriving DecidableEq, Repr

end IrAssembly
