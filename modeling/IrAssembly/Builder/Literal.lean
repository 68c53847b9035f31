import IrAssembly.Builder.Error
import IrAssembly.FloatingPoint.Decimal

/-!
Untyped literals. A literal becomes a constant of the type that its place asks for: integers wrap
to the width of the type, floating point targets take the nearest number of their kind.
-/

namespace IrAssembly

inductive Literal where
  | bool (value : Bool)
  | int (value : Int64)
  | bigInt (value : Int)
  /-- A double, by its bit pattern. -/
  | float (double : UInt64)
  deriving DecidableEq, Repr

namespace Literal

def text : Literal → String
  | bool value => if value then "true" else "false"
  | int value => toString value.toInt
  | bigInt value => toString value
  | float double => doubleText double

/-- The exact integer that a literal stands for; numbers with a point stand for none. -/
def integer? : Literal → Option Int
  | bool value => some (if value then 1 else 0)
  | int value => some value.toInt
  | bigInt value => some value
  | float _ => none

/-- The double that a literal stands for. Integers first lose all but their low 64 bits. -/
def double : Literal → UInt64
  | bool value => doubleOfInt (if value then 1 else 0)
  | int value => doubleOfInt value.toInt
  | bigInt value => doubleOfInt (lowBits value).toInt
  | float double => double

/-- The constant of a type that a literal stands for. -/
def toConstant (literal : Literal) (ty : Ty) : Except BuildError Constant :=
  match ty, literal.integer? with
  | .int _, some value =>
    if ty.isBigInteger then .ok (.bigInt ty value) else .ok (.integer ty (lowBits value))
  | .float kind, _ => .ok (.ofDouble kind literal.double)
  | _, _ => .error (.literalTarget literal.text ty)

end Literal

/-- An operand of a convenience operation: a typed value, or a literal that takes its type from
its place. -/
inductive Operand where
  | value (value : Value)
  | literal (literal : Literal)
  deriving DecidableEq, Repr

namespace Operand

/-- The value of an operand where a type is asked for. Values are taken as they are. -/
def resolve (ty : Ty) : Operand → Except BuildError Value
  | value known => .ok known
  | literal untyped => (untyped.toConstant ty).map Value.constant

/-- The values of two operands of one instruction; a literal takes the type of the other one. -/
def resolvePair (operation : String) : Operand → Operand → Except BuildError (Value × Value)
  | value lhs, value rhs => .ok (lhs, rhs)
  | literal lhs, value rhs => (lhs.toConstant rhs.ty).map fun lhs => (.constant lhs, rhs)
  | value lhs, literal rhs => (rhs.toConstant lhs.ty).map fun rhs => (lhs, .constant rhs)
  | literal _, literal _ => .error (.untypedOperands operation)

end Operand

instance : Coe Value Operand := ⟨.value⟩

instance : Coe Literal Operand := ⟨.literal⟩

end IrAssembly
