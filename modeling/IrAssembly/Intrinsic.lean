import IrAssembly.Value

/-!
Intrinsic functions that builders call. A module declares those that it uses.
-/

namespace IrAssembly

inductive Intrinsic where
  | vaStart
  | vaEnd
  /-- Copy between two byte pointers: destination, source, length, alignment, volatile. -/
  | memcpy
  deriving DecidableEq, Repr

namespace Intrinsic

def name : Intrinsic → String
  | vaStart => "llvm.va_start"
  | vaEnd => "llvm.va_end"
  | memcpy => "llvm.memcpy.p0i8.p0i8.i64"

def signature : Intrinsic → Signature
  | vaStart | vaEnd => ⟨.void, [.ptr .i8], false⟩
  | memcpy => ⟨.void, [.ptr .i8, .ptr .i8, .i64, .i32, .i1], false⟩

/-- The intrinsic as a call target. -/
def callable (intrinsic : Intrinsic) : FunctionRef := ⟨intrinsic.name, intrinsic.signature⟩

end Intrinsic

end IrAssembly
