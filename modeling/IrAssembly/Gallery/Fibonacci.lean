import IrAssembly.Gallery.Body

/-!
Recursive Fibonacci numbers: `main` returns 0 when the tenth is 55, and 1 otherwise.
-/

namespace IrAssembly.Gallery

open Build

def fibonacciFunction : FunctionRef := ⟨"fibonacci", ⟨.i32, [.i32], false⟩⟩

def fibonacciBody : Body Unit := do
  let target : Value := .function fibonacciFunction
  let n ← nextParameter
  let isBase ← compareOperands .intSignedLessOrEqual n (Literal.int 1)
  let baseCase ← getBlock 1
  let recursion ← getBlock 2
  conditionalBranch isBase baseCase recursion
  let _ ← nextBlock
  returnOperand n
  let _ ← nextBlock
  let below ← binaryOperands .sub n (Literal.int 1)
  let first ← Body.callValue target [below]
  let twoBelow ← binaryOperands .sub n (Literal.int 2)
  let second ← Body.callValue target [twoBelow]
  let sum ← binaryOperands .add first second
  returnOperand sum

def fibonacciMain : Body Unit := do
  let result ← Body.callValue (.function fibonacciFunction) [.constant (.i32 10)]
  let failed ← compareOperands .intNotEqual result (Literal.int 55)
  returnWithCast failed

def fibonacci : Except GalleryError Module := do
  let draft := Draft.start "fibonacci"
  let function ← draft.define fibonacciFunction.name fibonacciFunction.signature fibonacciBody
  let main ← draft.define "main" ⟨.i32, [], false⟩ fibonacciMain
  return ((draft.addFunction function).addFunction main).finish

end IrAssembly.Gallery
