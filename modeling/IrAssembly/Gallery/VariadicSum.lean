import IrAssembly.Gallery.Body

/-!
A variadic sum: `sum` adds up as many variable arguments as its parameter says, in a loop; `main`
returns 0 when the sum of 10, 20 and 12 is 42.
-/

namespace IrAssembly.Gallery

open Build

def sumFunction : FunctionRef := ⟨"sum", ⟨.i32, [.i32], true⟩⟩

def sumBody : Body Unit := do
  let count ← nextParameter
  -- handles stay valid when the arguments' blocks are inserted into the loop body
  let condition ← getBlock 1
  let body ← getBlock 2
  let exit ← getBlock 3
  let list ← allocate .vaList
  vaStart list
  let total ← allocate .i32
  storeOperand total (Literal.int 0) 4
  let counter ← allocate .i32
  storeOperand counter (Literal.int 0) 4
  branch condition
  let _ ← nextBlock
  let seen ← load counter
  let more ← compareOperands .intSignedLessThan seen count
  conditionalBranch more body exit
  let _ ← nextBlock
  let argument ← vaArg list .i32
  let partialSum ← load total
  let added ← binaryOperands .add partialSum argument
  storeOperand total added 4
  let seen ← load counter
  let incremented ← binaryOperands .add seen (Literal.int 1)
  storeOperand counter incremented 4
  branch condition
  let _ ← nextBlock
  vaEnd list
  let result ← load total
  returnOperand result

def sumMain : Body Unit := do
  let arguments : List Value := [3, 10, 20, 12].map fun value => .constant (.i32 value)
  let result ← Body.callValue (.function sumFunction) arguments
  let failed ← compareOperands .intNotEqual result (Literal.int 42)
  returnWithCast failed

def variadicSum : Except GalleryError Module := do
  let draft := Draft.start "vararg_sum"
  let function ← draft.define sumFunction.name sumFunction.signature sumBody
  let main ← draft.define "main" ⟨.i32, [], false⟩ sumMain
  return ((draft.addFunction function).addFunction main).finish

end IrAssembly.Gallery
