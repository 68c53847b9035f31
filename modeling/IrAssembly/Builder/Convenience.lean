import IrAssembly.Builder.Instructions
import IrAssembly.Builder.Literal

/-!
Operations that accept literals, and the patterns of several instructions: the folded comparison
of vectors, the filling of a vector, and the return with a conversion.
-/

namespace IrAssembly.Build

/-- Go on with a result, or refuse with its error. -/
def accept {α : Type} : Except BuildError α → Build α
  | .ok value => return value
  | .error error => refuse error

/-- Create the next parameter that the signature declares. -/
def nextParameter : Build Value := do
  let builder ← get
  let declared := builder.function.signature.params
  match declared[builder.argCounter - 1]? with
  | some ty => createParameter ty
  | none => refuse (.noMoreParameters builder.function.name declared.length)

/-- Store an operand; a literal takes the pointee type. -/
def storeOperand (destination : Value) (operand : Operand) (align : Nat) : Build Unit := do
  let pointee ← expectPointer "store" destination
  let value ← accept (operand.resolve pointee)
  store destination value align

def binaryOperands (operator : BinaryOperator) (lhs rhs : Operand) : Build Value := do
  let (lhs, rhs) ← accept (Operand.resolvePair "binary operation" lhs rhs)
  binary operator lhs rhs

def compareOperands (operator : CompareOperator) (lhs rhs : Operand) : Build Value := do
  let (lhs, rhs) ← accept (Operand.resolvePair "compare" lhs rhs)
  compare operator lhs rhs

/-- Insert an operand into a lane; a literal takes the element type. -/
def insertOperand (vector : Value) (operand : Operand) (index : UInt32) : Build Value := do
  let element ← expectVector "insertelement" vector
  let value ← accept (operand.resolve element)
  insertElement vector value index

/-- Combine a value with a number of lanes, one after the other, from a lane on. -/
def foldLanes (operator : BinaryOperator) (lanes : Value) : Nat → Nat → Value → Build Value
  | 0, _, folded => return folded
  | remaining + 1, lane, folded => do
    let element ← extractElement lanes (.ofNat lane)
    let folded ← binary operator folded element
    foldLanes operator lanes remaining (lane + 1) folded

/-- Predicates that hold when operands differ hold of vectors that differ in some lane, all others
of vectors for which they hold in every lane. -/
def laneOperator (operator : CompareOperator) : BinaryOperator :=
  if operator.isInequality then .or else .and

/-- Compare two vectors and fold the lanes to one bit, in ascending order. -/
def compareVector (operator : CompareOperator) (lhs rhs : Operand) : Build Value := do
  let lanes ← compareOperands operator lhs rhs
  match lanes.ty with
  | .vector count _ =>
    let first ← extractElement lanes 0
    foldLanes (laneOperator operator) lanes (count.toNat - 1) 1 first
  | found => refuse (.notAVector "vector compare" found)

/-- Insert operands into consecutive lanes from a lane on. -/
def insertOperands (vector : Value) (lane : Nat) : List Operand → Build Value
  | [] => return vector
  | operand :: operands => do
    let vector ← insertOperand vector operand (.ofNat lane)
    insertOperands vector (lane + 1) operands

/-- Load a vector and insert operands into its lanes from the first on. -/
def fillVector (source : Value) (operands : List Operand) : Build Value := do
  let vector ← load source
  insertOperands vector 0 operands

/-- Return an operand; a literal takes the result type of the function. -/
def returnOperand (operand : Operand) : Build Unit := do
  let expected := (← function).signature.result
  let value ← accept (operand.resolve expected)
  expectTy "ret" expected value
  ret value

/-- The conversion from one type to another, different type on return: integers are zero-extended
or truncated, pointers convert to integers and back, pointers to pointers, and other types of the
same nonzero size are reinterpreted. -/
def returnCast (layout : DataLayout) (source target : Ty) : Except BuildError CastOperator :=
  match source, target with
  | .int sourceBits, .int targetBits => .ok (if sourceBits < targetBits then .zext else .trunc)
  | .ptr _, .int _ => .ok .ptrToInt
  | .int _, .ptr _ => .ok .intToPtr
  | .ptr _, .ptr _ => .ok .bitCast
  | _, _ =>
    if source.isPointer || target.isPointer then .error (.unsupportedCast "cast" source target)
    else if layout.sizeOf source = layout.sizeOf target ∧ 0 < layout.sizeOf target then .ok .bitCast
    else .error (.unsupportedCast "bitcast" source target)

/-- Return a value, converted to the result type of the function if it has another type. -/
def returnWithCast (value : Value) : Build Unit := do
  let target := (← function).signature.result
  if value.ty = target then ret value
  else
    let operator ← accept (returnCast (← layout) value.ty target)
    let converted ← cast operator target value
    ret converted

end IrAssembly.Build
