import IrAssembly.Builder.Blocks

/-!
One operation for each kind of instruction. Every operation checks all of its operands before it
registers the first of them.
-/

namespace IrAssembly.Build

/-! Memory -/

/-- Allocate a number of elements on the stack. -/
def allocateArray (ty : Ty) (count : Value) : Build Value := do
  expectInteger "alloca" count
  let count ← symbol count
  let align ← layoutAlignment ty
  emitValue (.ptr ty) fun result => .allocate result ty count align

def allocate (ty : Ty) : Build Value := allocateArray ty (.constant (.i32 1))

/-- A plain load with the alignment of the pointee. -/
def load (source : Value) : Build Value := do
  let ty ← expectPointer "load" source
  let align ← layoutAlignment ty
  let source ← symbol source
  emitValue ty fun result => .load result source (.aligned align)

def atomicLoad (source : Value) (align : Nat) (volatile : Bool) (ordering : AtomicOrdering)
    (scope : SynchronizationScope) : Build Value := do
  let ty ← expectPointer "load" source
  let align ← encoded align
  let source ← symbol source
  emitValue ty fun result => .load result source ⟨align, volatile, ordering, scope⟩

def atomicStore (destination source : Value) (align : Nat) (volatile : Bool)
    (ordering : AtomicOrdering) (scope : SynchronizationScope) : Build Unit := do
  let pointee ← expectPointer "store" destination
  expectTy "store" pointee source
  let align ← encoded align
  let destination ← symbol destination
  let source ← symbol source
  emit (.store destination source ⟨align, volatile, ordering, scope⟩)

/-- A plain store with a byte alignment. -/
def store (destination source : Value) (align : Nat) : Build Unit :=
  atomicStore destination source align false .notAtomic .crossThread

/-! Arithmetic -/

def binaryWithFlags (flags : List BinaryFlag) (operator : BinaryOperator) (lhs rhs : Value) :
    Build Value := do
  let ty ← expectSameTy "binary operation" lhs rhs
  let lhs ← symbol lhs
  let rhs ← symbol rhs
  emitValue ty fun result => .binary result operator flags lhs rhs

def binary (operator : BinaryOperator) (lhs rhs : Value) : Build Value :=
  binaryWithFlags [] operator lhs rhs

/-- The type of a comparison: one bit, or one bit for each lane of a vector. -/
def compareTy : Ty → Ty
  | .vector len _ => .vector len .i1
  | _ => .i1

def compare (operator : CompareOperator) (lhs rhs : Value) : Build Value := do
  let ty ← expectSameTy "compare" lhs rhs
  let lhs ← symbol lhs
  let rhs ← symbol rhs
  emitValue (compareTy ty) fun result => .compare result operator lhs rhs

def cast (operator : CastOperator) (ty : Ty) (value : Value) : Build Value := do
  let value ← symbol value
  emitValue ty fun result => .cast result operator value

/-! Calls -/

/-- The signature of a call target. Functions are called directly; loaded values, parameters and
inline assembly are looked at below any number of pointer layers. Results of other instructions
and other constants cannot be called. -/
def calleeSignature (target : Value) : Build Signature := do
  let throughPointers : Build Signature :=
    let ty := target.ty.stripPointers
    match ty.signature? with
    | some signature => return signature
    | none => refuse (.unsupportedCallTarget ty)
  match target with
  | .function callee => return callee.signature
  | .result slot =>
    match (← function).instruction? slot.id with
    | some (.load ..) => throughPointers
    | _ => refuse (.unsupportedCallTarget target.ty)
  | .parameter _ | .constant (.inlineAsm _) => throughPointers
  | .constant _ => refuse (.unsupportedCallTarget target.ty)

/-- Refuse the first argument whose type is not that of its parameter. -/
def expectArguments : List Ty → List Value → Build Unit
  | param :: params, argument :: arguments => do
    expectTy "call" param argument
    expectArguments params arguments
  | _, _ => return ()

/-- Call a target; calls of functions that return nothing have no value. -/
def call (target : Value) (arguments : List Value) : Build (Option Value) := do
  let signature ← calleeSignature target
  let declared := signature.params.length
  if arguments.length < declared ∨ (!signature.vararg ∧ declared < arguments.length) then
    refuse (.argumentCount (target.name?.getD "<constant>") declared arguments.length)
  expectArguments signature.params arguments
  let target ← symbol target
  let arguments ← symbols arguments
  if signature.returnsVoid then
    emit (.voidCall target arguments)
    return none
  else
    let value ← emitValue signature.result fun result => .call result target arguments
    return some value

/-! Vectors and aggregates -/

/-- The operand for a lane number. -/
def laneIndex (index : UInt32) : Value := .constant (.i32 (.ofNat index.toNat))

def extractElement (vector : Value) (index : UInt32) : Build Value := do
  let ty ← expectVector "extractelement" vector
  let vector ← symbol vector
  let index ← symbol (laneIndex index)
  emitValue ty fun result => .extractElement result vector index

def insertElement (vector value : Value) (index : UInt32) : Build Value := do
  let ty := vector.ty
  let element ← expectVector "insertelement" vector
  expectTy "insertelement" element value
  let vector ← symbol vector
  let value ← symbol value
  let index ← symbol (laneIndex index)
  emitValue ty fun result => .insertElement result vector value index

/-- The type of the member of an array or structure at an index. -/
def aggregateMember (operation : String) (aggregate : Ty) (index : UInt64) : Build Ty :=
  match aggregate with
  | .array _ _ | .struct _ _ _ =>
    match aggregate.member? index.toNat with
    | some member => return member
    | none => refuse (.indexOutOfRange aggregate index)
  | found => refuse (.notAnAggregate operation found)

def extractValue (aggregate : Value) (index : UInt64) : Build Value := do
  let ty ← aggregateMember "extractvalue" aggregate.ty index
  let aggregate ← symbol aggregate
  emitValue ty fun result => .extractValue result aggregate index

def insertValue (aggregate value : Value) (index : UInt64) : Build Value := do
  let ty := aggregate.ty
  let member ← aggregateMember "insertvalue" ty index
  expectTy "insertvalue" member value
  let aggregate ← symbol aggregate
  let value ← symbol value
  emitValue ty fun result => .insertValue result aggregate value index

/-- One step of an address computation: into an element, through a pointer, or to the field that a
constant selects. Other types are passed through. -/
def stepInto (ty : Ty) (index : Value) : Except BuildError Ty :=
  match ty with
  | .vector _ element | .array _ element => .ok element
  | .ptr pointee => .ok pointee
  | .struct _ fields _ =>
    match index.asConstant?.bind Constant.asInteger? with
    | none => .error (.nonConstantStructIndex ty)
    | some field =>
      match if 0 ≤ field then fields[field.toInt.toNat]? else none with
      | some member => .ok member
      | none => .error (.indexOutOfRange ty field.toUInt64)
  | other => .ok other

/-- The type that an address computation reaches by a list of indices. -/
def walk : Ty → List Value → Except BuildError Ty
  | ty, [] => .ok ty
  | ty, index :: indices => do walk (← stepInto ty index) indices

/-- An address computation; its result is a pointer to the type that the walk reaches. -/
def elementPointer (base : Value) (indices : List Value) (inbounds : Bool) : Build Value := do
  let _ ← expectPointer "getelementptr" base
  match walk base.ty indices with
  | .error error => refuse error
  | .ok ty =>
    let base ← symbol base
    let indices ← symbols indices
    emitValue (.ptr ty) fun result => .elementPointer result base indices inbounds

/-- Conditions of a selection are one bit, or a vector of bits. -/
def isSelectCondition : Ty → Bool
  | .vector _ element => element = .i1
  | ty => ty = .i1

def select (condition onTrue onFalse : Value) : Build Value := do
  if !isSelectCondition condition.ty then refuse (.invalidCondition "select" condition.ty)
  let ty ← expectSameTy "select" onTrue onFalse
  let condition ← symbol condition
  let onTrue ← symbol onTrue
  let onFalse ← symbol onFalse
  emitValue ty fun result => .select result condition onTrue onFalse

/-- The number of lanes that a shuffle mask selects. -/
def maskLanes (mask : Value) : Build UInt32 :=
  match mask.ty with
  | .vector len (.int 32) => return len
  | found => refuse (.typeMismatch "shufflevector mask" (.vector 1 .i32) found)

/-- Shuffle two vectors of one type; the result has a lane for each element of the mask. -/
def shuffleVector (first second mask : Value) : Build Value := do
  let _ ← expectSameTy "shufflevector" first second
  let element ← expectVector "shufflevector" first
  let lanes ← maskLanes mask
  let first ← symbol first
  let second ← symbol second
  let mask ← symbol mask
  emitValue (.vector lanes element) fun result => .shuffleVector result first second mask

/-- Register the value of each pair and keep its block. -/
def edges : List (Value × BlockRef) → Build (List (SymbolIndex × BlockRef))
  | [] => return []
  | (value, block) :: pairs => do
    let index ← symbol value
    let others ← edges pairs
    return (index, block) :: others

/-- Refuse the first value of another type. -/
def expectAll (operation : String) (ty : Ty) : List (Value × BlockRef) → Build Unit
  | [] => return ()
  | (value, _) :: pairs => do
    expectTy operation ty value
    expectAll operation ty pairs

/-- A phi node with a value for each predecessor. -/
def phi (ty : Ty) (incoming : List (Value × BlockRef)) : Build Value := do
  expectAll "phi" ty incoming
  let incoming ← edges incoming
  emitValue ty fun result => .phi result incoming

/-! Terminators -/

def branch (target : BlockRef) : Build Unit := emit (.branch target)

def conditionalBranch (condition : Value) (onTrue onFalse : BlockRef) : Build Unit := do
  if condition.ty ≠ .i1 then refuse (.invalidCondition "br" condition.ty)
  let condition ← symbol condition
  emit (.conditionalBranch condition onTrue onFalse)

def indirectBranch (address : Value) (successors : List BlockRef) : Build Unit := do
  let _ ← expectPointer "indirectbr" address
  let address ← symbol address
  emit (.indirectBranch address successors)

def switch (condition : Value) (default : BlockRef) (cases : List (Value × BlockRef)) :
    Build Unit := do
  expectInteger "switch" condition
  expectAll "switch case" condition.ty cases
  let condition ← symbol condition
  let cases ← edges cases
  emit (.switch condition default cases)

/-- A switch in the old encoding, whose case values are plain numbers. -/
def literalSwitch (condition : Value) (default : BlockRef) (cases : List (Int64 × BlockRef)) :
    Build Unit := do
  expectInteger "switch" condition
  let condition ← symbol condition
  emit (.literalSwitch condition default cases)

def ret (value : Value) : Build Unit := do
  let value ← symbol value
  emit (.ret (some value))

def retVoid : Build Unit := emit (.ret none)

def unreachable : Build Unit := emit .unreachable

end IrAssembly.Build
