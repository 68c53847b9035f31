import IrAssembly.Builder.VarArg

/-!
Builder operations as data. A function body is the result of running a list of them.
-/

namespace IrAssembly

inductive Operation where
  -- parameters and names
  | nextParameter
  | createParameter (ty : Ty)
  | argCounter
  | setNextName (name : String)
  -- blocks
  | currentBlock
  | nextBlock
  | getNextBlock
  | getBlock (index : Nat)
  | blockIndex (block : BlockRef)
  | insertBlocks (count : Nat)
  -- memory
  | allocate (ty : Ty)
  | allocateArray (ty : Ty) (count : Value)
  | load (source : Value)
  | atomicLoad (source : Value) (align : Nat) (volatile : Bool) (ordering : AtomicOrdering)
      (scope : SynchronizationScope)
  | store (destination source : Value) (align : Nat)
  | storeOperand (destination : Value) (operand : Operand) (align : Nat)
  | atomicStore (destination source : Value) (align : Nat) (volatile : Bool)
      (ordering : AtomicOrdering) (scope : SynchronizationScope)
  -- arithmetic
  | binary (operator : BinaryOperator) (lhs rhs : Value)
  | binaryWithFlags (flags : List BinaryFlag) (operator : BinaryOperator) (lhs rhs : Value)
  | binaryOperands (operator : BinaryOperator) (lhs rhs : Operand)
  | compare (operator : CompareOperator) (lhs rhs : Value)
  | compareOperands (operator : CompareOperator) (lhs rhs : Operand)
  | compareVector (operator : CompareOperator) (lhs rhs : Operand)
  | cast (operator : CastOperator) (ty : Ty) (value : Value)
  | call (target : Value) (arguments : List Value)
  -- vectors and aggregates
  | extractElement (vector : Value) (index : UInt32)
  | insertElement (vector value : Value) (index : UInt32)
  | insertOperand (vector : Value) (operand : Operand) (index : UInt32)
  | fillVector (source : Value) (operands : List Operand)
  | extractValue (aggregate : Value) (index : UInt64)
  | insertValue (aggregate value : Value) (index : UInt64)
  | elementPointer (base : Value) (indices : List Value) (inbounds : Bool)
  | select (condition onTrue onFalse : Value)
  | shuffleVector (first second mask : Value)
  | phi (ty : Ty) (incoming : List (Value × BlockRef))
  -- terminators
  | branch (target : BlockRef)
  | conditionalBranch (condition : Value) (onTrue onFalse : BlockRef)
  | indirectBranch (address : Value) (successors : List BlockRef)
  | switch (condition : Value) (default : BlockRef) (cases : List (Value × BlockRef))
  | literalSwitch (condition : Value) (default : BlockRef) (cases : List (Int64 × BlockRef))
  | ret (value : Value)
  | returnOperand (operand : Operand)
  | returnWithCast (value : Value)
  | retVoid
  | unreachable
  -- variable arguments
  | vaStart (list : Value)
  | vaEnd (list : Value)
  | vaArg (list : Value) (ty : Ty)
  | vaArgStackOnly (list : Value) (ty : Ty)
  deriving DecidableEq, Repr

/-- What an operation gives back. -/
inductive Answer where
  | nothing
  | value (value : Value)
  | block (block : BlockRef)
  | blocks (blocks : List BlockRef)
  | number (number : Nat)
  deriving DecidableEq, Repr

/-- The answer of a call: its value, unless the callee returns nothing. -/
def Answer.ofCall : Option Value → Answer
  | some result => .value result
  | none => .nothing

namespace Operation

/-- Carry out an operation in the current state. -/
def run : Operation → Build Answer
  | nextParameter => .value <$> Build.nextParameter
  | createParameter ty => .value <$> Build.createParameter ty
  | argCounter => return .number (← get).argCounter
  | setNextName name => do Build.setNextName name; return .nothing
  | currentBlock => .block <$> Build.currentBlock
  | nextBlock => .block <$> Build.nextBlock
  | getNextBlock => .block <$> Build.getNextBlock
  | getBlock index => .block <$> Build.getBlock index
  | blockIndex block => .number <$> Build.blockIndex block
  | insertBlocks count => .blocks <$> Build.insertBlocks count
  | allocate ty => .value <$> Build.allocate ty
  | allocateArray ty count => .value <$> Build.allocateArray ty count
  | load source => .value <$> Build.load source
  | atomicLoad source align volatile ordering scope =>
    .value <$> Build.atomicLoad source align volatile ordering scope
  | store destination source align => do
    Build.store destination source align
    return .nothing
  | storeOperand destination operand align => do
    Build.storeOperand destination operand align
    return .nothing
  | atomicStore destination source align volatile ordering scope => do
    Build.atomicStore destination source align volatile ordering scope
    return .nothing
  | binary operator lhs rhs => .value <$> Build.binary operator lhs rhs
  | binaryWithFlags flags operator lhs rhs =>
    .value <$> Build.binaryWithFlags flags operator lhs rhs
  | binaryOperands operator lhs rhs => .value <$> Build.binaryOperands operator lhs rhs
  | compare operator lhs rhs => .value <$> Build.compare operator lhs rhs
  | compareOperands operator lhs rhs => .value <$> Build.compareOperands operator lhs rhs
  | compareVector operator lhs rhs => .value <$> Build.compareVector operator lhs rhs
  | cast operator ty value => .value <$> Build.cast operator ty value
  | call target arguments => .ofCall <$> Build.call target arguments
  | extractElement vector index => .value <$> Build.extractElement vector index
  | insertElement vector value index => .value <$> Build.insertElement vector value index
  | insertOperand vector operand index => .value <$> Build.insertOperand vector operand index
  | fillVector source operands => .value <$> Build.fillVector source operands
  | extractValue aggregate index => .value <$> Build.extractValue aggregate index
  | insertValue aggregate value index => .value <$> Build.insertValue aggregate value index
  | elementPointer base indices inbounds => .value <$> Build.elementPointer base indices inbounds
  | select condition onTrue onFalse => .value <$> Build.select condition onTrue onFalse
  | shuffleVector first second mask => .value <$> Build.shuffleVector first second mask
  | phi ty incoming => .value <$> Build.phi ty incoming
  | branch target => do Build.branch target; return .nothing
  | conditionalBranch condition onTrue onFalse => do
    Build.conditionalBranch condition onTrue onFalse
    return .nothing
  | indirectBranch address successors => do
    Build.indirectBranch address successors
    return .nothing
  | switch condition default cases => do
    Build.switch condition default cases
    return .nothing
  | literalSwitch condition default cases => do
    Build.literalSwitch condition default cases
    return .nothing
  | ret value => do Build.ret value; return .nothing
  | returnOperand operand => do Build.returnOperand operand; return .nothing
  | returnWithCast value => do Build.returnWithCast value; return .nothing
  | retVoid => do Build.retVoid; return .nothing
  | unreachable => do Build.unreachable; return .nothing
  | vaStart list => do Build.vaStart list; return .nothing
  | vaEnd list => do Build.vaEnd list; return .nothing
  | vaArg list ty => .value <$> Build.vaArg list ty
  | vaArgStackOnly list ty => .value <$> Build.vaArgStackOnly list ty

/-- Carry out an operation, failed or not, and keep the state it leaves. -/
def step (operation : Operation) (builder : Builder) : Except Failure Answer × Builder :=
  operation.run.run builder

end Operation

end IrAssembly
