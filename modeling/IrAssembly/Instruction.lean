import IrAssembly.Operator
import IrAssembly.Value

/-!
Instructions. Operands are positions in the symbol table of the function, branch targets are
block handles.
-/

namespace IrAssembly

/-- Stable handle of a basic block: it names the same block wherever that block is moved to. -/
structure BlockRef where
  id : Nat
  deriving DecidableEq, Repr, Inhabited

def BlockRef.text (block : BlockRef) : String := "block#" ++ toString block.id

/-- Attributes shared by loads and stores. The alignment is kept encoded: one more than its binary
logarithm, zero when unspecified. -/
structure MemoryAccess where
  align : UInt32
  volatile : Bool
  ordering : AtomicOrdering
  scope : SynchronizationScope
  deriving DecidableEq, Repr

/-- A plain access with an encoded alignment. -/
def MemoryAccess.aligned (align : UInt32) : MemoryAccess := ⟨align, false, .notAtomic, .crossThread⟩

/-- The byte alignment that an encoded alignment stands for, a bit moved up in a 64-bit word. -/
def decodeAlignment (encoded : UInt32) : Option Nat :=
  if encoded = 0 then none else some ((1 : UInt64) <<< (encoded - 1).toUInt64).toNat

/-- Name and type of the value that an instruction produces. -/
structure ResultSlot where
  name : String
  ty : Ty
  deriving DecidableEq, Repr

inductive Instruction where
  /-- Stack allocation of `count` elements. -/
  | allocate (result : ResultSlot) (allocated : Ty) (count : SymbolIndex) (align : UInt32)
  | load (result : ResultSlot) (source : SymbolIndex) (access : MemoryAccess)
  | store (destination source : SymbolIndex) (access : MemoryAccess)
  | binary (result : ResultSlot) (operator : BinaryOperator) (flags : List BinaryFlag)
      (lhs rhs : SymbolIndex)
  | compare (result : ResultSlot) (operator : CompareOperator) (lhs rhs : SymbolIndex)
  | cast (result : ResultSlot) (operator : CastOperator) (value : SymbolIndex)
  | call (result : ResultSlot) (target : SymbolIndex) (arguments : List SymbolIndex)
  | voidCall (target : SymbolIndex) (arguments : List SymbolIndex)
  | branch (successor : BlockRef)
  | conditionalBranch (condition : SymbolIndex) (onTrue onFalse : BlockRef)
  /-- Branch to an address taken from a block. -/
  | indirectBranch (address : SymbolIndex) (successors : List BlockRef)
  | switch (condition : SymbolIndex) (default : BlockRef) (cases : List (SymbolIndex × BlockRef))
  /-- A switch in the old encoding, whose case values are plain numbers. -/
  | literalSwitch (condition : SymbolIndex) (default : BlockRef) (cases : List (Int64 × BlockRef))
  | phi (result : ResultSlot) (incoming : List (SymbolIndex × BlockRef))
  | elementPointer (result : ResultSlot) (base : SymbolIndex) (indices : List SymbolIndex)
      (inbounds : Bool)
  | extractElement (result : ResultSlot) (vector index : SymbolIndex)
  | insertElement (result : ResultSlot) (vector value index : SymbolIndex)
  /-- Read of an aggregate member; the index is a plain number. -/
  | extractValue (result : ResultSlot) (aggregate : SymbolIndex) (index : UInt64)
  | insertValue (result : ResultSlot) (aggregate value : SymbolIndex) (index : UInt64)
  | select (result : ResultSlot) (condition onTrue onFalse : SymbolIndex)
  | shuffleVector (result : ResultSlot) (first second mask : SymbolIndex)
  /-- Return, with or without a value. -/
  | ret (value : Option SymbolIndex)
  | unreachable
  deriving DecidableEq, Repr

namespace Instruction

/-- Name and type of the produced value, if the instruction produces one. -/
def result? : Instruction → Option ResultSlot
  | allocate result .. | load result .. | binary result .. | compare result .. | cast result ..
  | call result .. | phi result .. | elementPointer result .. | extractElement result ..
  | insertElement result .. | extractValue result .. | insertValue result .. | select result ..
  | shuffleVector result .. => some result
  | _ => none

/-- Replace the produced value's slot; instructions without a result stay as they are. -/
def mapResult (change : ResultSlot → ResultSlot) : Instruction → Instruction
  | allocate result allocated count align => allocate (change result) allocated count align
  | load result source access => load (change result) source access
  | binary result operator flags lhs rhs => binary (change result) operator flags lhs rhs
  | compare result operator lhs rhs => compare (change result) operator lhs rhs
  | cast result operator value => cast (change result) operator value
  | call result target arguments => call (change result) target arguments
  | phi result incoming => phi (change result) incoming
  | elementPointer result base indices inbounds =>
    elementPointer (change result) base indices inbounds
  | extractElement result vector index => extractElement (change result) vector index
  | insertElement result vector value index => insertElement (change result) vector value index
  | extractValue result aggregate index => extractValue (change result) aggregate index
  | insertValue result aggregate value index => insertValue (change result) aggregate value index
  | select result condition onTrue onFalse => select (change result) condition onTrue onFalse
  | shuffleVector result first second mask => shuffleVector (change result) first second mask
  | other => other

/-- Whether the instruction ends a block. -/
def isTerminator : Instruction → Bool
  | branch .. | conditionalBranch .. | indirectBranch .. | switch .. | literalSwitch .. | ret ..
  | unreachable => true
  | _ => false

/-- The blocks to which control may pass. -/
def successors : Instruction → List BlockRef
  | branch successor => [successor]
  | conditionalBranch _ onTrue onFalse => [onTrue, onFalse]
  | indirectBranch _ successors => successors
  | switch _ default cases => default :: cases.map Prod.snd
  | literalSwitch _ default cases => default :: cases.map Prod.snd
  | _ => []

def opcode : Instruction → String
  | allocate .. => "alloca"
  | load .. => "load"
  | store .. => "store"
  | binary _ operator .. => operator.text
  | compare _ operator .. => operator.opcode
  | cast _ operator _ => operator.text
  | call .. | voidCall .. => "call"
  | branch .. | conditionalBranch .. => "br"
  | indirectBranch .. => "indirectbr"
  | switch .. | literalSwitch .. => "switch"
  | phi .. => "phi"
  | elementPointer .. => "getelementptr"
  | extractElement .. => "extractelement"
  | insertElement .. => "insertelement"
  | extractValue .. => "extractvalue"
  | insertValue .. => "insertvalue"
  | select .. => "select"
  | shuffleVector .. => "shufflevector"
  | ret .. => "ret"
  | unreachable => "unreachable"

end Instruction

end IrAssembly
