import IrAssembly.Builder.Convenience
import IrAssembly.Intrinsic

/-!
Variable arguments of the x86-64 System V convention. An argument list is an array of one tag; the
tag holds the offsets of the next general purpose and the next floating point register in the
register save area, a pointer to the overflow area on the stack, and a pointer to the save area.
-/

namespace IrAssembly

/-- `%struct.__va_list_tag = type { i32, i32, i8*, i8* }`. -/
def Ty.vaListTag : Ty :=
  .struct (some "struct.__va_list_tag") [.i32, .i32, .ptr .i8, .ptr .i8] false

/-- The type to allocate for an argument list. -/
def Ty.vaList : Ty := .array 1 .vaListTag

/-- Fields of the tag. -/
inductive VaListField where
  | gpOffset
  | fpOffset
  | overflowArea
  | saveArea
  deriving DecidableEq, Repr

def VaListField.index : VaListField → Int64
  | gpOffset => 0
  | fpOffset => 1
  | overflowArea => 2
  | saveArea => 3

/-- How a class of arguments is passed in registers: the field with the offset of its next
register, the largest offset at which a register is left, and the step to the next one. -/
structure RegisterClass where
  offset : VaListField
  limit : Int64
  step : Int64
  deriving DecidableEq, Repr

namespace RegisterClass

def general : RegisterClass := ⟨.gpOffset, 40, 8⟩

def floating : RegisterClass := ⟨.fpOffset, 160, 16⟩

/-- Integers and pointers use general registers. Floating point numbers use their own, but the
extended kind is passed in memory. Other types are not passed in registers. -/
def ofTy? : Ty → Option RegisterClass
  | .int _ | .ptr _ => some general
  | .float .x87 => none
  | .float _ => some floating
  | _ => none

end RegisterClass

/-- The bytes of a stack slot. -/
def stackSlotStep : Int64 := 8

/-- The alignment that copies of stack arguments are given. -/
def copyAlignment : Int64 := 4

namespace Build

def constant32 (value : Int64) : Value := .constant (.i32 value)

/-- The address of the tag of an argument list. -/
def vaListTag (list : Value) : Build Value :=
  elementPointer list [constant32 0, constant32 0] true

/-- The address of a field of a tag. -/
def vaListField (tag : Value) (field : VaListField) : Build Value :=
  elementPointer tag [constant32 0, constant32 field.index] true

def vaIntrinsic (intrinsic : Intrinsic) (list : Value) : Build Unit := do
  let tag ← vaListTag list
  let bytes ← cast .bitCast (.ptr .i8) tag
  let _ ← call (.function intrinsic.callable) [bytes]

def vaStart (list : Value) : Build Unit := vaIntrinsic .vaStart list

def vaEnd (list : Value) : Build Unit := vaIntrinsic .vaEnd list

/-- Fetch the next argument of a type. Three blocks are inserted after the current one: the
register path, the stack path and the join of the two, which becomes the current block. -/
def vaArg (list : Value) (ty : Ty) : Build Value := do
  let some registers := RegisterClass.ofTy? ty | refuse (.unsupportedVaArgType ty)
  let inserted ← insertBlocks 3
  let registerBlock := inserted.getD 0 ⟨0⟩
  let stackBlock := inserted.getD 1 ⟨0⟩
  let joinBlock := inserted.getD 2 ⟨0⟩
  -- is a register left?
  let tag ← vaListTag list
  let offsetPointer ← vaListField tag registers.offset
  let offset ← load offsetPointer
  let inRegisters ← compareOperands .intUnsignedLessOrEqual offset (Literal.int registers.limit)
  conditionalBranch inRegisters registerBlock stackBlock
  -- the address in the register save area
  let _ ← nextBlock
  let saveAreaPointer ← vaListField tag .saveArea
  let saveArea ← load saveAreaPointer
  let slot ← elementPointer saveArea [offset] false
  let registerAddress ← cast .bitCast (.ptr ty) slot
  let nextOffset ← binaryOperands .add offset (Literal.int registers.step)
  storeOperand offsetPointer nextOffset ((← layout).alignOf .i32)
  branch joinBlock
  -- the address in the overflow area
  let _ ← nextBlock
  let overflowPointer ← vaListField tag .overflowArea
  let overflow ← load overflowPointer
  let stackAddress ← cast .bitCast (.ptr ty) overflow
  let nextSlot ← elementPointer overflow [constant32 stackSlotStep] false
  storeOperand overflowPointer nextSlot ((← layout).alignOf nextSlot.ty)
  branch joinBlock
  let _ ← nextBlock
  let address ← phi (.ptr ty) [(registerAddress, registerBlock), (stackAddress, stackBlock)]
  load address

/-- Types whose arguments are always passed on the stack. -/
def isStackPassed : Ty → Bool
  | .array _ _ | .struct _ _ _ | .vector _ _ => true
  | _ => false

/-- Fetch an argument that is always passed on the stack: copy it out of the overflow area into a
new allocation and return the address of the copy. -/
def vaArgStackOnly (list : Value) (ty : Ty) : Build Value := do
  if !isStackPassed ty then refuse (.unsupportedVaArgType ty)
  let size : Int64 := .ofNat ((← layout).sizeOf ty)
  let tag ← vaListTag list
  let overflowPointer ← vaListField tag .overflowArea
  let overflow ← load overflowPointer
  let source ← cast .bitCast (.ptr ty) overflow
  let nextSlot ← elementPointer overflow [constant32 size] false
  storeOperand overflowPointer nextSlot ((← layout).alignOf (.ptr .i8))
  let copy ← allocate ty
  let copyBytes ← cast .bitCast (.ptr .i8) copy
  let sourceBytes ← cast .bitCast (.ptr .i8) source
  let _ ← call (.function Intrinsic.memcpy.callable)
    [copyBytes, sourceBytes, .constant (.i64 size), constant32 copyAlignment,
      .constant (.i1 false)]
  return copy

end Build

end IrAssembly
