import IrAssembly.Builder.Error
import IrAssembly.Layout.Spec
import IrAssembly.Layout.Extent

/-!
The state of building one function: the function so far, the block being written, and the
counters that name unnamed results and parameters. Operands are registered before the instruction
that uses them is appended.
-/

namespace IrAssembly

structure Builder where
  function : FunctionDef
  layout : DataLayout
  /-- The block that new instructions are appended to. -/
  current : BlockRef
  /-- The number of the next unnamed result. -/
  counter : Nat
  /-- The number of the next parameter. -/
  argCounter : Nat
  /-- A name given in advance to the next result. -/
  nextName : Option String
  deriving DecidableEq, Repr

/-- A building step. A step that fails keeps what it had already changed. -/
abbrev Build := ExceptT Failure (StateM Builder)

/-- The stored form of a byte alignment: one more than its binary logarithm, zero for none. -/
def encodeAlignment (align : Nat) : Except Violation UInt32 :=
  if align = 0 then .ok 0
  else if 2 ^ align.log2 = align then .ok (.ofNat (align.log2 + 1))
  else .error (.alignment align)

namespace Builder

/-- Start to build a function at its first block, which is created if needed. -/
def start (layout : DataLayout) : Edit Builder := do
  Edit.reserveBlocks 1
  let function ← get
  return ⟨function, layout, (function.refAt? 0).getD ⟨0⟩, 1, 1, none⟩

end Builder

namespace Build

def refuse {α : Type} (error : BuildError) : Build α := throw (.refused error)

/-- Change the function being built. -/
def edit {α : Type} (change : Edit α) : Build α := do
  let builder ← get
  let (outcome, function) := change.run.run builder.function
  set { builder with function := function }
  match outcome with
  | .ok value => return value
  | .error violation => throw (.violated violation)

def function : Build FunctionDef := return (← get).function

def layout : Build DataLayout := return (← get).layout

/-- Encode an alignment, which has to be a power of two. -/
def encoded (align : Nat) : Build UInt32 :=
  match encodeAlignment align with
  | .ok encoded => return encoded
  | .error violation => throw (.violated violation)

/-- The encoded alignment that the layout asks for a type. -/
def layoutAlignment (ty : Ty) : Build UInt32 := do
  encoded ((← layout).alignOf ty)

/-- Register an operand. -/
def symbol (value : Value) : Build SymbolIndex := edit (.addSymbol value)

/-- Register several operands from left to right. -/
def symbols : List Value → Build (List SymbolIndex)
  | [] => return []
  | value :: values => do
    let first ← symbol value
    let others ← symbols values
    return first :: others

/-- The name of the next result: the one given in advance, else the next number. -/
def takeName : Build String := do
  let builder ← get
  match builder.nextName with
  | some name =>
    set { builder with nextName := none }
    return name
  | none =>
    set { builder with counter := builder.counter + 1 }
    return toString builder.counter

/-- Append an instruction without a result to the current block. -/
def emit (instruction : Instruction) : Build Unit := do
  let builder ← get
  let _ ← edit (.pushInstruction builder.current instruction)

/-- Append an instruction that produces a value of a type, and name its result. -/
def emitValue (ty : Ty) (instruction : ResultSlot → Instruction) : Build Value := do
  let name ← takeName
  let builder ← get
  let id ← edit (.pushInstruction builder.current (instruction ⟨name, ty⟩))
  return .result ⟨id, name, ty⟩

/-- The pointee of a pointer operand. -/
def expectPointer (operation : String) (value : Value) : Build Ty :=
  match value.ty with
  | .ptr pointee => return pointee
  | found => refuse (.notAPointer operation found)

/-- The element type of a vector operand. -/
def expectVector (operation : String) (value : Value) : Build Ty :=
  match value.ty with
  | .vector _ element => return element
  | found => refuse (.notAVector operation found)

/-- Refuse an operand of another type than the expected one. -/
def expectTy (operation : String) (expected : Ty) (value : Value) : Build Unit := do
  if value.ty ≠ expected then refuse (.typeMismatch operation expected value.ty)

/-- The common type of two operands. -/
def expectSameTy (operation : String) (lhs rhs : Value) : Build Ty := do
  expectTy operation lhs.ty rhs
  return lhs.ty

/-- Refuse an operand that is no integer. -/
def expectInteger (operation : String) (value : Value) : Build Unit := do
  if !value.ty.isInteger then refuse (.typeMismatch operation .i32 value.ty)

end Build

end IrAssembly
