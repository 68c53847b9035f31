import IrAssembly.Intrinsic
import IrAssembly.Proofs.Constant.Wrapping
import IrAssembly.Proofs.Execution.Memory
import IrAssembly.Proofs.Function.Sequence
import Mathlib.Logic.Relation

/-! What the code of a function does when it is run. A machine has results, memory and a stack; it
steps through the instructions of a block and follows its branch into the next one. It knows the
instructions that patterns are made of, and stops at all others and where an operand is not what its
instruction takes. -/

namespace IrAssembly

/-- What is in the place of a value: a number, which integers, addresses and the bit patterns of
floating point numbers are alike, or a number for each lane. -/
inductive Datum where
  | number (value : Nat)
  | lanes (values : List Nat)
  deriving DecidableEq, Repr

namespace Datum

def bit (truth : Bool) : Datum := .number truth.toNat

def number? : Datum → Option Nat
  | number value => some value
  | lanes _ => none

def lanes? : Datum → Option (List Nat)
  | number _ => none
  | lanes values => some values

end Datum

/-- The low bits of an integer, as a number. -/
def lowNumber (bits : Nat) (value : Int) : Nat := (value % 2 ^ bits).toNat

theorem lowNumber_natCast_eq_mod (bits value : Nat) : lowNumber bits value = value % 2 ^ bits := by
  have same : (value : Int) % 2 ^ bits = (value % 2 ^ bits : Nat) := by push_cast; rfl
  rw [lowNumber, same, Int.toNat_natCast]

theorem lowNumber_natCast {bits value : Nat} (bound : value < 2 ^ bits) :
    lowNumber bits value = value := by
  rw [lowNumber_natCast_eq_mod, Nat.mod_eq_of_lt bound]

theorem lowNumber_lt (bits : Nat) (value : Int) : lowNumber bits value < 2 ^ bits := by
  have positive : (0 : Int) < 2 ^ bits := Int.pow_pos (by decide)
  have nonneg := Int.emod_nonneg value (Int.ne_of_gt positive)
  have bound := Int.emod_lt_of_pos value positive
  rw [lowNumber, Int.toNat_lt nonneg]
  exact_mod_cast bound

/-- The signed number that is congruent to a number has its low bits. -/
theorem lowNumber_bmod (bits : Nat) (value : Int) :
    lowNumber bits (value.bmod (2 ^ bits)) = lowNumber bits value := by
  have same := Int.bmod_emod (x := value) (m := 2 ^ bits)
  push_cast at same
  rw [lowNumber, lowNumber, same]

/-- A constant that is normalized to the width of its type keeps its low bits. -/
theorem lowNumber_signNormalize (value : Int64) (width : UInt32) :
    lowNumber width.toNat (signNormalize value width).toInt =
      lowNumber width.toNat value.toInt := by
  unfold signNormalize
  split
  · rfl
  · rename_i narrow
    rw [not_or, UInt32.not_le, UInt32.lt_iff_toNat_lt] at narrow
    have positive : 0 < width.toNat :=
      Nat.pos_of_ne_zero fun zero => narrow.1 (UInt32.toNat_inj.mp zero)
    rw [toInt_ofInt_bmod value.toInt positive (Nat.le_of_lt narrow.2), lowNumber_bmod]

/-- The low 64 bits of an integer have the low bits of the integer. -/
theorem lowNumber_lowBits {bits : Nat} (narrow : bits ≤ 64) (value : Int) :
    lowNumber bits (lowBits value).toInt = lowNumber bits value := by
  have divides : (2 ^ bits : Int) ∣ 2 ^ 64 := by
    exact_mod_cast Nat.pow_dvd_pow 2 narrow
  have same : value.bmod Int64.size % 2 ^ 64 = value % 2 ^ 64 := Int.bmod_emod
  rw [lowNumber, lowNumber, lowBits, Int64.toInt_ofInt, ← Int.emod_emod_of_dvd _ divides, same,
    Int.emod_emod_of_dvd _ divides]

/-- A number of some bits, read in two's complement. -/
def signedNumber (bits value : Nat) : Int := (value : Int).bmod (2 ^ bits)

theorem lowNumber_signedNumber {bits value : Nat} (bound : value < 2 ^ bits) :
    lowNumber bits (signedNumber bits value) = value := by
  rw [signedNumber, lowNumber_bmod, lowNumber_natCast bound]

theorem signedNumber_lowNumber (bits : Nat) (value : Int) :
    signedNumber bits (lowNumber bits value) = value.bmod (2 ^ bits) := by
  have positive : (0 : Int) < 2 ^ bits := Int.pow_pos (by decide)
  rw [signedNumber, lowNumber, Int.toNat_of_nonneg (Int.emod_nonneg _ (Int.ne_of_gt positive))]
  exact_mod_cast Int.emod_bmod value (2 ^ bits)

theorem signedNumber_of_lt {bits value : Nat} (small : value * 2 < 2 ^ bits) :
    signedNumber bits value = value :=
  Int.bmod_eq_of_le (by omega) (by omega)

namespace Ty

/-- The width of the numbers of a type; those of other types than integers are taken to be as wide
as an address. -/
def numberBits (ty : Ty) : Nat := ty.integerWidth?.elim 64 UInt32.toNat

/-- The type of the numbers that a value of a type is made of. -/
def lane : Ty → Ty
  | vector _ element => element
  | ty => ty

end Ty

/-- What a function is run under: the layout of its data, the contents of constants that are no
integers (addresses of globals among them), its arguments, and the comparison of floating point
numbers, given by their bit patterns. -/
structure Environment where
  layout : DataLayout
  constant : Constant → Option Datum
  argument : Nat → Option Datum
  compareReals : CompareOperator → Ty → Nat → Nat → Bool

structure Machine where
  memory : Memory
  /-- The results of the instructions that were executed. -/
  results : InstId → Option Datum
  /-- The end of the stack: memory from here on is free. -/
  top : Nat
  /-- The block from which the current one was entered. -/
  previous : BlockRef

/-- Whether a comparison of two numbers of a type holds. -/
def CompareOperator.holds (environment : Environment) (ty : Ty) (left right : Nat) :
    CompareOperator → Bool
  | intEqual => left == right
  | intNotEqual => left != right
  | intUnsignedGreaterThan => right < left
  | intUnsignedGreaterOrEqual => right ≤ left
  | intUnsignedLessThan => left < right
  | intUnsignedLessOrEqual => left ≤ right
  | intSignedGreaterThan => signedNumber ty.numberBits right < signedNumber ty.numberBits left
  | intSignedGreaterOrEqual => signedNumber ty.numberBits right ≤ signedNumber ty.numberBits left
  | intSignedLessThan => signedNumber ty.numberBits left < signedNumber ty.numberBits right
  | intSignedLessOrEqual => signedNumber ty.numberBits left ≤ signedNumber ty.numberBits right
  | other => environment.compareReals other ty left right

/-- What an operator makes of two numbers of some bits. Division may be undefined, and shifts and
floating point arithmetic have no part in patterns. -/
def BinaryOperator.combine? (bits left right : Nat) : BinaryOperator → Option Nat
  | add => some ((left + right) % 2 ^ bits)
  | and => some (left &&& right)
  | or => some (left ||| right)
  | xor => some (left ^^^ right)
  | _ => none

namespace DataLayout

/-- The bits of a scalar. -/
def scalarBits? (layout : DataLayout) : Ty → Option Nat
  | .int bits => some bits.toNat
  | .float kind => some kind.bitWidth
  | .ptr _ => some layout.pointerSize.toNat
  | _ => none

/-- How far behind the start of a type the member lies that indices lead to. -/
def memberOffset? (layout : DataLayout) : Ty → List Int → Option Int
  | _, [] => some 0
  | .array _ element, index :: indices | .vector _ element, index :: indices =>
    (layout.memberOffset? element indices).map fun offset => index * layout.sizeOf element + offset
  | .struct _ fields packed, index :: indices => do
    let position ← index.toNat?
    let field ← fields[position]?
    let start ← (layout.fieldOffsets fields packed)[position]?
    let offset ← layout.memberOffset? field indices
    return start + offset
  | _, _ :: _ => none

/-- The address that an address computation gives. The first index steps over whole pointees. -/
def elementAddress? (layout : DataLayout) (pointee : Ty) (address : Nat) : List Int → Option Nat
  | [] => none
  | index :: indices => do
    let offset ← layout.memberOffset? pointee indices
    return lowNumber layout.pointerSize.toNat (address + index * layout.sizeOf pointee + offset)

end DataLayout

/-- What a load of a type finds at an address. The lanes of a vector are packed. -/
def Memory.load? (memory : Memory) (layout : DataLayout) (ty : Ty) (address : Nat) :
    Option Datum :=
  let content := memory.read address (layout.storeSizeOf ty)
  match ty with
  | .vector len element => (layout.scalarBits? element).map fun bits =>
    .lanes ((List.range len.toNat).map fun lane => content / 2 ^ (lane * bits) % 2 ^ bits)
  | scalar => (layout.scalarBits? scalar).map fun bits => .number (content % 2 ^ bits)

namespace Machine

/-- The machine after an instruction that produces a value. -/
def set (machine : Machine) (id : InstId) (datum : Datum) : Machine :=
  { machine with results := fun other => if other = id then some datum else machine.results other }

/-- The contents of a value. -/
def value? (machine : Machine) (environment : Environment) : Value → Option Datum
  | .constant (.int ty value) => some (.number (lowNumber ty.numberBits value.toInt))
  | .constant other => environment.constant other
  | .result slot => machine.results slot.id
  | .parameter formal => environment.argument formal.index
  | .function _ => none

end Machine

namespace FunctionDef

variable (function : FunctionDef) (environment : Environment) (machine : Machine)

/-- The contents of an operand. -/
def datum? (index : SymbolIndex) : Option Datum :=
  (function.symbol? index).bind (machine.value? environment)

def number? (index : SymbolIndex) : Option Nat :=
  (function.datum? environment machine index).bind Datum.number?

def lanes? (index : SymbolIndex) : Option (List Nat) :=
  (function.datum? environment machine index).bind Datum.lanes?

/-- An operand of an address computation, as a signed number. -/
def signed? (index : SymbolIndex) : Option Int := do
  let value ← function.symbol? index
  let number ← function.number? environment machine index
  return signedNumber value.ty.numberBits number

/-- The result of a comparison: one bit, or one for each lane. -/
def compared? (operator : CompareOperator) (lhs rhs : SymbolIndex) : Option Datum := do
  let value ← function.symbol? lhs
  let holds := fun left right => operator.holds environment value.ty.lane left right
  match ← function.datum? environment machine lhs, ← function.datum? environment machine rhs with
  | .number left, .number right => some (.bit (holds left right))
  | .lanes lefts, .lanes rights =>
    some (.lanes (List.zipWith (fun left right => (holds left right).toNat) lefts rights))
  | _, _ => none

/-- The value of an instruction that produces one and changes nothing else. -/
def produced? : Instruction → Option Datum
  | .load result source _ => do
    machine.memory.load? environment.layout result.ty
      (← function.number? environment machine source)
  | .binary result operator _ lhs rhs => do
    let left ← function.number? environment machine lhs
    let right ← function.number? environment machine rhs
    (operator.combine? result.ty.numberBits left right).map .number
  | .compare _ operator lhs rhs => function.compared? environment machine operator lhs rhs
  | .cast result .bitCast value =>
    if result.ty.isPointer then function.datum? environment machine value else none
  | .elementPointer _ base indices _ => do
    let .ptr pointee ← (function.symbol? base).map Value.ty | none
    let address ← function.number? environment machine base
    let indices ← indices.mapM (function.signed? environment machine)
    (environment.layout.elementAddress? pointee address indices).map .number
  | .extractElement _ vector index => do
    let lanes ← function.lanes? environment machine vector
    lanes[← function.number? environment machine index]?.map .number
  | .insertElement _ vector value index => do
    let lanes ← function.lanes? environment machine vector
    let lane ← function.number? environment machine value
    let position ← function.number? environment machine index
    if position < lanes.length then some (.lanes (lanes.set position lane)) else none
  | .phi _ incoming => do
    let (index, _) ← incoming.find? fun edge => edge.2 = machine.previous
    function.datum? environment machine index
  | _ => none

/-- What an instruction makes of the machine, other than to go on to another block. -/
def execute? (id : InstId) : Instruction → Option Machine
  | .allocate _ allocated count align => do
    let number ← function.number? environment machine count
    let address := roundUp machine.top ((decodeAlignment align).getD 1)
    return { machine with top := address + number * environment.layout.sizeOf allocated }.set id
      (.number address)
  | .store destination source _ => do
    let address ← function.number? environment machine destination
    let value ← function.symbol? source
    let number ← function.number? environment machine source
    return { machine with
      memory := machine.memory.write address (environment.layout.storeSizeOf value.ty) number }
  | .voidCall target [destination, source, length, _, _] => do
    let callee ← function.symbol? target
    if callee = .function Intrinsic.memcpy.callable then
      let destination ← function.number? environment machine destination
      let source ← function.number? environment machine source
      let length ← function.number? environment machine length
      return { machine with memory := machine.memory.copy destination source length }
    else none
  | instruction => (function.produced? environment machine instruction).map (machine.set id)

/-- The block that a branch leads to. -/
def target? : Instruction → Option BlockRef
  | .branch target => some target
  | .conditionalBranch condition onTrue onFalse => do
    let bit ← function.number? environment machine condition
    return if bit = 0 then onFalse else onTrue
  | _ => none

end FunctionDef

/-- A machine at a place in the code. -/
structure RunState where
  block : BlockRef
  /-- The number of instructions of the block that are behind. -/
  offset : Nat
  machine : Machine

/-- One step of a run. -/
def FunctionDef.next? (function : FunctionDef) (environment : Environment) (state : RunState) :
    Option RunState := do
  let id ← (function.idsOf state.block)[state.offset]?
  let instruction ← function.instruction? id
  if instruction.isTerminator then
    let target ← function.target? environment state.machine instruction
    return ⟨target, 0, { state.machine with previous := state.block }⟩
  else
    let machine ← function.execute? environment state.machine id instruction
    return { state with offset := state.offset + 1, machine := machine }

/-- A run leads from one state to another. -/
abbrev FunctionDef.Reaches (function : FunctionDef) (environment : Environment) :
    RunState → RunState → Prop :=
  Relation.ReflTransGen fun state later => function.next? environment state = some later

end IrAssembly
