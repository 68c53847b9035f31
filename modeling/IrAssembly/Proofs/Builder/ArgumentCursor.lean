import IrAssembly.Proofs.Builder.ArgumentCopy
import Mathlib.Logic.Function.Basic

/-! A list of variable arguments in memory. The tag of the list is a cursor: it says where the next
argument is, in the register save area or in the overflow area, and a fetch moves it on. -/

namespace IrAssembly

namespace VaListField

/-- Where a field lies in the tag, in bytes. -/
def position : VaListField → Nat
  | gpOffset => 0
  | fpOffset => 4
  | overflowArea => 8
  | saveArea => 16

/-- The number of bytes of a field. -/
def size : VaListField → Nat
  | gpOffset | fpOffset => 4
  | overflowArea | saveArea => 8

theorem inside (field : VaListField) : field.position + field.size ≤ 24 := by
  cases field <;> decide

theorem apart {field other : VaListField} (differ : field ≠ other) :
    field.position + field.size ≤ other.position ∨
      other.position + other.size ≤ field.position := by
  cases field <;> cases other <;> first | exact absurd rfl differ | decide

end VaListField

/-- What the fields of a tag hold. -/
abbrev ArgumentCursor := VaListField → Nat

/-- The cursor with these fields, in the order of the tag. -/
def ArgumentCursor.of (general floating overflow saved : Nat) : ArgumentCursor
  | .gpOffset => general
  | .fpOffset => floating
  | .overflowArea => overflow
  | .saveArea => saved

namespace Memory

/-- The tag at an address holds a cursor. -/
def HoldsTag (memory : Memory) (tag : Nat) (cursor : ArgumentCursor) : Prop :=
  ∀ field, memory.read (tag + field.position) field.size = cursor field

variable {memory next : Memory} {tag : Nat} {cursor : ArgumentCursor}

theorem HoldsTag.lt (holds : memory.HoldsTag tag cursor) (field : VaListField) :
    cursor field < 256 ^ field.size :=
  holds field ▸ read_lt ..

theorem HoldsTag.congr (holds : memory.HoldsTag tag cursor)
    (same : ∀ place, tag ≤ place → place < tag + 24 → next place = memory place) :
    next.HoldsTag tag cursor := by
  intro field
  have inside := field.inside
  rw [← holds field]
  exact read_congr fun place start bound => same place (by omega) (by omega)

/-- A field is changed without the others. -/
theorem HoldsTag.write (holds : memory.HoldsTag tag cursor) {field : VaListField} {value : Nat}
    (fits : value < 256 ^ field.size) :
    (memory.write (tag + field.position) field.size value).HoldsTag tag
      (Function.update cursor field value) := by
  intro other
  by_cases same : other = field
  · rw [same, read_write_same, Nat.mod_eq_of_lt fits, Function.update_self]
  · have apart := VaListField.apart same
    rw [read_write_apart (by omega), Function.update_of_ne same, holds other]

end Memory

/-- From one machine to the other, memory in use was written in the tag alone. -/
structure Machine.Spares (tag : Nat) (machine next : Machine) : Prop where
  memory : ∀ place, place < machine.top → place < tag ∨ tag + 24 ≤ place →
    next.memory place = machine.memory place
  top : machine.top ≤ next.top

namespace Machine.Spares

variable {tag : Nat} {machine next later : Machine}

theorem of_agrees (agrees : machine.Agrees next) : machine.Spares tag next :=
  ⟨fun _ _ _ => by rw [agrees.memory], Nat.le_of_eq agrees.top.symm⟩

theorem trans (first : machine.Spares tag next) (second : next.Spares tag later) :
    machine.Spares tag later where
  memory := fun place used outside =>
    (second.memory place (Nat.lt_of_lt_of_le used first.top) outside).trans
      (first.memory place used outside)
  top := first.top.trans second.top

/-- A field was written. -/
theorem of_write (field : VaListField) {value : Nat}
    (memory : next.memory = machine.memory.write (tag + field.position) field.size value)
    (top : next.top = machine.top) : machine.Spares tag next where
  memory := by
    intro place _ outside
    have inside := field.inside
    rw [memory, Memory.write_apart (by omega)]
  top := Nat.le_of_eq top.symm

end Machine.Spares

/-! Addresses in the tag, and what is loaded from there -/

namespace DataLayout

theorem x86_64_elementAddress?_list {address : Nat} (bound : address < 2 ^ 64) :
    x86_64.elementAddress? .vaList address [0, 0] = some address := by
  have start : x86_64.memberOffset? .vaList [0] = some 0 := by decide +kernel
  have pointer : x86_64.pointerSize.toNat = 64 := rfl
  simp [elementAddress?, start, pointer, lowNumber_natCast bound]

theorem x86_64_elementAddress?_field (field : VaListField) {address : Nat}
    (bound : address + field.position < 2 ^ 64) :
    x86_64.elementAddress? .vaListTag address [0, field.index.toInt] =
      some (address + field.position) := by
  have member : x86_64.memberOffset? .vaListTag [field.index.toInt] = some field.position := by
    cases field <;> decide +kernel
  have pointer : x86_64.pointerSize.toNat = 64 := rfl
  have low := lowNumber_natCast bound
  push_cast at low
  simp [elementAddress?, member, pointer, low]

theorem x86_64_elementAddress?_byte (address : Nat) (count : Int) :
    x86_64.elementAddress? .i8 address [count] = some (lowNumber 64 (address + count)) := by
  have byte : x86_64.sizeOf .i8 = 1 := by decide +kernel
  have pointer : x86_64.pointerSize.toNat = 64 := rfl
  simp [elementAddress?, memberOffset?, byte, pointer]

theorem x86_64_storeSizeOf_field (field : VaListField) :
    x86_64.storeSizeOf field.ty = field.size := by
  cases field <;> rfl

end DataLayout

/-- Arguments that may be in registers can be loaded from anywhere. -/
theorem Memory.load?_of_ofTy? (memory : Memory) {layout : DataLayout} {ty : Ty}
    {registers : RegisterClass} (inRegisters : RegisterClass.ofTy? ty = some registers)
    (address : Nat) : ∃ datum, memory.load? layout ty address = some datum := by
  unfold RegisterClass.ofTy? at inRegisters
  split at inRegisters <;> first | exact ⟨_, rfl⟩ | cases inRegisters

theorem Memory.HoldsTag.load? {memory : Memory} {tag : Nat} {cursor : ArgumentCursor}
    (holds : memory.HoldsTag tag cursor) (field : VaListField) :
    memory.load? .x86_64 field.ty (tag + field.position) = some (.number (cursor field)) := by
  have bound := holds.lt field
  have content := holds field
  rw [← DataLayout.x86_64_storeSizeOf_field] at content
  cases field <;>
    exact congrArg (some ∘ Datum.number) ((congrArg (· % _) content).trans (Nat.mod_eq_of_lt bound))

/-- How far the copy of an argument moves the pointer to the overflow area: the size of the
argument, as a signed number of 32 bits. -/
def copyStep (layout : DataLayout) (ty : Ty) : Int := (layout.sizeOf ty : Int).bmod (2 ^ 32)

theorem signedNumber_ofNat (size : Nat) :
    signedNumber 32 (lowNumber 32 (Int64.ofNat size).toInt) = (size : Int).bmod (2 ^ 32) := by
  have nonneg : (0 : Int) ≤ (Int64.ofNat size).toInt % 2 ^ 32 := Int.emod_nonneg _ (by decide)
  have low : (lowNumber 32 (Int64.ofNat size).toInt : Int) = (Int64.ofNat size).toInt % 2 ^ 32 :=
    Int.toNat_of_nonneg nonneg
  have wide : (Int64.ofNat size).toInt = (size : Int).bmod (2 ^ 64) := Int64.toInt_ofNat
  rw [signedNumber, low, wide]
  have whole : ((2 : Int) ^ 32) = ((2 ^ 32 : Nat) : Int) := rfl
  rw [whole, Int.emod_bmod]
  exact Int.bmod_bmod_of_dvd (by decide)

theorem lowNumber_ofNat (size : Nat) : lowNumber 64 (Int64.ofNat size).toInt = size % 2 ^ 64 := by
  have wide : (Int64.ofNat size).toInt = (size : Int).bmod (2 ^ 64) := Int64.toInt_ofNat
  have low : (size : Int).bmod (2 ^ 64) % ((2 ^ 64 : Nat) : Int) = size % ((2 ^ 64 : Nat) : Int) :=
    Int.bmod_emod
  calc lowNumber 64 (Int64.ofNat size).toInt
      = ((size : Int).bmod (2 ^ 64) % ((2 ^ 64 : Nat) : Int)).toNat := by rw [wide]; rfl
    _ = lowNumber 64 size := by rw [low]; rfl
    _ = size % 2 ^ 64 := lowNumber_natCast_eq_mod 64 size

theorem Machine.value?_length (machine : Machine) (environment : Environment) (size : Nat) :
    machine.value? environment (.constant (.i64 (.ofNat size))) =
      some (.number (size % 2 ^ 64)) :=
  (value?_integer machine environment 64 (.ofNat size)).trans
    (congrArg (some ∘ Datum.number) (lowNumber_ofNat size))

theorem Machine.value?_constant32 (machine : Machine) (environment : Environment) (value : Int64) :
    machine.value? environment (Build.constant32 value) =
      some (.number (lowNumber 32 value.toInt)) :=
  value?_integer machine environment 32 value

namespace Builder.Tracks

variable {environment : Environment} {origin : RunState} {facts : List (Value × Datum)}
  {builder after : Builder} {machine : Machine} {list pointer value : Value} {tag : Nat}
  {cursor : ArgumentCursor} {field : VaListField}

theorem isPowerOfTwo_alignOf {state : RunState}
    (tracks : builder.Tracks environment origin state facts)
    (default : environment.layout = .x86_64) (ty : Ty) :
    (builder.layout.alignOf ty).isPowerOfTwo := by
  rw [tracks.layout, default]
  exact DataLayout.x86_64_power ty

theorem vaListTag (tracks : builder.Tracks environment origin (builder.here machine) facts)
    (points : builder.Points list [Build.constant32 0, Build.constant32 0] true .vaListTag value
      after)
    (layout : environment.layout = .x86_64) (isList : list.ty = .ptr .vaList)
    (place : machine.value? environment list = some (.number tag)) (bound : tag < 2 ^ 64) :
    after.Tracks environment origin (after.here (machine.set builder.nextId (.number tag)))
      ((value, .number tag) :: facts) := by
  refine tracks.elementPointer [(Build.constant32 0, 0), (Build.constant32 0, 0)] points isList
    place ?_ ?_
  · simp [Machine.value?_constant32, lowNumber]
  · rw [layout]
    exact DataLayout.x86_64_elementAddress?_list bound

theorem vaListField (tracks : builder.Tracks environment origin (builder.here machine) facts)
    (points : builder.Points pointer [Build.constant32 0, Build.constant32 field.index] true
      field.ty value after)
    (layout : environment.layout = .x86_64) (isTag : pointer.ty = .ptr .vaListTag)
    (place : machine.value? environment pointer = some (.number tag)) (bound : tag + 24 ≤ 2 ^ 64) :
    after.Tracks environment origin
      (after.here (machine.set builder.nextId (.number (tag + field.position))))
      ((value, .number (tag + field.position)) :: facts) := by
  refine tracks.elementPointer [(Build.constant32 0, 0),
    (Build.constant32 field.index, lowNumber 32 field.index.toInt)] points isTag place ?_ ?_
  · simp [Machine.value?_constant32, lowNumber]
  · have inside := field.inside
    have positive : 0 < field.size := by cases field <;> decide
    have below : tag + field.position < 2 ^ 64 := by omega
    have reached := DataLayout.x86_64_elementAddress?_field field below
    rw [layout]
    cases field <;> exact reached

theorem loadField (tracks : builder.Tracks environment origin (builder.here machine) facts)
    {align : UInt32} (loads : builder.Loads pointer align field.ty value after)
    (layout : environment.layout = .x86_64)
    (place : machine.value? environment pointer = some (.number (tag + field.position)))
    (holds : machine.memory.HoldsTag tag cursor) :
    after.Tracks environment origin
      (after.here (machine.set builder.nextId (.number (cursor field))))
      ((value, .number (cursor field)) :: facts) :=
  tracks.load loads place (layout ▸ holds.load? field)

theorem storeField (tracks : builder.Tracks environment origin (builder.here machine) facts)
    {align : UInt32} (stores : builder.Stores pointer value align after)
    (layout : environment.layout = .x86_64) (hasTy : value.ty = field.ty) {number : Nat}
    (place : machine.value? environment pointer = some (.number (tag + field.position)))
    (content : machine.value? environment value = some (.number number)) :
    after.Tracks environment origin (after.here { machine with
      memory := machine.memory.write (tag + field.position) field.size number }) facts := by
  have stored := tracks.store stores place content
  rwa [layout, hasTy, DataLayout.x86_64_storeSizeOf_field] at stored

/-- A number of bytes further on. -/
theorem bytes (tracks : builder.Tracks environment origin (builder.here machine) facts)
    {index : Value} {address number : Nat}
    (points : builder.Points pointer [index] false .i8 value after)
    (layout : environment.layout = .x86_64) (isBytes : pointer.ty = .ptr .i8)
    (place : machine.value? environment pointer = some (.number address))
    (content : machine.value? environment index = some (.number number)) :
    let target := lowNumber 64 (address + signedNumber index.ty.numberBits number)
    after.Tracks environment origin (after.here (machine.set builder.nextId (.number target)))
      ((value, .number target) :: facts) := by
  refine tracks.elementPointer [(index, number)] points isBytes place (by simpa using content) ?_
  rw [layout]
  exact DataLayout.x86_64_elementAddress?_byte ..

end Builder.Tracks

/-! How a fetch moves the cursor -/

namespace RegisterClass

/-- The last offset at which a register is left, and the offset from one register to the next. -/
def lastOffset (registers : RegisterClass) : Nat := registers.limit.toNatClampNeg
def stride (registers : RegisterClass) : Nat := registers.step.toNatClampNeg

variable {registers : RegisterClass} {ty : Ty}

theorem eq_of_ofTy? (inRegisters : ofTy? ty = some registers) :
    registers = general ∨ registers = floating := by
  unfold ofTy? at inRegisters
  split at inRegisters <;> cases inRegisters <;> simp

theorem size_of_ofTy? (inRegisters : ofTy? ty = some registers) : registers.offset.size = 4 := by
  rcases eq_of_ofTy? inRegisters with rfl | rfl <;> rfl

variable (machine : Machine) (environment : Environment)

theorem value?_limit (inRegisters : ofTy? ty = some registers) :
    machine.value? environment (Build.constant32 registers.limit) =
      some (.number registers.lastOffset) := by
  rcases eq_of_ofTy? inRegisters with rfl | rfl <;> rfl

theorem value?_step (inRegisters : ofTy? ty = some registers) :
    machine.value? environment (Build.constant32 registers.step) =
      some (.number registers.stride) := by
  rcases eq_of_ofTy? inRegisters with rfl | rfl <;> rfl

end RegisterClass

namespace ArgumentCursor

/-- A register of the class is left. -/
def Leaves (cursor : ArgumentCursor) (registers : RegisterClass) : Prop :=
  cursor registers.offset ≤ registers.lastOffset

instance (cursor : ArgumentCursor) (registers : RegisterClass) :
    Decidable (cursor.Leaves registers) :=
  inferInstanceAs (Decidable (_ ≤ _))

theorem Leaves.lt {cursor : ArgumentCursor} {registers : RegisterClass} {ty : Ty}
    (left : cursor.Leaves registers) (inRegisters : RegisterClass.ofTy? ty = some registers) :
    cursor registers.offset ≤ 160 := by
  refine Nat.le_trans left ?_
  rcases RegisterClass.eq_of_ofTy? inRegisters with rfl | rfl <;> decide

/-- Where the register is saved. -/
def registerSlot (cursor : ArgumentCursor) (registers : RegisterClass) : Nat :=
  (cursor .saveArea + cursor registers.offset) % 2 ^ 64

theorem registerSlot_eq (cursor : ArgumentCursor) {registers : RegisterClass} {ty : Ty}
    (inRegisters : RegisterClass.ofTy? ty = some registers) (left : cursor.Leaves registers) :
    lowNumber 64 (cursor .saveArea +
        signedNumber Ty.i32.numberBits (cursor registers.offset)) =
      cursor.registerSlot registers := by
  have bits : Ty.i32.numberBits = 32 := rfl
  have bound := left.lt inRegisters
  rw [bits, signedNumber_of_lt (by omega)]
  exact lowNumber_natCast_eq_mod 64 (cursor .saveArea + cursor registers.offset)

/-- The cursor behind an argument in a register. -/
def pastRegister (cursor : ArgumentCursor) (registers : RegisterClass) : ArgumentCursor :=
  Function.update cursor registers.offset
    ((cursor registers.offset + registers.stride) % 2 ^ 32)

/-- The cursor behind some bytes on the stack. -/
def pastStack (cursor : ArgumentCursor) (bytes : Int) : ArgumentCursor :=
  Function.update cursor .overflowArea (lowNumber 64 (cursor .overflowArea + bytes))

/-- Where an argument of the class is. -/
def argumentSlot (cursor : ArgumentCursor) (registers : RegisterClass) : Nat :=
  if cursor.Leaves registers then cursor.registerSlot registers else cursor .overflowArea

/-- The cursor behind an argument of the class. -/
def pastArgument (cursor : ArgumentCursor) (registers : RegisterClass) : ArgumentCursor :=
  if cursor.Leaves registers then cursor.pastRegister registers
  else cursor.pastStack stackSlotStep.toInt

end ArgumentCursor

end IrAssembly
