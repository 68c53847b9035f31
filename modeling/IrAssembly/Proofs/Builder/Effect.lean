import IrAssembly.Builder.Basic
import IrAssembly.Proofs.Function.Typing
import Mathlib.Logic.Relation

/-! The effects that building has on its state. Whatever a building step does, failed or not, is a
sequence of these effects; what each of them preserves holds of every state that is reached. -/

namespace IrAssembly

namespace Builder

/-- The position of the current block. -/
def position (builder : Builder) : Nat := builder.function.indexOf builder.current

def register (builder : Builder) (values : List Value) : Builder :=
  { builder with function := builder.function.withSymbols values }

/-- The name of the next result. -/
def resultName (builder : Builder) : String := builder.nextName.getD (toString builder.counter)

/-- The state after the next result has taken its name. -/
def spendName (builder : Builder) : Builder :=
  match builder.nextName with
  | some _ => { builder with nextName := none }
  | none => { builder with counter := builder.counter + 1 }

def push (builder : Builder) (instruction : Instruction) : Builder :=
  { builder with function := (builder.function.push builder.current instruction).2 }

/-- Register the operands of an instruction and put it at the end of the current block. -/
def append (builder : Builder) (operands : List Value) (instruction : Instruction) : Builder :=
  let registered := builder.register operands
  (if instruction.result?.isSome then registered.spendName else registered).push instruction

def addParameter (builder : Builder) (ty : Ty) : Builder :=
  { builder with
    argCounter := builder.argCounter + 1
    function := (builder.function.withParameter ty ("arg_" ++ toString builder.argCounter)).2 }

def reserve (builder : Builder) (count : Nat) : Builder :=
  { builder with function := builder.function.reserve count }

def insertBlocks (builder : Builder) (count : Nat) : Builder :=
  { builder with function := (builder.function.splice (builder.position + 1) count).2 }

/-- Make the block at a position the current one, and label it unless it has a name. -/
def enter (builder : Builder) (position : Nat) : Builder :=
  let ref := (builder.function.refAt? position).getD ⟨0⟩
  let label := some ("label_" ++ toString position)
  { builder with
    current := ref
    function :=
      if ((builder.function.block? ref).bind Block.name).isNone then
        builder.function.nameBlock ref label
      else builder.function }

/-- Go on to the following block, which is created if needed. -/
def enterNext (builder : Builder) : Builder :=
  (builder.reserve (builder.position + 1 + 1)).enter (builder.position + 1)

/-- A value that the caller gave or that the function owns. -/
def Known (builder : Builder) (values : List Value) (value : Value) : Prop :=
  value ∈ values ∨ builder.function.Owns value

/-- A block that the caller gave or that the function has. -/
def Aims (builder : Builder) (blocks : List BlockRef) (ref : BlockRef) : Prop :=
  ref ∈ blocks ∨ builder.function.HasBlock ref

/-- A state in which building can go on: the function is open, its parts agree, and it has the
current block. -/
structure Ready (builder : Builder) : Prop where
  isOpen : builder.function.finished = false
  coherent : builder.function.Coherent
  current : builder.function.HasBlock builder.current

end Builder

/-- One effect of a step to which the caller gave some values, blocks and names. -/
inductive Effect (values : List Value) (blocks : List BlockRef) (names : List String)
    (builder : Builder) : Builder → Prop where
  /-- Operands without an instruction: what a broken alignment rule leaves of an allocation. -/
  | register (operands : List Value) (known : ∀ value ∈ operands, builder.Known values value) :
      Effect values blocks names builder (builder.register operands)
  | append (operands : List Value) (instruction : Instruction)
      (known : ∀ value ∈ operands, builder.Known values value)
      (aims : ∀ ref ∈ instruction.blocks, builder.Aims blocks ref)
      (consecutive : instruction.operands =
        List.range' builder.function.symbols.length operands.length)
      (named : ∀ slot, instruction.result? = some slot → slot.name = builder.resultName)
      (typed : (∀ value ∈ operands, builder.function.Owns value) →
        instruction.Typed (builder.function.withSymbols operands))
      (checked : instruction.Checked (builder.function.withSymbols operands)) :
      Effect values blocks names builder (builder.append operands instruction)
  | parameter (ty : Ty) : Effect values blocks names builder (builder.addParameter ty)
  | setName (name : String) (given : name ∈ names) :
      Effect values blocks names builder { builder with nextName := some name }
  | reserve (count : Nat) : Effect values blocks names builder (builder.reserve count)
  | insert (count : Nat) : Effect values blocks names builder (builder.insertBlocks count)
  | enter : Effect values blocks names builder builder.enterNext

/-- Any number of effects. -/
abbrev Effects (values : List Value) (blocks : List BlockRef) (names : List String) :
    Builder → Builder → Prop :=
  Relation.ReflTransGen (Effect values blocks names)

namespace Builder

variable {builder : Builder}

@[simp] theorem register_function (builder : Builder) (values : List Value) :
    (builder.register values).function = builder.function.withSymbols values := rfl

@[simp] theorem register_resultName (builder : Builder) (values : List Value) :
    (builder.register values).resultName = builder.resultName := rfl

@[simp] theorem register_current (builder : Builder) (values : List Value) :
    (builder.register values).current = builder.current := rfl

@[simp] theorem register_register (builder : Builder) (first second : List Value) :
    (builder.register first).register second = builder.register (first ++ second) := by
  simp [register, FunctionDef.withSymbols_withSymbols]

@[simp] theorem register_nil (builder : Builder) : builder.register [] = builder := by
  simp [register]

@[simp] theorem spendName_function (builder : Builder) :
    builder.spendName.function = builder.function := by
  unfold spendName
  split <;> rfl

@[simp] theorem spendName_current (builder : Builder) :
    builder.spendName.current = builder.current := by
  unfold spendName
  split <;> rfl

/-- The function that an appended instruction leaves, whatever its name. -/
theorem append_function (builder : Builder) (operands : List Value) (instruction : Instruction) :
    (builder.append operands instruction).function =
      ((builder.function.withSymbols operands).push builder.current instruction).2 := by
  simp only [append, push]
  split <;> simp

theorem append_instructions (builder : Builder) (operands : List Value)
    (instruction : Instruction) : (builder.append operands instruction).function.instructions =
      builder.function.instructions ++ [instruction] := by
  rw [append_function]
  rfl

theorem grows_append (builder : Builder) (operands : List Value) (instruction : Instruction) :
    builder.function.Grows (builder.append operands instruction).function := by
  rw [append_function]
  exact (FunctionDef.Grows.withSymbols ..).trans (.push ..)

theorem append_current (builder : Builder) (operands : List Value) (instruction : Instruction) :
    (builder.append operands instruction).current = builder.current := by
  simp only [append, push]
  split <;> simp

/-- Going on to another block enters nothing into the tables. -/
theorem enterNext_tables (builder : Builder) :
    builder.enterNext.function.parameters = builder.function.parameters ∧
      builder.enterNext.function.instructions = builder.function.instructions ∧
      builder.enterNext.function.symbols = builder.function.symbols := by
  simp only [enterNext, enter]
  split <;> exact ⟨rfl, rfl, rfl⟩

namespace Ready

theorem reserve (ready : builder.Ready) (count : Nat) : (builder.reserve count).Ready :=
  ⟨ready.isOpen, ready.coherent.reserve count,
    (FunctionDef.Grows.reserve ..).hasBlock ready.current⟩

theorem enter (ready : builder.Ready) {position : Nat}
    (bound : position < builder.function.order.length) : (builder.enter position).Ready := by
  have inArena := ready.coherent.placed bound
  simp only [Builder.enter]
  split
  · refine ⟨ready.isOpen, ready.coherent.nameBlock .., ?_⟩
    exact (FunctionDef.Grows.nameBlock ..).hasBlock inArena
  · exact ⟨ready.isOpen, ready.coherent, inArena⟩

theorem enterNext (ready : builder.Ready) : builder.enterNext.Ready :=
  (ready.reserve _).enter (FunctionDef.lt_length_order_reserve (Nat.lt_succ_self _))

end Ready

end Builder

namespace Effect

variable {values : List Value} {blocks : List BlockRef} {names : List String}
  {builder after : Builder}

theorem grows (effect : Effect values blocks names builder after) :
    builder.function.Grows after.function := by
  cases effect with
  | register operands known => exact .withSymbols ..
  | append operands instruction known aims consecutive named typed checked =>
    exact Builder.grows_append ..
  | parameter ty => exact .withParameter ..
  | setName name given => exact .refl _
  | reserve count => exact .reserve ..
  | insert count => exact .splice ..
  | enter =>
    refine (FunctionDef.Grows.reserve _ (builder.position + 1 + 1)).trans ?_
    simp only [Builder.enterNext, Builder.enter]
    split
    · exact .nameBlock ..
    · exact .refl _

theorem ready (effect : Effect values blocks names builder after) (ready : builder.Ready) :
    after.Ready := by
  have stays : after.function.HasBlock builder.current := effect.grows.hasBlock ready.current
  cases effect with
  | register operands known => exact ⟨ready.isOpen, ready.coherent.withSymbols .., stays⟩
  | append operands instruction known aims consecutive named typed checked =>
    refine ⟨?_, ?_, ?_⟩
    · rw [Builder.append_function]
      exact ready.isOpen
    · rw [Builder.append_function]
      exact (ready.coherent.withSymbols operands).push ready.current instruction
    · rw [Builder.append_current]
      exact stays
  | parameter ty => exact ⟨ready.isOpen, ready.coherent.withParameter .., stays⟩
  | setName name given => exact ⟨ready.isOpen, ready.coherent, stays⟩
  | reserve count => exact ready.reserve count
  | insert count => exact ⟨ready.isOpen, ready.coherent.splice .., stays⟩
  | enter => exact ready.enterNext

end Effect

end IrAssembly
