import IrAssembly.Builder.Operation
import IrAssembly.Proofs.Builder.Effect

/-! Straight-line building steps: they look at the function, register operands, append instructions
and make parameters, and at most go on to the next block. Every operation that does not concern the
block order is one, whatever it is given and however it ends. -/

namespace IrAssembly

namespace Build

/-- A step that is put together from the primitive ones. It reads one layout, encodes alignments of
that layout and the given ones, leaves the current block only if it moves, and makes parameters only
if it may. Where it looks at the state, it goes on the same if blocks were inserted before. -/
inductive Straight (layout : DataLayout) (given : List Nat) (moves makes : Bool) :
    {α : Type} → Build α → Prop where
  | done {α : Type} (value : α) : Straight layout given moves makes (pure value)
  | refuse {α : Type} (error : BuildError) :
      Straight layout given moves makes (Build.refuse error : Build α)
  | look {α : Type} {next : Builder → Build α}
      (blind : ∀ builder count, next (builder.insertBlocks count) = next builder)
      (rest : ∀ builder, Straight layout given moves makes (next builder)) :
      Straight layout given moves makes (get >>= next)
  | byLayout {α : Type} {next : DataLayout → Build α}
      (rest : Straight layout given moves makes (next layout)) :
      Straight layout given moves makes (Build.layout >>= next)
  | encoded {align : Nat} (asked : align ∈ given ∨ ∃ ty, align = layout.alignOf ty) :
      Straight layout given moves makes (Build.encoded align)
  | symbol (value : Value) : Straight layout given moves makes (Build.symbol value)
  | emit (instruction : Instruction) : Straight layout given moves makes (Build.emit instruction)
  | emitValue (ty : Ty) (instruction : ResultSlot → Instruction) :
      Straight layout given moves makes (Build.emitValue ty instruction)
  | createParameter (allowed : makes = true) (ty : Ty) :
      Straight layout given moves makes (Build.createParameter ty)
  | setNextName (name : String) : Straight layout given moves makes (Build.setNextName name)
  | nextBlock (allowed : moves = true) : Straight layout given moves makes Build.nextBlock
  | bind {α β : Type} {step : Build β} {next : β → Build α}
      (first : Straight layout given moves makes step)
      (rest : ∀ value, Straight layout given moves makes (next value)) :
      Straight layout given moves makes (step >>= next)

variable {α β : Type} {layout : DataLayout} {given : List Nat} {moves makes : Bool} {step : Build α}

namespace Straight

theorem map (straight : Straight layout given moves makes step) (change : α → β) :
    Straight layout given moves makes (change <$> step) := by
  rw [← bind_pure_comp]
  exact straight.bind fun value => .done (change value)

theorem accept {outcome : Except BuildError α} :
    Straight layout given moves makes (Build.accept outcome) := by
  cases outcome with
  | ok value => exact .done value
  | error error => exact .refuse error

theorem layoutAlignment {ty : Ty} : Straight layout given moves makes (Build.layoutAlignment ty) :=
  .byLayout (.encoded (.inr ⟨ty, rfl⟩))

/-- The signature, the instructions and the other tables are seen, the blocks are not. -/
theorem lookInto {next : FunctionDef → Build α}
    (blind : ∀ (function : FunctionDef) (position count : Nat),
      next (function.splice position count).2 = next function)
    (rest : ∀ function, Straight layout given moves makes (next function)) :
    Straight layout given moves makes (Build.function >>= next) :=
  .look (fun _ _ => blind ..) fun builder => rest builder.function

theorem symbols {values : List Value} :
    Straight layout given moves makes (Build.symbols values) := by
  induction values with
  | nil => exact .done []
  | cons value values ih => exact .bind (.symbol value) fun _ => .bind ih fun _ => .done _

theorem edges {pairs : List (Value × BlockRef)} :
    Straight layout given moves makes (Build.edges pairs) := by
  induction pairs with
  | nil => exact .done []
  | cons pair pairs ih => exact .bind (.symbol pair.1) fun _ => .bind ih fun _ => .done _

/-! Checks -/

theorem expectPointer {operation : String} {value : Value} :
    Straight layout given moves makes (Build.expectPointer operation value) := by
  unfold Build.expectPointer
  split
  · exact .done _
  · exact .refuse _

theorem expectVector {operation : String} {value : Value} :
    Straight layout given moves makes (Build.expectVector operation value) := by
  unfold Build.expectVector
  split
  · exact .done _
  · exact .refuse _

theorem expectTy {operation : String} {expected : Ty} {value : Value} :
    Straight layout given moves makes (Build.expectTy operation expected value) := by
  unfold Build.expectTy
  split
  · exact .refuse _
  · exact .done _

theorem expectSameTy {operation : String} {lhs rhs : Value} :
    Straight layout given moves makes (Build.expectSameTy operation lhs rhs) :=
  .bind .expectTy fun _ => .done _

theorem expectInteger {operation : String} {value : Value} :
    Straight layout given moves makes (Build.expectInteger operation value) := by
  unfold Build.expectInteger
  split
  · exact .refuse _
  · exact .done _

theorem expectArguments {params : List Ty} {arguments : List Value} :
    Straight layout given moves makes (Build.expectArguments params arguments) := by
  induction params generalizing arguments with
  | nil => exact .done ()
  | cons param params ih =>
    cases arguments with
    | nil => exact .done ()
    | cons argument arguments => exact .bind .expectTy fun _ => ih

theorem expectAll {operation : String} {ty : Ty} {pairs : List (Value × BlockRef)} :
    Straight layout given moves makes (Build.expectAll operation ty pairs) := by
  induction pairs with
  | nil => exact .done ()
  | cons pair pairs ih => exact .bind .expectTy fun _ => ih

theorem calleeSignature {target : Value} :
    Straight layout given moves makes (Build.calleeSignature target) := by
  unfold Build.calleeSignature
  extract_lets ty throughPointers
  have below : Straight layout given moves makes throughPointers := by
    dsimp only [throughPointers]
    split
    · exact .done _
    · exact .refuse _
  cases target with
  | function callee => exact .done callee.signature
  | parameter formal => exact below
  | constant known =>
    cases known with
    | inlineAsm assembly => exact below
    | _ => exact .refuse _
  | result slot =>
    refine .lookInto (fun _ _ _ => rfl) fun function => ?_
    split
    · exact below
    · exact .refuse _

theorem aggregateMember {operation : String} {aggregate : Ty} {index : UInt64} :
    Straight layout given moves makes (Build.aggregateMember operation aggregate index) := by
  unfold Build.aggregateMember
  split
  · split
    · exact .done _
    · exact .refuse _
  · split
    · exact .done _
    · exact .refuse _
  · exact .refuse _

theorem maskLanes {mask : Value} : Straight layout given moves makes (Build.maskLanes mask) := by
  unfold Build.maskLanes
  split
  · exact .done _
  · exact .refuse _

/-! Memory -/

theorem allocateArray {ty : Ty} {count : Value} :
    Straight layout given moves makes (Build.allocateArray ty count) :=
  .bind .expectInteger fun _ => .bind (.symbol count) fun _ => .bind .layoutAlignment fun _ =>
    .emitValue ..

theorem load {source : Value} : Straight layout given moves makes (Build.load source) :=
  .bind .expectPointer fun _ => .bind .layoutAlignment fun _ => .bind (.symbol source) fun _ =>
    .emitValue ..

theorem atomicLoad {source : Value} {align : Nat} {volatile : Bool} {ordering : AtomicOrdering}
    {scope : SynchronizationScope} (asked : align ∈ given ∨ ∃ ty, align = layout.alignOf ty) :
    Straight layout given moves makes (Build.atomicLoad source align volatile ordering scope) :=
  .bind .expectPointer fun _ => .bind (.encoded asked) fun _ => .bind (.symbol source) fun _ =>
    .emitValue ..

theorem atomicStore {destination source : Value} {align : Nat} {volatile : Bool}
    {ordering : AtomicOrdering} {scope : SynchronizationScope}
    (asked : align ∈ given ∨ ∃ ty, align = layout.alignOf ty) :
    Straight layout given moves makes
      (Build.atomicStore destination source align volatile ordering scope) :=
  .bind .expectPointer fun _ => .bind .expectTy fun _ => .bind (.encoded asked) fun _ =>
    .bind (.symbol destination) fun _ => .bind (.symbol source) fun _ => .emit _

theorem storeOperand {destination : Value} {operand : Operand} {align : Nat}
    (asked : align ∈ given ∨ ∃ ty, align = layout.alignOf ty) :
    Straight layout given moves makes (Build.storeOperand destination operand align) :=
  .bind .expectPointer fun _ => .bind .accept fun _ => .atomicStore asked

/-! Arithmetic and calls -/

theorem binaryWithFlags {flags : List BinaryFlag} {operator : BinaryOperator} {lhs rhs : Value} :
    Straight layout given moves makes (Build.binaryWithFlags flags operator lhs rhs) :=
  .bind .expectSameTy fun _ => .bind (.symbol lhs) fun _ => .bind (.symbol rhs) fun _ =>
    .emitValue ..

theorem binaryOperands {operator : BinaryOperator} {lhs rhs : Operand} :
    Straight layout given moves makes (Build.binaryOperands operator lhs rhs) :=
  .bind .accept fun _ => .binaryWithFlags

theorem compare {operator : CompareOperator} {lhs rhs : Value} :
    Straight layout given moves makes (Build.compare operator lhs rhs) :=
  .bind .expectSameTy fun _ => .bind (.symbol lhs) fun _ => .bind (.symbol rhs) fun _ =>
    .emitValue ..

theorem compareOperands {operator : CompareOperator} {lhs rhs : Operand} :
    Straight layout given moves makes (Build.compareOperands operator lhs rhs) :=
  .bind .accept fun _ => .compare

theorem cast {operator : CastOperator} {ty : Ty} {value : Value} :
    Straight layout given moves makes (Build.cast operator ty value) :=
  .bind (.symbol value) fun _ => .emitValue ..

theorem call {target : Value} {arguments : List Value} :
    Straight layout given moves makes (Build.call target arguments) := by
  refine .bind .calleeSignature fun signature => ?_
  dsimp only
  split
  · exact .refuse _
  · refine .bind .expectArguments fun _ => .bind (.symbol target) fun _ => ?_
    refine .bind .symbols fun _ => ?_
    split
    · exact .bind (.emit _) fun _ => .done none
    · exact .bind (.emitValue ..) fun value => .done (some value)

/-! Vectors and aggregates -/

theorem extractElement {vector : Value} {index : UInt32} :
    Straight layout given moves makes (Build.extractElement vector index) :=
  .bind .expectVector fun _ => .bind (.symbol vector) fun _ => .bind (.symbol _) fun _ =>
    .emitValue ..

theorem insertElement {vector value : Value} {index : UInt32} :
    Straight layout given moves makes (Build.insertElement vector value index) :=
  .bind .expectVector fun _ => .bind .expectTy fun _ => .bind (.symbol vector) fun _ =>
    .bind (.symbol value) fun _ => .bind (.symbol _) fun _ => .emitValue ..

theorem insertOperand {vector : Value} {operand : Operand} {index : UInt32} :
    Straight layout given moves makes (Build.insertOperand vector operand index) :=
  .bind .expectVector fun _ => .bind .accept fun _ => .insertElement

theorem extractValue {aggregate : Value} {index : UInt64} :
    Straight layout given moves makes (Build.extractValue aggregate index) :=
  .bind .aggregateMember fun _ => .bind (.symbol aggregate) fun _ => .emitValue ..

theorem insertValue {aggregate value : Value} {index : UInt64} :
    Straight layout given moves makes (Build.insertValue aggregate value index) :=
  .bind .aggregateMember fun _ => .bind .expectTy fun _ => .bind (.symbol aggregate) fun _ =>
    .bind (.symbol value) fun _ => .emitValue ..

theorem elementPointer {base : Value} {indices : List Value} {inbounds : Bool} :
    Straight layout given moves makes (Build.elementPointer base indices inbounds) := by
  refine .bind .expectPointer fun _ => ?_
  split
  · exact .refuse _
  · exact .bind (.symbol base) fun _ => .bind .symbols fun _ => .emitValue ..

theorem select {condition onTrue onFalse : Value} :
    Straight layout given moves makes (Build.select condition onTrue onFalse) := by
  unfold Build.select
  split
  · exact .refuse _
  · exact .bind .expectSameTy fun _ => .bind (.symbol condition) fun _ =>
      .bind (.symbol onTrue) fun _ => .bind (.symbol onFalse) fun _ => .emitValue ..

theorem shuffleVector {first second mask : Value} :
    Straight layout given moves makes (Build.shuffleVector first second mask) :=
  .bind .expectSameTy fun _ => .bind .expectVector fun _ => .bind .maskLanes fun _ =>
    .bind (.symbol first) fun _ => .bind (.symbol second) fun _ => .bind (.symbol mask) fun _ =>
      .emitValue ..

theorem phi {ty : Ty} {incoming : List (Value × BlockRef)} :
    Straight layout given moves makes (Build.phi ty incoming) :=
  .bind .expectAll fun _ => .bind .edges fun _ => .emitValue ..

/-! Terminators -/

theorem conditionalBranch {condition : Value} {onTrue onFalse : BlockRef} :
    Straight layout given moves makes (Build.conditionalBranch condition onTrue onFalse) := by
  unfold Build.conditionalBranch
  split
  · exact .refuse _
  · exact .bind (.symbol condition) fun _ => .emit _

theorem indirectBranch {address : Value} {successors : List BlockRef} :
    Straight layout given moves makes (Build.indirectBranch address successors) :=
  .bind .expectPointer fun _ => .bind (.symbol address) fun _ => .emit _

theorem switch {condition : Value} {otherwise : BlockRef} {cases : List (Value × BlockRef)} :
    Straight layout given moves makes (Build.switch condition otherwise cases) :=
  .bind .expectInteger fun _ => .bind .expectAll fun _ => .bind (.symbol condition) fun _ =>
    .bind .edges fun _ => .emit _

theorem literalSwitch {condition : Value} {otherwise : BlockRef}
    {cases : List (Int64 × BlockRef)} :
    Straight layout given moves makes (Build.literalSwitch condition otherwise cases) :=
  .bind .expectInteger fun _ => .bind (.symbol condition) fun _ => .emit _

theorem ret {value : Value} : Straight layout given moves makes (Build.ret value) :=
  .bind (.symbol value) fun _ => .emit _

theorem returnOperand {operand : Operand} :
    Straight layout given moves makes (Build.returnOperand operand) :=
  .lookInto (fun _ _ _ => rfl) fun _ => .bind .accept fun _ => .bind .expectTy fun _ => .ret

theorem currentBlock : Straight layout given moves makes Build.currentBlock :=
  .look (fun _ _ => rfl) fun builder => .done builder.current

/-! Patterns -/

theorem nextParameter (allowed : makes = true) :
    Straight layout given moves makes Build.nextParameter := by
  refine .look (fun _ _ => rfl) fun builder => ?_
  dsimp only
  split
  · exact .createParameter allowed _
  · exact .refuse _

theorem returnWithCast {value : Value} :
    Straight layout given moves makes (Build.returnWithCast value) := by
  refine .lookInto (fun _ _ _ => rfl) fun function => ?_
  dsimp only
  split
  · exact .ret
  · exact .byLayout (.bind .accept fun _ => .bind .cast fun _ => .ret)

theorem foldLanes {operator : BinaryOperator} {lanes folded : Value} {remaining lane : Nat} :
    Straight layout given moves makes (Build.foldLanes operator lanes remaining lane folded) := by
  induction remaining generalizing folded lane with
  | zero => exact .done folded
  | succ remaining ih => exact .bind .extractElement fun _ => .bind .binaryWithFlags fun _ => ih

theorem compareVector {operator : CompareOperator} {lhs rhs : Operand} :
    Straight layout given moves makes (Build.compareVector operator lhs rhs) := by
  refine .bind .compareOperands fun lanes => ?_
  split
  · exact .bind .extractElement fun _ => .foldLanes
  · exact .refuse _

theorem insertOperands {vector : Value} {lane : Nat} {operands : List Operand} :
    Straight layout given moves makes (Build.insertOperands vector lane operands) := by
  induction operands generalizing vector lane with
  | nil => exact .done vector
  | cons operand operands ih => exact .bind .insertOperand fun _ => ih

theorem fillVector {source : Value} {operands : List Operand} :
    Straight layout given moves makes (Build.fillVector source operands) :=
  .bind .load fun _ => .insertOperands

/-! Variable arguments -/

theorem vaIntrinsic {intrinsic : Intrinsic} {list : Value} :
    Straight layout given moves makes (Build.vaIntrinsic intrinsic list) :=
  .bind .elementPointer fun _ => .bind .cast fun _ => .bind .call fun _ => .done ()

/-- An argument that is always on the stack is fetched by straight-line steps behind the one that
finds the tag of the list. -/
theorem exists_vaArgStackOnly {ty : Ty} (onStack : isStackPassed ty = true) (list : Value) :
    ∃ rest : DataLayout → Value → Build Value,
      Build.vaArgStackOnly list ty =
        Build.layout >>= (fun layout => vaListTag list >>= rest layout) ∧
      ∀ tag, Straight layout given moves makes (rest layout tag) := by
  unfold Build.vaArgStackOnly
  rw [onStack]
  refine ⟨_, rfl, fun tag => ?_⟩
  refine .bind .elementPointer fun overflowPointer => ?_
  refine .bind .load fun overflow => .bind .cast fun source => ?_
  refine .bind .elementPointer fun next => ?_
  refine .byLayout (.bind (.storeOperand (.inr ⟨_, rfl⟩)) fun _ => ?_)
  refine .bind .allocateArray fun copy => .bind .cast fun _ => .bind .cast fun _ => ?_
  exact .bind .call fun _ => .done copy

theorem vaArgStackOnly {list : Value} {ty : Ty} :
    Straight layout given moves makes (Build.vaArgStackOnly list ty) := by
  cases onStack : isStackPassed ty with
  | false =>
    unfold Build.vaArgStackOnly
    rw [onStack]
    exact .refuse _
  | true =>
    obtain ⟨rest, same, straight⟩ := exists_vaArgStackOnly onStack list
    rw [same]
    exact .byLayout (.bind .elementPointer straight)

end Straight

theorem vaArg_of_inMemory {ty : Ty} (inMemory : RegisterClass.ofTy? ty = none) (list : Value) :
    vaArg list ty = refuse (.unsupportedVaArgType ty) := by
  unfold vaArg
  rw [inMemory]

/-- An argument that may be in a register is fetched by straight-line steps, once its three blocks
are there. -/
theorem exists_vaArg_straight {registers : RegisterClass} {ty : Ty}
    (inRegisters : RegisterClass.ofTy? ty = some registers) (list : Value) :
    ∃ rest : List BlockRef → Build Value, vaArg list ty = insertBlocks 3 >>= rest ∧
      ∀ inserted, Straight layout given true makes (rest inserted) := by
  unfold vaArg
  rw [inRegisters]
  refine ⟨_, rfl, fun inserted => ?_⟩
  -- is a register left?
  refine .bind .elementPointer fun tag => .bind .elementPointer fun offsetPointer => ?_
  refine .bind .load fun offset => .bind .compareOperands fun inRegisters => ?_
  refine .bind .conditionalBranch fun _ => .bind (.nextBlock rfl) fun _ => ?_
  -- the address in the register save area
  refine .bind .elementPointer fun saveAreaPointer => .bind .load fun saveArea => ?_
  refine .bind .elementPointer fun slot => .bind .cast fun registerAddress => ?_
  refine .bind .binaryOperands fun nextOffset => ?_
  refine .byLayout (.bind (.storeOperand (.inr ⟨_, rfl⟩)) fun _ => ?_)
  refine .bind (.emit _) fun _ => .bind (.nextBlock rfl) fun _ => ?_
  -- the address in the overflow area
  refine .bind .elementPointer fun overflowPointer => .bind .load fun overflow => ?_
  refine .bind .cast fun stackAddress => .bind .elementPointer fun nextSlot => ?_
  refine .byLayout (.bind (.storeOperand (.inr ⟨_, rfl⟩)) fun _ => ?_)
  refine .bind (.emit _) fun _ => .bind (.nextBlock rfl) fun _ => ?_
  -- the join
  exact .bind .phi fun address => .load

end Build

namespace Operation

open Build

/-- The alignments that an operation is given. -/
def alignments : Operation → List Nat
  | atomicLoad _ align .. | store _ _ align | storeOperand _ _ align
  | atomicStore _ _ align .. => [align]
  | _ => []

/-- Operations that look at the order of the blocks or change it. All others append instructions to
the current block, make a parameter, or give or read a name. -/
def concernsOrder : Operation → Bool
  | nextBlock | getNextBlock | getBlock _ | blockIndex _ | insertBlocks _ | vaArg .. => true
  | _ => false

/-- Operations that make a parameter. -/
def makesParameter : Operation → Bool
  | nextParameter | createParameter _ => true
  | _ => false

variable {layout : DataLayout} {moves : Bool}

theorem run_straight (operation : Operation) (apart : operation.concernsOrder = false) :
    Straight layout operation.alignments moves operation.makesParameter operation.run := by
  cases operation with
  | nextParameter => exact .map (.nextParameter rfl) _
  | createParameter ty => exact .map (.createParameter rfl ty) _
  | argCounter => exact .look (fun _ _ => rfl) fun _ => .done _
  | setNextName name => exact .bind (.setNextName name) fun _ => .done _
  | currentBlock => exact .map .currentBlock _
  | allocate ty => exact .map .allocateArray _
  | allocateArray ty count => exact .map .allocateArray _
  | load source => exact .map .load _
  | atomicLoad source align volatile ordering scope =>
    exact .map (.atomicLoad (.inl (List.mem_singleton_self _))) _
  | store destination source align =>
    exact .bind (.atomicStore (.inl (List.mem_singleton_self _))) fun _ => .done _
  | storeOperand destination operand align =>
    exact .bind (.storeOperand (.inl (List.mem_singleton_self _))) fun _ => .done _
  | atomicStore destination source align volatile ordering scope =>
    exact .bind (.atomicStore (.inl (List.mem_singleton_self _))) fun _ => .done _
  | binary operator lhs rhs => exact .map .binaryWithFlags _
  | binaryWithFlags flags operator lhs rhs => exact .map .binaryWithFlags _
  | binaryOperands operator lhs rhs => exact .map .binaryOperands _
  | compare operator lhs rhs => exact .map .compare _
  | compareOperands operator lhs rhs => exact .map .compareOperands _
  | compareVector operator lhs rhs => exact .map .compareVector _
  | cast operator ty value => exact .map .cast _
  | call target arguments => exact .map .call _
  | extractElement vector index => exact .map .extractElement _
  | insertElement vector value index => exact .map .insertElement _
  | insertOperand vector operand index => exact .map .insertOperand _
  | fillVector source operands => exact .map .fillVector _
  | extractValue aggregate index => exact .map .extractValue _
  | insertValue aggregate value index => exact .map .insertValue _
  | elementPointer base indices inbounds => exact .map .elementPointer _
  | select condition onTrue onFalse => exact .map .select _
  | shuffleVector first second mask => exact .map .shuffleVector _
  | phi ty incoming => exact .map .phi _
  | branch target => exact .bind (.emit _) fun _ => .done _
  | conditionalBranch condition onTrue onFalse => exact .bind .conditionalBranch fun _ => .done _
  | indirectBranch address successors => exact .bind .indirectBranch fun _ => .done _
  | switch condition otherwise cases => exact .bind .switch fun _ => .done _
  | literalSwitch condition otherwise cases => exact .bind .literalSwitch fun _ => .done _
  | ret value => exact .bind .ret fun _ => .done _
  | returnOperand operand => exact .bind .returnOperand fun _ => .done _
  | returnWithCast value => exact .bind .returnWithCast fun _ => .done _
  | retVoid => exact .bind (.emit _) fun _ => .done _
  | unreachable => exact .bind (.emit _) fun _ => .done _
  | vaStart list => exact .bind .vaIntrinsic fun _ => .done _
  | vaEnd list => exact .bind .vaIntrinsic fun _ => .done _
  | vaArgStackOnly list ty => exact .map .vaArgStackOnly _
  | nextBlock => cases apart
  | getNextBlock => cases apart
  | getBlock index => cases apart
  | blockIndex block => cases apart
  | insertBlocks count => cases apart
  | vaArg list ty => cases apart

end Operation

end IrAssembly
