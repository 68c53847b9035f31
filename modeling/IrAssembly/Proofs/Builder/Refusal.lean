import IrAssembly.Builder.Operation
import IrAssembly.Proofs.Builder.Outcome

/-! What a refused operation leaves behind. Operations that append a single instruction first check
all they were given and only then change the state, so a refusal finds the state as it was. -/

namespace IrAssembly

namespace Build

variable {α β : Type}

/-- A step that looks at the state and leaves it alone, whether it passes or refuses. -/
def Checks (step : Build α) : Prop :=
  ∀ builder, Ends step builder (fun _ after => after = builder) (fun _ after => after = builder)

/-- A step that refuses nothing: it gives a value, unless its caller broke a rule. -/
def Commits (step : Build α) : Prop :=
  ∀ builder, Ends step builder (fun _ _ => True)
    (fun failure _ => ∃ violation, failure = .violated violation)

/-- A step that leaves the state as it was if it refuses. -/
def Atomic (step : Build α) : Prop :=
  ∀ builder, Ends step builder (fun _ _ => True)
    (fun failure after => ∀ error, failure = .refused error → after = builder)

variable {step : Build α} {next : α → Build β}

theorem Commits.atomic (commits : Commits step) : Atomic step := by
  intro builder
  refine (commits builder).mono (fun _ _ _ => trivial) ?_
  intro failure after ⟨violation, broken⟩ error refused
  rw [broken] at refused
  cases refused

/-- What is checked in front of an atomic step belongs to it. -/
theorem Atomic.check (checks : Checks step) (rest : ∀ value, Atomic (next value)) :
    Atomic (step >>= next) := by
  intro builder
  rw [ends_bind]
  refine (checks builder).mono ?_ ?_
  · intro value after same
    exact same ▸ rest value after
  · intro failure after same _ _
    exact same

theorem Atomic.map (atomic : Atomic step) (change : α → β) : Atomic (change <$> step) := by
  intro builder
  rw [ends_map]
  exact (atomic builder).mono (fun _ _ _ => trivial) fun _ _ left => left

theorem Atomic.refuse (error : BuildError) : Atomic (Build.refuse error : Build α) :=
  fun _ _ _ => rfl

/-- An answer that needs no further step does not change how an operation ends. -/
theorem Atomic.answering (atomic : Atomic step) (answer : β) :
    Atomic (step >>= fun _ => pure answer) := by
  intro builder
  rw [ends_bind]
  exact (atomic builder).mono (fun _ _ _ => trivial) fun _ _ left => left

/-! Steps that commit -/

theorem Commits.pure {value : α} : Commits (Pure.pure value : Build α) := fun _ => trivial

theorem Commits.bind (first : Commits step) (second : ∀ value, Commits (next value)) :
    Commits (step >>= next) := by
  intro builder
  rw [ends_bind]
  exact (first builder).mono (fun value after _ => second value after) fun _ _ broken => broken

theorem commits_get : Commits (get : Build Builder) := fun _ => trivial

theorem commits_set {builder : Builder} : Commits (set builder : Build PUnit) := fun _ => trivial

theorem commits_edit {change : Edit α} : Commits (edit change) := by
  intro builder
  rw [ends_edit]
  rcases change.run builder.function with ⟨outcome, after⟩
  cases outcome with
  | ok value => trivial
  | error violation => exact ⟨violation, rfl⟩

theorem commits_encoded {align : Nat} : Commits (encoded align) := by
  intro builder
  unfold encoded
  split
  · trivial
  · rename_i violation _
    exact ⟨violation, rfl⟩

theorem commits_layoutAlignment {ty : Ty} : Commits (layoutAlignment ty) :=
  Commits.bind (fun _ => trivial) fun _ => commits_encoded

/-- What follows the registration of an operand commits together with it. -/
theorem commits_operand {value : Value} {next : SymbolIndex → Build β}
    (rest : ∀ index, Commits (next index)) : Commits (symbol value >>= next) :=
  commits_edit.bind rest

theorem commits_symbols {values : List Value} : Commits (symbols values) := by
  induction values with
  | nil => exact .pure
  | cons value values ih => exact commits_operand fun _ => ih.bind fun _ => .pure

theorem commits_edges {pairs : List (Value × BlockRef)} : Commits (edges pairs) := by
  induction pairs with
  | nil => exact .pure
  | cons pair pairs ih => exact commits_operand fun _ => ih.bind fun _ => .pure

theorem commits_takeName : Commits takeName := by
  refine commits_get.bind fun builder => ?_
  split
  · exact commits_set.bind fun _ => .pure
  · exact commits_set.bind fun _ => .pure

theorem commits_emit {instruction : Instruction} : Commits (emit instruction) :=
  commits_get.bind fun _ => commits_edit.bind fun _ => .pure

theorem commits_emitValue {ty : Ty} {instruction : ResultSlot → Instruction} :
    Commits (emitValue ty instruction) :=
  commits_takeName.bind fun _ => commits_get.bind fun _ => commits_edit.bind fun _ => .pure

/-! Steps that check -/

theorem checks_function : Checks function := fun _ => rfl

theorem checks_layout : Checks layout := fun _ => rfl

theorem checks_accept {outcome : Except BuildError α} : Checks (accept outcome) := by
  intro builder
  cases outcome <;> rfl

theorem checks_expectPointer {operation : String} {value : Value} :
    Checks (expectPointer operation value) := by
  intro builder
  unfold expectPointer
  split <;> rfl

theorem checks_expectVector {operation : String} {value : Value} :
    Checks (expectVector operation value) := by
  intro builder
  unfold expectVector
  split <;> rfl

theorem checks_expectTy {operation : String} {expected : Ty} {value : Value} :
    Checks (expectTy operation expected value) := by
  intro builder
  unfold expectTy
  split <;> rfl

theorem checks_expectInteger {operation : String} {value : Value} :
    Checks (expectInteger operation value) := by
  intro builder
  unfold expectInteger
  split <;> rfl

theorem Checks.bind (first : Checks step) (second : ∀ value, Checks (next value)) :
    Checks (step >>= next) := by
  intro builder
  rw [ends_bind]
  refine (first builder).mono ?_ fun _ _ same => same
  intro value after same
  exact same ▸ second value after

theorem checks_expectSameTy {operation : String} {lhs rhs : Value} :
    Checks (expectSameTy operation lhs rhs) :=
  checks_expectTy.bind fun _ _ => rfl

theorem checks_expectArguments {params : List Ty} {arguments : List Value} :
    Checks (expectArguments params arguments) := by
  induction params generalizing arguments with
  | nil => exact fun _ => rfl
  | cons param params ih =>
    cases arguments with
    | nil => exact fun _ => rfl
    | cons argument arguments => exact checks_expectTy.bind fun _ => ih

theorem checks_expectAll {operation : String} {ty : Ty} {pairs : List (Value × BlockRef)} :
    Checks (expectAll operation ty pairs) := by
  induction pairs with
  | nil => exact fun _ => rfl
  | cons pair pairs ih => exact checks_expectTy.bind fun _ => ih

theorem checks_calleeSignature {target : Value} : Checks (calleeSignature target) := by
  unfold calleeSignature
  extract_lets ty throughPointers
  -- the target is looked at below its pointers, or refused as it is
  have below : Checks throughPointers := by
    intro builder
    dsimp only [throughPointers]
    split <;> rfl
  cases target with
  | function callee => exact fun _ => rfl
  | parameter formal => exact below
  | constant known =>
    cases known with
    | inlineAsm assembly => exact below
    | _ => exact fun _ => rfl
  | result slot =>
    refine checks_function.bind fun function => ?_
    split
    · exact below
    · exact fun _ => rfl

theorem checks_aggregateMember {operation : String} {aggregate : Ty} {index : UInt64} :
    Checks (aggregateMember operation aggregate index) := by
  intro builder
  unfold aggregateMember
  split
  · split <;> rfl
  · split <;> rfl
  · rfl

theorem checks_maskLanes {mask : Value} : Checks (maskLanes mask) := by
  intro builder
  unfold maskLanes
  split <;> rfl

/-! Operations: every check stands in front of the first operand -/

theorem allocateArray_atomic {ty : Ty} {count : Value} : Atomic (allocateArray ty count) := by
  refine .check checks_expectInteger fun _ => Commits.atomic ?_
  exact commits_operand fun _ => commits_layoutAlignment.bind fun _ => commits_emitValue

theorem load_atomic {source : Value} : Atomic (load source) := by
  refine .check checks_expectPointer fun _ => Commits.atomic ?_
  exact commits_layoutAlignment.bind fun _ => commits_operand fun _ => commits_emitValue

theorem atomicLoad_atomic {source : Value} {align : Nat} {volatile : Bool}
    {ordering : AtomicOrdering} {scope : SynchronizationScope} :
    Atomic (atomicLoad source align volatile ordering scope) := by
  refine .check checks_expectPointer fun _ => Commits.atomic ?_
  exact commits_encoded.bind fun _ => commits_operand fun _ => commits_emitValue

theorem atomicStore_atomic {destination source : Value} {align : Nat} {volatile : Bool}
    {ordering : AtomicOrdering} {scope : SynchronizationScope} :
    Atomic (atomicStore destination source align volatile ordering scope) := by
  refine .check checks_expectPointer fun _ => .check checks_expectTy fun _ => Commits.atomic ?_
  exact commits_encoded.bind fun _ => commits_operand fun _ => commits_operand fun _ => commits_emit

theorem binaryWithFlags_atomic {flags : List BinaryFlag} {operator : BinaryOperator}
    {lhs rhs : Value} : Atomic (binaryWithFlags flags operator lhs rhs) := by
  refine .check checks_expectSameTy fun _ => Commits.atomic ?_
  exact commits_operand fun _ => commits_operand fun _ => commits_emitValue

theorem compare_atomic {operator : CompareOperator} {lhs rhs : Value} :
    Atomic (compare operator lhs rhs) := by
  refine .check checks_expectSameTy fun _ => Commits.atomic ?_
  exact commits_operand fun _ => commits_operand fun _ => commits_emitValue

theorem commits_cast {operator : CastOperator} {ty : Ty} {value : Value} :
    Commits (cast operator ty value) :=
  commits_operand fun _ => commits_emitValue

theorem call_atomic {target : Value} {arguments : List Value} :
    Atomic (call target arguments) := by
  refine .check checks_calleeSignature fun signature => ?_
  dsimp only
  split
  · exact .refuse _
  · refine .check checks_expectArguments fun _ => Commits.atomic ?_
    refine commits_operand fun target => commits_symbols.bind fun arguments => ?_
    split
    · exact commits_emit.bind fun _ => .pure
    · exact commits_emitValue.bind fun _ => .pure

theorem extractElement_atomic {vector : Value} {index : UInt32} :
    Atomic (extractElement vector index) := by
  refine .check checks_expectVector fun _ => Commits.atomic ?_
  exact commits_operand fun _ => commits_operand fun _ => commits_emitValue

theorem insertElement_atomic {vector value : Value} {index : UInt32} :
    Atomic (insertElement vector value index) := by
  refine .check checks_expectVector fun _ => .check checks_expectTy fun _ => Commits.atomic ?_
  exact commits_operand fun _ => commits_operand fun _ => commits_operand fun _ => commits_emitValue

theorem extractValue_atomic {aggregate : Value} {index : UInt64} :
    Atomic (extractValue aggregate index) := by
  refine .check checks_aggregateMember fun _ => Commits.atomic ?_
  exact commits_operand fun _ => commits_emitValue

theorem insertValue_atomic {aggregate value : Value} {index : UInt64} :
    Atomic (insertValue aggregate value index) := by
  refine .check checks_aggregateMember fun _ => .check checks_expectTy fun _ => Commits.atomic ?_
  exact commits_operand fun _ => commits_operand fun _ => commits_emitValue

theorem elementPointer_atomic {base : Value} {indices : List Value} {inbounds : Bool} :
    Atomic (elementPointer base indices inbounds) := by
  refine .check checks_expectPointer fun _ => ?_
  split
  · exact .refuse _
  · refine Commits.atomic ?_
    exact commits_operand fun _ => commits_symbols.bind fun _ => commits_emitValue

theorem select_atomic {condition onTrue onFalse : Value} :
    Atomic (select condition onTrue onFalse) := by
  unfold select
  split
  · exact .refuse _
  · refine .check checks_expectSameTy fun _ => Commits.atomic ?_
    exact commits_operand fun _ => commits_operand fun _ => commits_operand fun _ =>
      commits_emitValue

theorem shuffleVector_atomic {first second mask : Value} :
    Atomic (shuffleVector first second mask) := by
  refine .check checks_expectSameTy fun _ => .check checks_expectVector fun _ =>
    .check checks_maskLanes fun _ => Commits.atomic ?_
  exact commits_operand fun _ => commits_operand fun _ => commits_operand fun _ => commits_emitValue

theorem phi_atomic {ty : Ty} {incoming : List (Value × BlockRef)} : Atomic (phi ty incoming) := by
  refine .check checks_expectAll fun _ => Commits.atomic ?_
  exact commits_edges.bind fun _ => commits_emitValue

theorem conditionalBranch_atomic {condition : Value} {onTrue onFalse : BlockRef} :
    Atomic (conditionalBranch condition onTrue onFalse) := by
  unfold conditionalBranch
  split
  · exact .refuse _
  · exact (commits_operand fun _ => commits_emit).atomic

theorem indirectBranch_atomic {address : Value} {successors : List BlockRef} :
    Atomic (indirectBranch address successors) := by
  refine .check checks_expectPointer fun _ => Commits.atomic ?_
  exact commits_operand fun _ => commits_emit

theorem switch_atomic {condition : Value} {otherwise : BlockRef} {cases : List (Value × BlockRef)} :
    Atomic (switch condition otherwise cases) := by
  refine .check checks_expectInteger fun _ => .check checks_expectAll fun _ => Commits.atomic ?_
  exact commits_operand fun _ => commits_edges.bind fun _ => commits_emit

theorem literalSwitch_atomic {condition : Value} {otherwise : BlockRef}
    {cases : List (Int64 × BlockRef)} : Atomic (literalSwitch condition otherwise cases) := by
  refine .check checks_expectInteger fun _ => Commits.atomic ?_
  exact commits_operand fun _ => commits_emit

theorem commits_ret {value : Value} : Commits (ret value) :=
  commits_operand fun _ => commits_emit

theorem commits_createParameter {ty : Ty} : Commits (createParameter ty) :=
  commits_get.bind fun _ => commits_set.bind fun _ => commits_edit.bind fun _ => .pure

theorem nextParameter_atomic : Atomic nextParameter := by
  refine .check (fun _ => rfl) fun builder => ?_
  dsimp only
  split
  · exact commits_createParameter.atomic
  · exact .refuse _

theorem storeOperand_atomic {destination : Value} {operand : Operand} {align : Nat} :
    Atomic (storeOperand destination operand align) :=
  .check checks_expectPointer fun _ => .check checks_accept fun _ => atomicStore_atomic

theorem binaryOperands_atomic {operator : BinaryOperator} {lhs rhs : Operand} :
    Atomic (binaryOperands operator lhs rhs) :=
  .check checks_accept fun _ => binaryWithFlags_atomic

theorem compareOperands_atomic {operator : CompareOperator} {lhs rhs : Operand} :
    Atomic (compareOperands operator lhs rhs) :=
  .check checks_accept fun _ => compare_atomic

theorem insertOperand_atomic {vector : Value} {operand : Operand} {index : UInt32} :
    Atomic (insertOperand vector operand index) :=
  .check checks_expectVector fun _ => .check checks_accept fun _ => insertElement_atomic

theorem returnOperand_atomic {operand : Operand} : Atomic (returnOperand operand) :=
  .check checks_function fun _ => .check checks_accept fun _ => .check checks_expectTy fun _ =>
    commits_ret.atomic

/-- Two instructions are appended here, but the conversion is chosen before the first of them. -/
theorem returnWithCast_atomic {value : Value} : Atomic (returnWithCast value) := by
  refine .check checks_function fun function => ?_
  dsimp only
  split
  · exact commits_ret.atomic
  · refine .check checks_layout fun _ => .check checks_accept fun _ => Commits.atomic ?_
    exact commits_cast.bind fun _ => commits_ret

theorem commits_getBlock {index : Nat} : Commits (getBlock index) :=
  commits_edit.bind fun _ => .bind (fun _ => trivial) fun _ => .pure

theorem commits_followingIndex : Commits followingIndex := fun _ => trivial

theorem commits_nextBlock : Commits nextBlock := by
  refine commits_followingIndex.bind fun index => commits_getBlock.bind fun block =>
    .bind (fun _ => trivial) fun function => ?_
  dsimp only
  split
  · exact commits_edit.bind fun _ => .bind (fun _ => trivial) fun _ => .pure
  · exact .bind (fun _ => trivial) fun _ => .pure

end Build

namespace Operation

open Build

/-- Operations that append the instructions of a whole pattern. -/
def isComposite : Operation → Bool
  | compareVector .. | fillVector .. | vaStart .. | vaEnd .. | vaArg .. | vaArgStackOnly .. => true
  | _ => false

theorem run_atomic (operation : Operation) (basic : operation.isComposite = false) :
    Atomic operation.run := by
  cases operation with
  | nextParameter => exact nextParameter_atomic.map _
  | createParameter ty => exact commits_createParameter.atomic.map _
  | argCounter => exact fun _ => trivial
  | setNextName name => exact fun _ => trivial
  | currentBlock => exact fun _ => trivial
  | blockIndex block => exact fun _ => trivial
  | nextBlock => exact commits_nextBlock.atomic.map _
  | getNextBlock =>
    exact (commits_followingIndex.bind fun _ => commits_getBlock).atomic.map _
  | getBlock index => exact commits_getBlock.atomic.map _
  | insertBlocks count =>
    exact (commits_followingIndex.bind fun _ => commits_edit).atomic.map _
  | allocate ty => exact allocateArray_atomic.map _
  | allocateArray ty count => exact allocateArray_atomic.map _
  | load source => exact load_atomic.map _
  | atomicLoad source align volatile ordering scope => exact atomicLoad_atomic.map _
  | store destination source align => exact atomicStore_atomic.answering _
  | storeOperand destination operand align => exact storeOperand_atomic.answering _
  | atomicStore destination source align volatile ordering scope =>
    exact atomicStore_atomic.answering _
  | binary operator lhs rhs => exact binaryWithFlags_atomic.map _
  | binaryWithFlags flags operator lhs rhs => exact binaryWithFlags_atomic.map _
  | binaryOperands operator lhs rhs => exact binaryOperands_atomic.map _
  | compare operator lhs rhs => exact compare_atomic.map _
  | compareOperands operator lhs rhs => exact compareOperands_atomic.map _
  | cast operator ty value => exact commits_cast.atomic.map _
  | call target arguments => exact call_atomic.map _
  | extractElement vector index => exact extractElement_atomic.map _
  | insertElement vector value index => exact insertElement_atomic.map _
  | insertOperand vector operand index => exact insertOperand_atomic.map _
  | extractValue aggregate index => exact extractValue_atomic.map _
  | insertValue aggregate value index => exact insertValue_atomic.map _
  | elementPointer base indices inbounds => exact elementPointer_atomic.map _
  | select condition onTrue onFalse => exact select_atomic.map _
  | shuffleVector first second mask => exact shuffleVector_atomic.map _
  | phi ty incoming => exact phi_atomic.map _
  | branch target => exact commits_emit.atomic.answering _
  | conditionalBranch condition onTrue onFalse => exact conditionalBranch_atomic.answering _
  | indirectBranch address successors => exact indirectBranch_atomic.answering _
  | switch condition otherwise cases => exact switch_atomic.answering _
  | literalSwitch condition otherwise cases => exact literalSwitch_atomic.answering _
  | ret value => exact commits_ret.atomic.answering _
  | returnOperand operand => exact returnOperand_atomic.answering _
  | returnWithCast value => exact returnWithCast_atomic.answering _
  | retVoid => exact commits_emit.atomic.answering _
  | unreachable => exact commits_emit.atomic.answering _
  | compareVector operator lhs rhs => cases basic
  | fillVector source operands => cases basic
  | vaStart list => cases basic
  | vaEnd list => cases basic
  | vaArg list ty => cases basic
  | vaArgStackOnly list ty => cases basic

/-- An operation that is no pattern of several instructions and is refused has not happened: the
function, the current block, both counters and the pending name are what they were. -/
theorem state_unchanged_of_refused {operation : Operation} {builder : Builder} {error : BuildError}
    (basic : operation.isComposite = false)
    (refused : (operation.step builder).1 = .error (.refused error)) :
    (operation.step builder).2 = builder := by
  have ends := operation.run_atomic basic builder
  unfold Ends at ends
  unfold step at refused ⊢
  generalize operation.run.run builder = ended at ends refused ⊢
  obtain ⟨outcome, after⟩ := ended
  subst refused
  exact ends error rfl

/-- A name is pending and operands are registered when a number is stored through a pointer to a
shorter one. -/
theorem pending_name_unchanged_of_refused : ∃ builder : Builder,
    builder.nextName = some "sum" ∧ builder.function.symbols.length = 2 ∧
    ∃ operation : Operation, operation.isComposite = false ∧
      (operation.step builder).1 = .error (.refused (.typeMismatch "store" .i32 .i64)) ∧
      (operation.step builder).2 = builder := by
  let fresh : FunctionDef := { name := "f", signature := ⟨.i32, [.ptr .i32], false⟩ }
  let formal : Value := .parameter ⟨0, "arg_1", .ptr .i32⟩
  let operations : List Operation :=
    [.nextParameter, .allocate .i64, .load formal, .setNextName "sum"]
  let builder : Builder := operations.foldl (fun builder operation => (operation.step builder).2)
    ⟨fresh.reserve 1, .x86_64, ⟨0⟩, 1, 1, none⟩
  let operation : Operation := .store formal (.constant (.i64 1)) 4
  have refused : (operation.step builder).1 =
      .error (.refused (.typeMismatch "store" .i32 .i64)) := rfl
  exact ⟨builder, by decide +kernel, by decide +kernel, operation, rfl, refused,
    state_unchanged_of_refused rfl refused⟩

end Operation

end IrAssembly
