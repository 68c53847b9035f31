import IrAssembly.Proofs.Builder.Control
import IrAssembly.Proofs.Builder.Refusal

/-! What single operations write into the tables of a function. An operation that appends an
instruction registers the operands that it was given, and those it makes itself, from left to right
and for this instruction alone; every other operation leaves both tables as they are. -/

namespace IrAssembly

/-- The values that an operand may be registered as: a typed value is registered as it is, a literal
as the constant of some type that it stands for. -/
def Operand.Becomes (operand : Operand) (value : Value) : Prop :=
  ∃ ty, operand.resolve ty = .ok value

namespace Operand

theorem becomes_self (value : Value) : (Operand.value value).Becomes value := ⟨.void, rfl⟩

theorem eq_of_becomes {known value : Value} (becomes : (Operand.value known).Becomes value) :
    value = known := by
  obtain ⟨ty, same⟩ := becomes
  exact (Except.ok.inj same).symm

/-- Registered values stand for themselves. -/
theorem become_selves (values : List Value) :
    List.Forall₂ Becomes (values.map Operand.value) values := by
  induction values with
  | nil => exact .nil
  | cons value values ih => exact .cons (becomes_self value) ih

theorem becomes_of_resolvePair {operation : String} {lhs rhs : Operand} {pair : Value × Value}
    (resolved : resolvePair operation lhs rhs = .ok pair) :
    lhs.Becomes pair.1 ∧ rhs.Becomes pair.2 := by
  -- a literal takes the type of the other operand
  have literal {untyped : Literal} {ty : Ty} {change : Constant → Value × Value}
      (mapped : (untyped.toConstant ty).map change = .ok pair) :
      ∃ known, change known = pair ∧ (Operand.literal untyped).Becomes (.constant known) := by
    cases converted : untyped.toConstant ty with
    | error error =>
      rw [converted] at mapped
      cases mapped
    | ok known =>
      rw [converted] at mapped
      refine ⟨known, Except.ok.inj mapped, ty, ?_⟩
      rw [resolve, converted]
      rfl
  cases lhs with
  | value left =>
    cases rhs with
    | value right =>
      cases resolved
      exact ⟨becomes_self left, becomes_self right⟩
    | literal untyped =>
      obtain ⟨known, rfl, becomes⟩ := literal resolved
      exact ⟨becomes_self left, becomes⟩
  | literal untyped =>
    cases rhs with
    | value right =>
      obtain ⟨known, rfl, becomes⟩ := literal resolved
      exact ⟨becomes, becomes_self right⟩
    | literal other => cases resolved

end Operand

/-- A state after a step that registers some operands for one instruction, or touches no table. -/
inductive Builder.Entered (builder : Builder) : Option (List Operand) → Builder → Prop where
  | instruction (becomes : List.Forall₂ Operand.Becomes operands values)
      (consecutive : instruction.operands =
        List.range' builder.function.symbols.length values.length) :
      Entered builder (some operands) (builder.append values instruction)
  | nothing (symbols : after.function.symbols = builder.function.symbols)
      (instructions : after.function.instructions = builder.function.instructions) :
      Entered builder none after

namespace Build

variable {α β : Type} {builder : Builder} {given : Option (List Operand)}

/-- A step that makes one kind of entry if it succeeds, and none if it is refused. -/
def Enters (given : Option (List Operand)) (step : Build α) : Prop :=
  ∀ builder : Builder, builder.function.finished = false → Ends step builder
    (fun _ after => builder.Entered given after)
    (fun failure after => (∃ violation, failure = .violated violation) ∨ after = builder)

namespace Enters

variable {step : Build α} {next : α → Build β}

theorem check (checks : Checks step) (rest : ∀ value, Enters given (next value)) :
    Enters given (step >>= next) := by
  intro builder isOpen
  rw [ends_bind]
  refine (checks builder).mono ?_ fun _ _ same => .inr same
  intro value after same
  subst same
  exact rest value after isOpen

/-- What is accepted is known to be the outcome. -/
theorem accepted {outcome : Except BuildError α}
    (rest : ∀ value, outcome = .ok value → Enters given (next value)) :
    Enters given (accept outcome >>= next) := by
  intro builder isOpen
  cases outcome with
  | error error => exact .inr rfl
  | ok value => exact rest value rfl builder isOpen

theorem alignment {ty : Ty} {next : UInt32 → Build β} (rest : ∀ align, Enters given (next align)) :
    Enters given (layoutAlignment ty >>= next) := by
  intro builder isOpen
  simp only [layoutAlignment, ends_bind, ends_layout]
  exact ends_encoded (fun violation => .inl ⟨violation, rfl⟩) fun align _ =>
    rest align builder isOpen

theorem encoding {align : Nat} {next : UInt32 → Build β}
    (rest : ∀ align, Enters given (next align)) : Enters given (encoded align >>= next) := by
  intro builder isOpen
  rw [ends_bind]
  exact ends_encoded (fun violation => .inl ⟨violation, rfl⟩) fun align _ =>
    rest align builder isOpen

theorem refuse {error : BuildError} : Enters given (Build.refuse error : Build α) :=
  fun _ _ => .inr rfl

theorem map (enters : Enters given step) (change : α → β) : Enters given (change <$> step) := by
  intro builder isOpen
  rw [ends_map]
  exact enters builder isOpen

theorem answering (enters : Enters given step) (answer : β) :
    Enters given (step >>= fun _ => pure answer) := by
  intro builder isOpen
  rw [ends_bind]
  exact enters builder isOpen

/-- A step that only looks at the state enters nothing. -/
theorem look (answer : Builder → β) : Enters none (get >>= fun builder => pure (answer builder)) :=
  fun _ _ => .nothing rfl rfl

/-- Operands that become the same values may be said to be given. -/
theorem as {operands others : List Operand} (enters : Enters (some operands) step)
    (becomes : ∀ values, List.Forall₂ Operand.Becomes operands values →
      List.Forall₂ Operand.Becomes others values) : Enters (some others) step := by
  intro builder isOpen
  refine (enters builder isOpen).mono ?_ fun _ _ left => left
  intro value after entered
  cases entered with
  | instruction registered consecutive => exact .instruction (becomes _ registered) consecutive

end Enters

variable {values : List Value} {failed : Failure → Builder → Prop}

theorem emitValue_enters (isOpen : builder.function.finished = false) {ty : Ty}
    {instruction : ResultSlot → Instruction}
    (slotted : ∀ slot, (instruction slot).result? = some slot)
    (consecutive : ∀ slot, (instruction slot).operands =
      List.range' builder.function.symbols.length values.length) :
    Ends (emitValue ty instruction) (builder.register values)
      (fun _ after => builder.Entered (some (values.map Operand.value)) after) failed := by
  rw [ends_emitValue_registered isOpen slotted]
  exact .instruction (Operand.become_selves values) (consecutive _)

theorem emit_enters (isOpen : builder.function.finished = false) {instruction : Instruction}
    (silent : instruction.result? = none)
    (consecutive : instruction.operands =
      List.range' builder.function.symbols.length values.length) :
    Ends (emit instruction) (builder.register values)
      (fun _ after => builder.Entered (some (values.map Operand.value)) after) failed := by
  rw [ends_emit_registered isOpen silent]
  exact .instruction (Operand.become_selves values) consecutive

/-! Memory -/

theorem allocateArray_enters {ty : Ty} {count : Value} :
    Enters (some [.value count]) (allocateArray ty count) := by
  refine .check checks_expectInteger fun _ => ?_
  intro builder isOpen
  rw [ends_operand isOpen]
  simp only [layoutAlignment, ends_bind, ends_layout]
  apply ends_encoded (fun violation => .inl ⟨violation, rfl⟩)
  intro align _
  exact emitValue_enters isOpen (fun _ => rfl) fun _ => rfl

theorem load_enters {source : Value} : Enters (some [.value source]) (load source) := by
  refine .check checks_expectPointer fun _ => .alignment fun align => ?_
  intro builder isOpen
  rw [ends_operand isOpen]
  exact emitValue_enters isOpen (fun _ => rfl) fun _ => rfl

theorem atomicLoad_enters {source : Value} {align : Nat} {volatile : Bool}
    {ordering : AtomicOrdering} {scope : SynchronizationScope} :
    Enters (some [.value source]) (atomicLoad source align volatile ordering scope) := by
  refine .check checks_expectPointer fun _ => .encoding fun align => ?_
  intro builder isOpen
  rw [ends_operand isOpen]
  exact emitValue_enters isOpen (fun _ => rfl) fun _ => rfl

theorem atomicStore_enters {destination source : Value} {align : Nat} {volatile : Bool}
    {ordering : AtomicOrdering} {scope : SynchronizationScope} :
    Enters (some [.value destination, .value source])
      (atomicStore destination source align volatile ordering scope) := by
  refine .check checks_expectPointer fun _ => .check checks_expectTy fun _ =>
    .encoding fun align => ?_
  intro builder isOpen
  rw [ends_operand isOpen, ends_nextOperand isOpen]
  exact emit_enters isOpen rfl rfl

theorem storeOperand_enters {destination : Value} {operand : Operand} {align : Nat} :
    Enters (some [.value destination, operand]) (storeOperand destination operand align) := by
  refine .check checks_expectPointer fun pointee => .accepted fun value resolved => ?_
  refine atomicStore_enters.as fun values becomes => ?_
  cases becomes with
  | cons first rest =>
    cases rest with
    | cons second nothing =>
      obtain rfl := Operand.eq_of_becomes second
      exact .cons first (.cons ⟨pointee, resolved⟩ nothing)

/-! Arithmetic -/

theorem binaryWithFlags_enters {flags : List BinaryFlag} {operator : BinaryOperator}
    {lhs rhs : Value} :
    Enters (some [.value lhs, .value rhs]) (binaryWithFlags flags operator lhs rhs) := by
  refine .check checks_expectSameTy fun _ => ?_
  intro builder isOpen
  rw [ends_operand isOpen, ends_nextOperand isOpen]
  exact emitValue_enters isOpen (fun _ => rfl) fun _ => rfl

theorem compare_enters {operator : CompareOperator} {lhs rhs : Value} :
    Enters (some [.value lhs, .value rhs]) (compare operator lhs rhs) := by
  refine .check checks_expectSameTy fun _ => ?_
  intro builder isOpen
  rw [ends_operand isOpen, ends_nextOperand isOpen]
  exact emitValue_enters isOpen (fun _ => rfl) fun _ => rfl

/-- The operands of a pair that was resolved are given as they were. -/
theorem Enters.resolved {operation : String} {lhs rhs : Operand} {pair : Value × Value}
    {step : Build α} (enters : Enters (some [.value pair.1, .value pair.2]) step)
    (resolved : Operand.resolvePair operation lhs rhs = .ok pair) :
    Enters (some [lhs, rhs]) step := by
  obtain ⟨left, right⟩ := Operand.becomes_of_resolvePair resolved
  refine enters.as fun values becomes => ?_
  cases becomes with
  | cons first rest =>
    cases rest with
    | cons second nothing =>
      obtain rfl := Operand.eq_of_becomes first
      obtain rfl := Operand.eq_of_becomes second
      exact .cons left (.cons right nothing)

theorem binaryOperands_enters {operator : BinaryOperator} {lhs rhs : Operand} :
    Enters (some [lhs, rhs]) (binaryOperands operator lhs rhs) :=
  .accepted fun _ resolved => binaryWithFlags_enters.resolved resolved

theorem compareOperands_enters {operator : CompareOperator} {lhs rhs : Operand} :
    Enters (some [lhs, rhs]) (compareOperands operator lhs rhs) :=
  .accepted fun _ resolved => compare_enters.resolved resolved

theorem cast_enters {operator : CastOperator} {ty : Ty} {value : Value} :
    Enters (some [.value value]) (cast operator ty value) := by
  intro builder isOpen
  rw [cast, ends_operand isOpen]
  exact emitValue_enters isOpen (fun _ => rfl) fun _ => rfl

theorem call_enters {target : Value} {arguments : List Value} :
    Enters (some (.value target :: arguments.map Operand.value)) (call target arguments) := by
  refine .check checks_calleeSignature fun signature => ?_
  dsimp only
  split
  · exact .refuse
  · refine .check checks_expectArguments fun _ => ?_
    intro builder isOpen
    have stillOpen : (builder.register [target]).function.finished = false := isOpen
    rw [ends_operand isOpen, ends_bind, ends_symbols stillOpen, Builder.register_register,
      Builder.register_function, FunctionDef.length_symbols_withSymbols]
    split
    · rw [ends_bind]
      exact emit_enters isOpen rfl rfl
    · rw [ends_bind]
      exact emitValue_enters isOpen (fun _ => rfl) fun _ => rfl

/-! Vectors and aggregates -/

theorem extractElement_enters {vector : Value} {index : UInt32} :
    Enters (some [.value vector, .value (laneIndex index)]) (extractElement vector index) := by
  refine .check checks_expectVector fun _ => ?_
  intro builder isOpen
  rw [ends_operand isOpen, ends_nextOperand isOpen]
  exact emitValue_enters isOpen (fun _ => rfl) fun _ => rfl

theorem insertElement_enters {vector value : Value} {index : UInt32} :
    Enters (some [.value vector, .value value, .value (laneIndex index)])
      (insertElement vector value index) := by
  refine .check checks_expectVector fun _ => .check checks_expectTy fun _ => ?_
  intro builder isOpen
  rw [ends_operand isOpen, ends_nextOperand isOpen, ends_nextOperand isOpen]
  exact emitValue_enters isOpen (fun _ => rfl) fun _ => rfl

theorem insertOperand_enters {vector : Value} {operand : Operand} {index : UInt32} :
    Enters (some [.value vector, operand, .value (laneIndex index)])
      (insertOperand vector operand index) := by
  refine .check checks_expectVector fun element => .accepted fun value resolved => ?_
  refine insertElement_enters.as fun values becomes => ?_
  cases becomes with
  | cons first rest =>
    cases rest with
    | cons second behind =>
      obtain rfl := Operand.eq_of_becomes second
      exact .cons first (.cons ⟨element, resolved⟩ behind)

theorem extractValue_enters {aggregate : Value} {index : UInt64} :
    Enters (some [.value aggregate]) (extractValue aggregate index) := by
  refine .check checks_aggregateMember fun _ => ?_
  intro builder isOpen
  rw [ends_operand isOpen]
  exact emitValue_enters isOpen (fun _ => rfl) fun _ => rfl

theorem insertValue_enters {aggregate value : Value} {index : UInt64} :
    Enters (some [.value aggregate, .value value]) (insertValue aggregate value index) := by
  refine .check checks_aggregateMember fun _ => .check checks_expectTy fun _ => ?_
  intro builder isOpen
  rw [ends_operand isOpen, ends_nextOperand isOpen]
  exact emitValue_enters isOpen (fun _ => rfl) fun _ => rfl

theorem elementPointer_enters {base : Value} {indices : List Value} {inbounds : Bool} :
    Enters (some (.value base :: indices.map Operand.value))
      (elementPointer base indices inbounds) := by
  refine .check checks_expectPointer fun _ => ?_
  split
  · exact .refuse
  · intro builder isOpen
    have stillOpen : (builder.register [base]).function.finished = false := isOpen
    rw [ends_operand isOpen, ends_bind, ends_symbols stillOpen, Builder.register_register,
      Builder.register_function, FunctionDef.length_symbols_withSymbols]
    exact emitValue_enters isOpen (fun _ => rfl) fun _ => rfl

theorem select_enters {condition onTrue onFalse : Value} :
    Enters (some [.value condition, .value onTrue, .value onFalse])
      (select condition onTrue onFalse) := by
  unfold select
  split
  · exact .refuse
  · refine .check checks_expectSameTy fun _ => ?_
    intro builder isOpen
    rw [ends_operand isOpen, ends_nextOperand isOpen, ends_nextOperand isOpen]
    exact emitValue_enters isOpen (fun _ => rfl) fun _ => rfl

theorem shuffleVector_enters {first second mask : Value} :
    Enters (some [.value first, .value second, .value mask])
      (shuffleVector first second mask) := by
  refine .check checks_expectSameTy fun _ => .check checks_expectVector fun _ =>
    .check checks_maskLanes fun _ => ?_
  intro builder isOpen
  rw [ends_operand isOpen, ends_nextOperand isOpen, ends_nextOperand isOpen]
  exact emitValue_enters isOpen (fun _ => rfl) fun _ => rfl

/-- The values of edges, as operands. -/
def edgeOperands (pairs : List (Value × BlockRef)) : List Operand :=
  (pairs.map Prod.fst).map Operand.value

theorem phi_enters {ty : Ty} {incoming : List (Value × BlockRef)} :
    Enters (some (edgeOperands incoming)) (phi ty incoming) := by
  refine .check checks_expectAll fun _ => ?_
  intro builder isOpen
  rw [ends_bind, ends_edges isOpen, ← edgesFrom]
  exact emitValue_enters isOpen (fun _ => rfl) fun _ => by simp [Instruction.operands]

/-! Terminators -/

/-- An instruction without operands and result. -/
theorem emit_alone_enters {instruction : Instruction} (silent : instruction.result? = none)
    (alone : instruction.operands = []) : Enters (some []) (emit instruction) := by
  intro builder isOpen
  have entered : Ends (emit instruction) (builder.register [])
      (fun _ after => builder.Entered (some []) after)
      (fun failure after => (∃ violation, failure = .violated violation) ∨ after = builder) :=
    emit_enters isOpen silent alone
  rwa [Builder.register_nil] at entered

theorem conditionalBranch_enters {condition : Value} {onTrue onFalse : BlockRef} :
    Enters (some [.value condition]) (conditionalBranch condition onTrue onFalse) := by
  unfold conditionalBranch
  split
  · exact .refuse
  · intro builder isOpen
    rw [ends_operand isOpen]
    exact emit_enters isOpen rfl rfl

theorem indirectBranch_enters {address : Value} {successors : List BlockRef} :
    Enters (some [.value address]) (indirectBranch address successors) := by
  refine .check checks_expectPointer fun _ => ?_
  intro builder isOpen
  rw [ends_operand isOpen]
  exact emit_enters isOpen rfl rfl

theorem switch_enters {condition : Value} {otherwise : BlockRef}
    {cases : List (Value × BlockRef)} :
    Enters (some (.value condition :: edgeOperands cases)) (switch condition otherwise cases) := by
  refine .check checks_expectInteger fun _ => .check checks_expectAll fun _ => ?_
  intro builder isOpen
  have stillOpen : (builder.register [condition]).function.finished = false := isOpen
  rw [ends_operand isOpen, ends_bind, ends_edges stillOpen, Builder.register_register,
    Builder.register_function, FunctionDef.length_symbols_withSymbols, ← edgesFrom]
  exact emit_enters isOpen rfl (by simp [Instruction.operands, List.range'_succ])

theorem literalSwitch_enters {condition : Value} {otherwise : BlockRef}
    {cases : List (Int64 × BlockRef)} :
    Enters (some [.value condition]) (literalSwitch condition otherwise cases) := by
  refine .check checks_expectInteger fun _ => ?_
  intro builder isOpen
  rw [ends_operand isOpen]
  exact emit_enters isOpen rfl rfl

theorem ret_enters {value : Value} : Enters (some [.value value]) (ret value) := by
  intro builder isOpen
  rw [ret, ends_operand isOpen]
  exact emit_enters isOpen rfl rfl

theorem returnOperand_enters {operand : Operand} :
    Enters (some [operand]) (returnOperand operand) := by
  refine .check checks_function fun function => .accepted fun value resolved =>
    .check checks_expectTy fun _ => ?_
  refine ret_enters.as fun values becomes => ?_
  cases becomes with
  | cons first behind =>
    obtain rfl := Operand.eq_of_becomes first
    exact .cons ⟨function.signature.result, resolved⟩ behind

/-! Parameters, names and blocks -/

theorem createParameter_enters {ty : Ty} : Enters none (createParameter ty) := by
  intro builder isOpen
  simp only [createParameter, ends_bind, ends_get, ends_set]
  rw [ends_edit, Edit.run_addParameter isOpen]
  exact .nothing rfl rfl

theorem nextParameter_enters : Enters none nextParameter := by
  refine .check (fun _ => rfl) fun builder => ?_
  dsimp only
  split
  · exact createParameter_enters
  · exact .refuse

theorem getBlock_enters {index : Nat} : Enters none (getBlock index) := by
  intro builder isOpen
  rw [ends_getBlock isOpen]
  exact .nothing rfl rfl

theorem getNextBlock_enters : Enters none getNextBlock := by
  intro builder isOpen
  rw [getNextBlock, ends_bind, ends_followingIndex]
  exact getBlock_enters builder isOpen

theorem nextBlock_enters : Enters none nextBlock := by
  intro builder isOpen
  rw [ends_nextBlock isOpen]
  obtain ⟨_, instructions, symbols⟩ := builder.enterNext_tables
  exact .nothing symbols instructions

theorem insertBlocks_enters {count : Nat} : Enters none (insertBlocks count) := by
  intro builder isOpen
  rw [ends_insertBlocks isOpen]
  exact .nothing rfl rfl

end Build

namespace Operation

open Build

/-- Operations that append at most one instruction. -/
def isSingle : Operation → Bool
  | returnWithCast _ => false
  | operation => !operation.isComposite

/-- The operands that a single operation registers from left to right, if it appends an
instruction: those that it was given, and the constants that it makes itself. -/
def operands? : Operation → Option (List Operand)
  | allocate _ => some [.value (.constant (.i32 1))]
  | allocateArray _ value | load value | atomicLoad value .. | cast _ _ value | extractValue value _
  | conditionalBranch value .. | indirectBranch value _ | literalSwitch value .. | ret value =>
    some [.value value]
  | store first second _ | atomicStore first second .. | binary _ first second
  | binaryWithFlags _ _ first second | compare _ first second | insertValue first second _ =>
    some [.value first, .value second]
  | select first second third | shuffleVector first second third =>
    some [.value first, .value second, .value third]
  | storeOperand destination operand _ => some [.value destination, operand]
  | binaryOperands _ lhs rhs | compareOperands _ lhs rhs => some [lhs, rhs]
  | call target arguments => some (.value target :: arguments.map Operand.value)
  | extractElement vector index => some [.value vector, .value (laneIndex index)]
  | insertElement vector value index =>
    some [.value vector, .value value, .value (laneIndex index)]
  | insertOperand vector operand index => some [.value vector, operand, .value (laneIndex index)]
  | elementPointer base indices _ => some (.value base :: indices.map Operand.value)
  | phi _ incoming => some (edgeOperands incoming)
  | switch condition _ cases => some (.value condition :: edgeOperands cases)
  | returnOperand operand => some [operand]
  | branch _ | retVoid | unreachable => some []
  | _ => none

/-- A single operation enters what it was given and nothing else. -/
theorem run_enters (operation : Operation) (single : operation.isSingle = true) :
    Enters operation.operands? operation.run := by
  cases operation with
  | nextParameter => exact nextParameter_enters.map _
  | createParameter ty => exact createParameter_enters.map _
  | argCounter => exact .look _
  | setNextName name => exact fun _ _ => .nothing rfl rfl
  | currentBlock => exact .look _
  | nextBlock => exact nextBlock_enters.map _
  | getNextBlock => exact getNextBlock_enters.map _
  | getBlock index => exact getBlock_enters.map _
  | blockIndex block => exact fun _ _ => .nothing rfl rfl
  | insertBlocks count => exact insertBlocks_enters.map _
  | allocate ty => exact allocateArray_enters.map _
  | allocateArray ty count => exact allocateArray_enters.map _
  | load source => exact load_enters.map _
  | atomicLoad source align volatile ordering scope => exact atomicLoad_enters.map _
  | store destination source align => exact atomicStore_enters.answering _
  | storeOperand destination operand align => exact storeOperand_enters.answering _
  | atomicStore destination source align volatile ordering scope =>
    exact atomicStore_enters.answering _
  | binary operator lhs rhs => exact binaryWithFlags_enters.map _
  | binaryWithFlags flags operator lhs rhs => exact binaryWithFlags_enters.map _
  | binaryOperands operator lhs rhs => exact binaryOperands_enters.map _
  | compare operator lhs rhs => exact compare_enters.map _
  | compareOperands operator lhs rhs => exact compareOperands_enters.map _
  | cast operator ty value => exact cast_enters.map _
  | call target arguments => exact call_enters.map _
  | extractElement vector index => exact extractElement_enters.map _
  | insertElement vector value index => exact insertElement_enters.map _
  | insertOperand vector operand index => exact insertOperand_enters.map _
  | extractValue aggregate index => exact extractValue_enters.map _
  | insertValue aggregate value index => exact insertValue_enters.map _
  | elementPointer base indices inbounds => exact elementPointer_enters.map _
  | select condition onTrue onFalse => exact select_enters.map _
  | shuffleVector first second mask => exact shuffleVector_enters.map _
  | phi ty incoming => exact phi_enters.map _
  | branch target => exact (emit_alone_enters rfl rfl).answering _
  | conditionalBranch condition onTrue onFalse => exact conditionalBranch_enters.answering _
  | indirectBranch address successors => exact indirectBranch_enters.answering _
  | switch condition otherwise cases => exact switch_enters.answering _
  | literalSwitch condition otherwise cases => exact literalSwitch_enters.answering _
  | ret value => exact ret_enters.answering _
  | returnOperand operand => exact returnOperand_enters.answering _
  | retVoid => exact (emit_alone_enters rfl rfl).answering _
  | unreachable => exact (emit_alone_enters rfl rfl).answering _
  | compareVector operator lhs rhs => cases single
  | fillVector source operands => cases single
  | returnWithCast value => cases single
  | vaStart list => cases single
  | vaEnd list => cases single
  | vaArg list ty => cases single
  | vaArgStackOnly list ty => cases single

end Operation

end IrAssembly
