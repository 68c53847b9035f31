import IrAssembly.Proofs.Builder.Frame
import IrAssembly.Proofs.Builder.Tabulation

/-! What refused patterns leave behind. A pattern checks what it is given on the way: a refusal at
its first step finds the state as it was, and one at a later step leaves the steps that were taken
in front of it. -/

namespace IrAssembly

/-- How many blocks and instructions there are. -/
def FunctionDef.size (function : FunctionDef) : Nat :=
  function.blocks.length + function.instructions.length

theorem FunctionDef.Grows.size_le {before after : FunctionDef} (grows : before.Grows after) :
    before.size ≤ after.size :=
  Nat.add_le_add grows.blocks grows.instructions.length_le

/-- With these arguments the first step of the pattern goes through, and a later one may be
refused. -/
inductive Operation.Opens : Operation → Prop where
  | compareVector (paired : Operand.resolvePair "compare" lhs rhs = .ok (left, right))
      (same : right.ty = left.ty) : Opens (.compareVector operator lhs rhs)
  | fillVector (pointer : source.ty = .ptr pointee) : Opens (.fillVector source operands)
  | vaArg (inRegisters : RegisterClass.ofTy? ty = some registers) : Opens (.vaArg list ty)
  | vaArgStackOnly (onStack : Build.isStackPassed ty = true) (pointer : list.ty = .ptr pointee)
      (tagged : Build.walk list.ty [Build.constant32 0, Build.constant32 0] = .ok tag) :
      Opens (.vaArgStackOnly list ty)

namespace Build

variable {α β : Type} {step : Build α} {next : α → Build β}

/-! First steps that are refused -/

/-- A step that never gives a value and leaves the state alone. -/
def Rejects (step : Build α) : Prop :=
  ∀ builder, Ends step builder (fun _ _ => False) fun _ after => after = builder

/-- Nothing happens behind a step that is refused. -/
theorem Rejects.bind (rejects : Rejects step) : Rejects (step >>= next) := by
  intro builder
  rw [ends_bind]
  exact (rejects builder).mono (fun _ _ never => never.elim) fun _ _ same => same

theorem Rejects.atomic (rejects : Rejects step) : Atomic step :=
  fun builder => (rejects builder).mono (fun _ _ _ => trivial) fun _ _ same _ _ => same

theorem compare_rejects {operator : CompareOperator} {lhs rhs : Value} (apart : rhs.ty ≠ lhs.ty) :
    Rejects (compare operator lhs rhs) := by
  intro builder
  simp only [compare, expectSameTy, expectTy, apart, ne_eq, not_false_eq_true, if_true]
  exact rfl

theorem compareOperands_rejects {operator : CompareOperator} {lhs rhs : Operand}
    (apart : ∀ left right, Operand.resolvePair "compare" lhs rhs = .ok (left, right) →
      right.ty ≠ left.ty) : Rejects (compareOperands operator lhs rhs) := by
  unfold compareOperands
  cases resolved : Operand.resolvePair "compare" lhs rhs with
  | error error => exact fun _ => rfl
  | ok pair => exact compare_rejects (apart pair.1 pair.2 resolved)

theorem load_rejects {source : Value} (noPointer : ∀ pointee, source.ty ≠ .ptr pointee) :
    Rejects (load source) := by
  refine Rejects.bind fun builder => ?_
  unfold expectPointer
  split
  · rename_i pointee pointer
    exact noPointer pointee pointer
  · rfl

theorem elementPointer_rejects {base : Value} {indices : List Value} {inbounds : Bool}
    (astray : ∀ pointee ty, base.ty = .ptr pointee → walk base.ty indices ≠ .ok ty) :
    Rejects (elementPointer base indices inbounds) := by
  intro builder
  unfold elementPointer expectPointer
  split
  · rename_i pointee pointer
    simp only [pure_bind]
    split
    · rfl
    · rename_i ty walked
      exact (astray pointee ty pointer walked).elim
  · rfl

/-! First steps that cannot be refused -/

theorem compareOperands_commits {operator : CompareOperator} {lhs rhs : Operand}
    {left right : Value} (paired : Operand.resolvePair "compare" lhs rhs = .ok (left, right))
    (same : right.ty = left.ty) : Commits (compareOperands operator lhs rhs) := by
  simp only [compareOperands, paired, accept, pure_bind, compare, expectSameTy, expectTy, same,
    ne_eq, not_true_eq_false, if_false]
  exact commits_operand fun _ => commits_operand fun _ => commits_emitValue

theorem load_commits {source : Value} {pointee : Ty} (pointer : source.ty = .ptr pointee) :
    Commits (load source) := by
  simp only [load, expectPointer, pointer, pure_bind]
  exact commits_layoutAlignment.bind fun _ => commits_operand fun _ => commits_emitValue

theorem elementPointer_commits {base : Value} {indices : List Value} {inbounds : Bool}
    {pointee ty : Ty} (pointer : base.ty = .ptr pointee) (walked : walk base.ty indices = .ok ty) :
    Commits (elementPointer base indices inbounds) := by
  rw [pointer] at walked
  simp only [elementPointer, expectPointer, pointer, pure_bind, walked]
  exact commits_operand fun _ => commits_symbols.bind fun _ => commits_emitValue

/-! The two intrinsics are called with what they take. -/

/-- A step that gives values of one type, unless its caller broke a rule. -/
def Gives (ty : Ty) (step : Build Value) : Prop :=
  ∀ builder, Ends step builder (fun value _ => value.ty = ty)
    fun failure _ => ∃ violation, failure = .violated violation

theorem emitValue_gives {ty : Ty} {instruction : ResultSlot → Instruction} :
    Gives ty (emitValue ty instruction) := by
  intro builder
  unfold emitValue
  rw [ends_bind]
  refine (commits_takeName builder).mono ?_ fun _ _ broken => broken
  intro name middle _
  rw [ends_bind, ends_get, ends_bind]
  exact (commits_edit middle).mono (fun _ _ _ => rfl) fun _ _ broken => broken

theorem cast_gives {operator : CastOperator} {ty : Ty} {value : Value} :
    Gives ty (cast operator ty value) := by
  intro builder
  unfold cast symbol
  rw [ends_bind]
  refine (commits_edit builder).mono ?_ fun _ _ broken => broken
  exact fun _ middle _ => emitValue_gives middle

theorem Gives.bind {ty : Ty} {step : Build Value} {next : Value → Build β} (gives : Gives ty step)
    (rest : ∀ value, value.ty = ty → Commits (next value)) : Commits (step >>= next) := by
  intro builder
  rw [ends_bind]
  exact (gives builder).mono (fun value middle hasTy => rest value hasTy middle)
    fun _ _ broken => broken

theorem call_commits {callee : FunctionRef} {argument : Value} {param : Ty}
    (takes : callee.signature.params = [param]) (hasTy : argument.ty = param) :
    Commits (call (.function callee) [argument]) := by
  simp only [call, calleeSignature, pure_bind, takes, List.length_singleton, Nat.lt_irrefl,
    and_false, or_false, if_false, expectArguments, expectTy, hasTy, ne_eq, not_true_eq_false]
  refine commits_operand fun target => commits_symbols.bind fun arguments => ?_
  split
  · exact commits_emit.bind fun _ => .pure
  · exact commits_emitValue.bind fun _ => .pure

/-- Steps that commit do not keep a step in front of them from being atomic. -/
theorem Atomic.commit (atomic : Atomic step) (rest : ∀ value, Commits (next value)) :
    Atomic (step >>= next) := by
  intro builder
  rw [ends_bind]
  refine (atomic builder).mono ?_ fun _ _ left => left
  intro value middle _
  refine (rest value middle).mono (fun _ _ _ => trivial) ?_
  rintro _ _ ⟨violation, rfl⟩ _ refused
  cases refused

theorem vaIntrinsic_atomic {intrinsic : Intrinsic} (takes : intrinsic.signature.params = [.ptr .i8])
    {list : Value} : Atomic (vaIntrinsic intrinsic list) := by
  refine elementPointer_atomic.commit fun tag => cast_gives.bind fun bytes hasTy => ?_
  exact (call_commits takes hasTy).bind fun _ => .pure

/-! First steps that go through -/

variable {builder : Builder} {given : List Operand}

/-- How a step fails behind a first one that went through: its caller broke a rule, or the function
is larger than it was. -/
def FailsBehind (builder : Builder) (failure : Failure) (after : Builder) : Prop :=
  (∃ violation, failure = .violated violation) ∨ builder.function.size < after.function.size

/-- An instruction that was appended stays, however the steps behind it end. -/
theorem larger_behind (enters : Enters (some given) step) (commits : Commits step)
    (straight : Straight builder.layout [] true false step)
    (rest : ∀ value, Straight builder.layout [] true false (next value))
    (isOpen : builder.function.finished = false) :
    Ends (step >>= next) builder (fun _ _ => True) (FailsBehind builder) := by
  have first := ((enters builder isOpen).and (commits builder)).and (straight.continues rfl isOpen)
  rw [ends_bind]
  refine first.mono ?_ fun _ _ broken => .inl broken.1.2
  rintro value middle ⟨⟨entered, _⟩, continues⟩
  have larger : builder.function.size < middle.function.size := by
    cases entered with
    | @instruction _ values instruction _ _ =>
      have blocks := continues.function.blocks
      have appended := builder.append_instructions values instruction
      simp only [FunctionDef.size, appended, List.length_append, List.length_singleton]
      omega
  refine ((rest value).continues continues.layout (continues.finished.trans isOpen)).mono
    (fun _ _ _ => trivial) ?_
  intro failure after further
  exact .inr (Nat.lt_of_lt_of_le larger further.function.size_le)

end Build

namespace Operation

open Build

variable {operation : Operation} {builder : Builder}

theorem run_atomic_of_not_opens (shut : ¬ operation.Opens) : Atomic operation.run := by
  by_cases basic : operation.isComposite = false
  · exact operation.run_atomic basic
  cases operation with
  | compareVector operator lhs rhs =>
    refine Atomic.map (compareOperands_rejects ?_).bind.atomic _
    exact fun left right paired same => shut (.compareVector paired same)
  | fillVector source operands =>
    refine Atomic.map (load_rejects ?_).bind.atomic _
    exact fun pointee pointer => shut (.fillVector pointer)
  | vaStart list => exact (vaIntrinsic_atomic rfl).answering _
  | vaEnd list => exact (vaIntrinsic_atomic rfl).answering _
  | vaArg list ty =>
    cases inRegisters : RegisterClass.ofTy? ty with
    | none =>
      rw [run, vaArg_of_inMemory inRegisters]
      exact (Atomic.refuse _).map _
    | some registers => exact absurd (.vaArg inRegisters) shut
  | vaArgStackOnly list ty =>
    refine Atomic.map ?_ _
    unfold Build.vaArgStackOnly
    split
    · exact .refuse _
    · rename_i onStack
      rw [Bool.not_eq_true, Bool.not_eq_false'] at onStack
      refine .check checks_layout fun layout => (elementPointer_rejects ?_).bind.atomic
      exact fun pointee tag pointer tagged => shut (.vaArgStackOnly onStack pointer tagged)
  | _ => exact absurd rfl basic

theorem larger_of_opens (opens : operation.Opens) (ready : builder.Ready) :
    Ends operation.run builder (fun _ _ => True) (FailsBehind builder) := by
  cases opens with
  | compareVector paired same =>
    rw [run, ends_map]
    refine larger_behind compareOperands_enters (compareOperands_commits paired same)
      .compareOperands (fun lanes => ?_) ready.isOpen
    split
    · exact .bind .extractElement fun _ => .foldLanes
    · exact .refuse _
  | fillVector pointer =>
    rw [run, ends_map]
    exact larger_behind load_enters (load_commits pointer) .load (fun vector => .insertOperands)
      ready.isOpen
  | @vaArg ty registers list inRegisters =>
    obtain ⟨rest, same, straight⟩ : ∃ rest : List BlockRef → Build Value,
        Build.vaArg list ty = Build.insertBlocks 3 >>= rest ∧
          ∀ inserted, Straight builder.layout [] true false (rest inserted) :=
      exists_vaArg_straight inRegisters list
    rw [run, ends_map, same, ends_bind, ends_insertBlocks ready.isOpen]
    have opened : (builder.insertBlocks 3).function.finished = false := ready.isOpen
    have larger : builder.function.size < (builder.insertBlocks 3).function.size := by
      simp [FunctionDef.size, Builder.insertBlocks, FunctionDef.splice, FunctionDef.emptyBlocks]
    have behind : Ends (rest (builder.function.freshRefs 3)) (builder.insertBlocks 3)
        (fun _ after => (builder.insertBlocks 3).Continues true after)
        fun _ after => (builder.insertBlocks 3).Continues true after :=
      (straight _).continues rfl opened
    refine behind.mono (fun _ _ _ => trivial) fun failure after continues => .inr ?_
    exact Nat.lt_of_lt_of_le larger continues.function.size_le
  | @vaArgStackOnly ty tag list pointee onStack pointer tagged =>
    obtain ⟨rest, same, straight⟩ := Straight.exists_vaArgStackOnly onStack list
    rw [run, ends_map, same, ends_bind, ends_layout]
    exact larger_behind elementPointer_enters (elementPointer_commits pointer tagged)
      .elementPointer straight ready.isOpen

/-- An operation that is refused leaves the state as it was, unless it is a pattern whose first step
went through. Then the steps in front of the refused one stay: new blocks and instructions, which
leave those that were there in their order. -/
theorem leftovers_of_refused (reachable : builder.Reachable) {error : BuildError}
    (refused : (operation.step builder).1 = .error (.refused error)) :
    (¬ operation.Opens → (operation.step builder).2 = builder) ∧
    (operation.Opens → builder.function.size < (operation.step builder).2.function.size ∧
      (∃ first others, Chain builder (first :: others) (operation.step builder).2) ∧
      builder.function.Extends (FunctionDef.movedBehind builder.position operation.insertedBlocks)
        (operation.step builder).2.function) := by
  have ready := reachable.ready
  constructor
  · intro shut
    exact (run_atomic_of_not_opens shut builder).of_error refused error rfl
  · intro opens
    have larger : builder.function.size < (operation.step builder).2.function.size := by
      refine ((larger_of_opens opens ready).of_error refused).resolve_left ?_
      rintro ⟨violation, broken⟩
      cases broken
    have keeps : ∀ violation, (operation.step builder).1 ≠ .error (.violated violation) := by
      intro violation broken
      rw [refused] at broken
      cases broken
    obtain ⟨parts, comes⟩ := exists_comesDownTo ready keeps
    refine ⟨larger, ?_, operation.step_extends ready⟩
    have chain := comes.chain
    generalize (operation.step builder).2 = after at larger chain
    cases chain with
    | done => exact absurd larger (Nat.lt_irrefl _)
    | perform single performed rest => exact ⟨_, _, .perform single performed rest⟩

/-- The numbers are compared before they are found to be no vectors. -/
theorem compareVector_leaves_comparison : ∃ (builder : Builder) (operation : Operation),
    builder.Reachable ∧ operation.isComposite = true ∧
    (operation.step builder).1 = .error (.refused (.notAVector "vector compare" .i1)) ∧
    ¬ ((operation.step builder).2.function = builder.function ∧
      (operation.step builder).2.current = builder.current ∧
      (operation.step builder).2.counter = builder.counter ∧
      (operation.step builder).2.argCounter = builder.argCounter) := by
  let number : Value := .parameter ⟨0, "arg_1", .i32⟩
  have reachable := Builder.Reachable.run (.fresh "f" ⟨.void, [.i32], false⟩)
    (Builder.run_start rfl .x86_64) [.nextParameter]
  refine ⟨_, .compareVector .intEqual number number, reachable, rfl, by decide +kernel, ?_⟩
  intro same
  have instructions := congrArg (fun function => function.instructions.length) same.1
  exact absurd instructions (by decide +kernel)

/-- The vector is loaded and its first lane is filled before the second number turns out to be too
long for its lane. -/
theorem fillVector_leaves_first_lane : ∃ (builder : Builder) (operation : Operation),
    builder.Reachable ∧
    (operation.step builder).1 =
      .error (.refused (.typeMismatch "insertelement" .i8 .i32)) ∧
    operation.Opens ∧ builder.function.size < (operation.step builder).2.function.size ∧
    ∃ first others, Chain builder (first :: others) (operation.step builder).2 := by
  let vector : Value := .parameter ⟨0, "arg_1", .ptr (.vector 2 .i8)⟩
  let number : Value := .parameter ⟨1, "arg_2", .i32⟩
  have reachable := Builder.Reachable.run (.fresh "f" ⟨.void, [.ptr (.vector 2 .i8), .i32], false⟩)
    (Builder.run_start rfl .x86_64) [.nextParameter, .nextParameter]
  have opens : (fillVector vector [Literal.int 7, number]).Opens := .fillVector rfl
  refine ⟨_, fillVector vector [Literal.int 7, number], reachable, by decide +kernel, opens, ?_⟩
  obtain ⟨larger, chain, _⟩ := (leftovers_of_refused reachable
    (show ((fillVector vector [Literal.int 7, number]).step _).1 =
      .error (.refused (.typeMismatch "insertelement" .i8 .i32)) from by decide +kernel)).2 opens
  exact ⟨larger, chain⟩

end Operation

end IrAssembly
