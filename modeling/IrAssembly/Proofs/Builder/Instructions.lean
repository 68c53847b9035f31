import IrAssembly.Proofs.Builder.Acts

/-! Every operation that builds one instruction does nothing else: its operands are values that it
was given or makes itself, and the instruction it appends follows the typing rules. -/

namespace IrAssembly.Build

variable {values : List Value} {blocks : List BlockRef} {names : List String} {builder : Builder}

/-- The value that an operation returns belongs to the function. -/
abbrev GivesOwned (value : Value) (after : Builder) : Prop := after.function.Owns value

abbrev GivesNothing (_ : Unit) (_ : Builder) : Prop := True

/-- An instruction without blocks aims at none. -/
theorem aimless {instruction : Instruction} (none : instruction.blocks = []) :
    ∀ ref ∈ instruction.blocks, builder.Aims blocks ref := by
  simp [none]

/-! Memory -/

theorem allocateArray_acts {ty : Ty} {count : Value} (known : builder.Known values count) :
    Acts values blocks names (allocateArray ty count) builder GivesOwned := by
  intro ready
  rw [allocateArray, ends_bind]
  apply ends_expectInteger (fun _ => .inl rfl)
  intro bits integer
  rw [ends_operand ready.isOpen]
  simp only [layoutAlignment, ends_bind, ends_layout]
  apply ends_encoded
  · intro violation
    exact .inr ⟨⟨violation, rfl⟩, .register [count] (by simpa using known)⟩
  · intro align _
    refine emitValue_acts ready (fun _ => rfl) (by simpa using known) (aimless rfl) rfl ?_
    have counted : (builder.function.withSymbols [count]).tyOf? builder.function.symbols.length =
        some (.int bits) := by
      simp [integer]
    exact .allocate counted

theorem atomicLoad_acts {source : Value} {align : Nat} {volatile : Bool}
    {ordering : AtomicOrdering} {scope : SynchronizationScope}
    (known : builder.Known values source) :
    Acts values blocks names (atomicLoad source align volatile ordering scope) builder
      GivesOwned := by
  intro ready
  rw [atomicLoad, ends_bind]
  apply ends_expectPointer (fun _ => .inl rfl)
  intro pointee pointer
  rw [ends_bind]
  apply ends_encoded (fun _ => .inl rfl)
  intro align _
  rw [ends_operand ready.isOpen]
  refine emitValue_acts ready (fun _ => rfl) (by simpa using known) (aimless rfl) rfl ?_
  exact .load (by simp [pointer])

theorem load_acts {source : Value} (known : builder.Known values source) :
    Acts values blocks names (load source) builder GivesOwned := by
  intro ready
  rw [load, ends_bind]
  apply ends_expectPointer (fun _ => .inl rfl)
  intro pointee pointer
  simp only [layoutAlignment, ends_bind, ends_layout]
  apply ends_encoded (fun _ => .inl rfl)
  intro align _
  rw [ends_symbol ready.isOpen]
  refine emitValue_acts ready (fun _ => rfl) (by simpa using known) (aimless rfl) rfl ?_
  exact .load (by simp [pointer])

theorem atomicStore_acts {destination source : Value} {align : Nat} {volatile : Bool}
    {ordering : AtomicOrdering} {scope : SynchronizationScope}
    (destinationKnown : builder.Known values destination)
    (sourceKnown : builder.Known values source) :
    Acts values blocks names (atomicStore destination source align volatile ordering scope) builder
      GivesNothing := by
  intro ready
  rw [atomicStore, ends_bind]
  apply ends_expectPointer (fun _ => .inl rfl)
  intro pointee pointer
  rw [ends_bind]
  apply ends_expectTy (fun _ => .inl rfl)
  intro stored
  rw [ends_bind]
  apply ends_encoded (fun _ => .inl rfl)
  intro align _
  rw [ends_operand ready.isOpen, ends_nextOperand ready.isOpen]
  refine emit_acts ready rfl (by simp [destinationKnown, sourceKnown]) (aimless rfl) rfl ?_
  have target : (builder.function.withSymbols [destination, source]).tyOf?
      builder.function.symbols.length = some (.ptr pointee) := by
    simp [pointer]
  exact .store target (by simp [stored])

/-! Arithmetic -/

theorem binaryWithFlags_acts {flags : List BinaryFlag} {operator : BinaryOperator}
    {lhs rhs : Value} (lhsKnown : builder.Known values lhs) (rhsKnown : builder.Known values rhs) :
    Acts values blocks names (binaryWithFlags flags operator lhs rhs) builder GivesOwned := by
  intro ready
  rw [binaryWithFlags, ends_bind]
  apply ends_expectSameTy (fun _ => .inl rfl)
  intro same
  rw [ends_operand ready.isOpen, ends_nextOperand ready.isOpen]
  refine emitValue_acts ready (fun _ => rfl) (by simp [lhsKnown, rhsKnown]) (aimless rfl) rfl ?_
  exact .binary (by simp) (by simp [same])

theorem compare_acts {operator : CompareOperator} {lhs rhs : Value}
    (lhsKnown : builder.Known values lhs) (rhsKnown : builder.Known values rhs) :
    Acts values blocks names (compare operator lhs rhs) builder GivesOwned := by
  intro ready
  rw [compare, ends_bind]
  apply ends_expectSameTy (fun _ => .inl rfl)
  intro same
  rw [ends_operand ready.isOpen, ends_nextOperand ready.isOpen]
  refine emitValue_acts ready (fun _ => rfl) (by simp [lhsKnown, rhsKnown]) (aimless rfl) rfl ?_
  have left : (builder.function.withSymbols [lhs, rhs]).tyOf? builder.function.symbols.length =
      some lhs.ty := by
    simp
  have right : (builder.function.withSymbols [lhs, rhs]).tyOf?
      (builder.function.symbols.length + 1) = some lhs.ty := by
    simp [same]
  cases kind : lhs.ty with
  | vector lanes element =>
    rw [kind] at left right
    exact .compareLanes left right
  | _ =>
    rw [kind] at left right
    exact .compare left right rfl

theorem cast_acts {operator : CastOperator} {ty : Ty} {value : Value}
    (known : builder.Known values value) :
    Acts values blocks names (cast operator ty value) builder GivesOwned := by
  intro ready
  rw [cast, ends_operand ready.isOpen]
  refine emitValue_acts ready (fun _ => rfl) (by simpa using known) (aimless rfl) rfl ?_
  have source : (builder.function.withSymbols [value]).tyOf? builder.function.symbols.length =
      some value.ty := by
    simp
  exact .cast source

/-! Calls -/

/-- A callable target has a function type below its pointers. -/
theorem ends_calleeSignature {done : Signature → Builder → Prop}
    {failed : Failure → Builder → Prop} {target : Value}
    (refused : ∀ error, failed (.refused error) builder)
    (passed : ∀ signature, target.ty.stripPointers = signature.toTy →
      (builder.function.Owns target → builder.function.MayCall target) → done signature builder) :
    Ends (calleeSignature target) builder done failed := by
  unfold calleeSignature
  extract_lets ty throughPointers
  -- all targets but functions are looked at below their pointers
  have below : (builder.function.Owns target → builder.function.MayCall target) →
      Ends throughPointers builder done failed := by
    intro callable
    dsimp only [throughPointers, ty]
    cases stripped : target.ty.stripPointers with
    | func result params vararg => exact passed ⟨result, params, vararg⟩ stripped callable
    | _ => exact refused _
  cases target with
  | function callee => exact passed callee.signature rfl fun _ => trivial
  | parameter formal => exact below id
  | constant known =>
    cases known with
    | inlineAsm assembly => exact below id
    | _ => exact refused _
  | result slot =>
    rw [ends_bind, ends_function]
    cases found : builder.function.instruction? slot.id with
    | none => exact refused _
    | some instruction =>
      cases instruction with
      | load result source access =>
        refine below fun owned => ?_
        obtain ⟨instruction, present, named⟩ := owned
        rw [found] at present
        cases present
        cases named
        exact ⟨source, access, found⟩
      | _ => exact refused _

theorem ends_expectArguments {done : Unit → Builder → Prop} {failed : Failure → Builder → Prop}
    {params : List Ty} {arguments : List Value} (enough : params.length ≤ arguments.length)
    (refused : ∀ error, failed (.refused error) builder)
    (passed : (∀ (position : Nat) (param : Ty), params[position]? = some param →
      ∃ argument, arguments[position]? = some argument ∧ argument.ty = param) → done () builder) :
    Ends (expectArguments params arguments) builder done failed := by
  induction params generalizing arguments with
  | nil =>
    unfold expectArguments
    exact passed (by simp)
  | cons param params ih =>
    cases arguments with
    | nil => simp at enough
    | cons argument arguments =>
      rw [expectArguments, ends_bind]
      apply ends_expectTy refused
      intro first
      apply ih (Nat.le_of_succ_le_succ enough)
      intro others
      apply passed
      intro position
      cases position with
      | zero =>
        intro ty same
        cases same
        exact ⟨argument, rfl, first⟩
      | succ position => exact others position

/-- Registered behind its target, the arguments that were checked are passed to the signature. -/
theorem passes_registered {function : FunctionDef} {target : Value} {arguments : List Value}
    {signature : Signature} (below : target.ty.stripPointers = signature.toTy)
    (leading : ∀ (position : Nat) (param : Ty), signature.params[position]? = some param →
      ∃ argument, arguments[position]? = some argument ∧ argument.ty = param) :
    (function.withSymbols (target :: arguments)).Passes function.symbols.length
      (List.range' (function.symbols.length + 1) arguments.length) signature where
  target := ⟨target, by simp, below⟩
  leading := by
    intro position param declared
    obtain ⟨argument, given, same⟩ := leading position param declared
    have bound : position < arguments.length := (List.getElem?_eq_some_iff.mp given).1
    refine ⟨_, List.getElem?_range' bound, ?_⟩
    rw [Nat.one_mul, Nat.add_assoc, FunctionDef.tyOf?_withSymbols, Nat.add_comm 1,
      List.getElem?_cons_succ, given, ← same]
    rfl

/-- With the right number of them they are the arguments of a call. -/
theorem calls_registered {function : FunctionDef} {target : Value} {arguments : List Value}
    {signature : Signature} (callable : function.MayCall target)
    (below : target.ty.stripPointers = signature.toTy)
    (count : if signature.vararg then signature.params.length ≤ arguments.length
      else arguments.length = signature.params.length)
    (leading : ∀ (position : Nat) (param : Ty), signature.params[position]? = some param →
      ∃ argument, arguments[position]? = some argument ∧ argument.ty = param) :
    (function.withSymbols (target :: arguments)).Calls function.symbols.length
      (List.range' (function.symbols.length + 1) arguments.length) signature where
  target := ⟨target, by simp, callable.mono (.withSymbols ..), below⟩
  count := by simpa using count
  leading := (passes_registered below leading).leading
  known := by
    intro index member
    obtain ⟨position, bound, rfl⟩ := List.mem_range'.mp member
    refine ⟨arguments[position], ?_⟩
    rw [Nat.one_mul, Nat.add_assoc, FunctionDef.symbol?_withSymbols, Nat.add_comm 1,
      List.getElem?_cons_succ, List.getElem?_eq_getElem bound]

theorem call_acts {target : Value} {arguments : List Value}
    (targetKnown : builder.Known values target)
    (argumentsKnown : ∀ argument ∈ arguments, builder.Known values argument) :
    Acts values blocks names (call target arguments) builder
      (fun result after => ∀ value ∈ result, after.function.Owns value) := by
  intro ready
  rw [call, ends_bind]
  apply ends_calleeSignature (fun _ => .inl rfl)
  intro signature below callable
  have known : ∀ value ∈ target :: arguments, builder.Known values value := by
    simpa using ⟨targetKnown, argumentsKnown⟩
  dsimp only
  split
  · exact .inl rfl
  · rename_i counted
    rw [not_or, Nat.not_lt] at counted
    obtain ⟨enough, notMore⟩ := counted
    have count : if signature.vararg then signature.params.length ≤ arguments.length
        else arguments.length = signature.params.length := by
      split
      · exact enough
      · rename_i fixed
        simp only [Bool.not_eq_true] at fixed
        simp only [fixed, Bool.not_false, true_and, Nat.not_lt] at notMore
        exact Nat.le_antisymm notMore enough
    rw [ends_bind]
    apply ends_expectArguments enough (fun _ => .inl rfl)
    intro leading
    have stillOpen : (builder.register [target]).function.finished = false := ready.isOpen
    rw [ends_operand ready.isOpen, ends_bind, ends_symbols stillOpen, Builder.register_register,
      Builder.register_function, FunctionDef.length_symbols_withSymbols]
    have calls (owned : ∀ value ∈ target :: arguments, builder.function.Owns value) :=
      calls_registered (callable (owned target (List.mem_cons_self ..))) below count leading
    have passes := @passes_registered builder.function _ _ _ below leading
    split
    · rename_i nothing
      have void : signature.result = .void := by
        cases result : signature.result <;> simp_all [Signature.returnsVoid, Ty.isVoid]
      have acted : Ends (emit (.voidCall builder.function.symbols.length
          (List.range' (builder.function.symbols.length + 1) arguments.length)))
          (builder.register ([target] ++ arguments))
          (fun _ after => Effect values blocks names builder after ∧ True) (fun _ _ => False) :=
        emit_acts_of_checked ready rfl known (aimless rfl) rfl
          (fun owned => .voidCall (calls owned) void) (.voidCall passes)
      rw [ends_bind]
      exact acted.mono (fun _ after ends => ⟨ends.1, by simp⟩) fun _ _ => False.elim
    · rename_i valued
      have notVoid : signature.result ≠ .void := by
        intro void
        simp [Signature.returnsVoid, void, Ty.isVoid] at valued
      have acted : Ends (emitValue signature.result fun result =>
          .call result builder.function.symbols.length
            (List.range' (builder.function.symbols.length + 1) arguments.length))
          (builder.register ([target] ++ arguments))
          (fun value after => Effect values blocks names builder after ∧ after.function.Owns value)
          (fun _ _ => False) :=
        emitValue_acts_of_checked ready (fun _ => rfl) known (aimless rfl) rfl
          (fun owned => .call (calls owned) notVoid) (.call passes)
      rw [ends_bind]
      exact acted.mono (fun value after ends => ⟨ends.1, by simpa using ends.2⟩)
        fun _ _ => False.elim

/-! Vectors and aggregates -/

theorem known_laneIndex {index : UInt32} : builder.Known values (laneIndex index) := .inr trivial

@[simp] theorem ty_laneIndex (index : UInt32) : (laneIndex index).ty = .i32 := rfl

theorem extractElement_acts {vector : Value} {index : UInt32}
    (known : builder.Known values vector) :
    Acts values blocks names (extractElement vector index) builder GivesOwned := by
  intro ready
  rw [extractElement, ends_bind]
  apply ends_expectVector (fun _ => .inl rfl)
  intro len element lanes
  rw [ends_operand ready.isOpen, ends_nextOperand ready.isOpen]
  refine emitValue_acts ready (fun _ => rfl) ?_ (aimless rfl) rfl ?_
  · simpa [known] using known_laneIndex
  · have whole : (builder.function.withSymbols [vector, laneIndex index]).tyOf?
        builder.function.symbols.length = some (.vector len element) := by
      simp [lanes]
    exact .extractElement whole (by simp)

theorem insertElement_acts {vector value : Value} {index : UInt32}
    (vectorKnown : builder.Known values vector) (valueKnown : builder.Known values value) :
    Acts values blocks names (insertElement vector value index) builder GivesOwned := by
  intro ready
  rw [insertElement, ends_bind]
  apply ends_expectVector (fun _ => .inl rfl)
  intro len element lanes
  rw [ends_bind]
  apply ends_expectTy (fun _ => .inl rfl)
  intro lane
  rw [ends_operand ready.isOpen, ends_nextOperand ready.isOpen, ends_nextOperand ready.isOpen,
    lanes]
  refine emitValue_acts ready (fun _ => rfl) ?_ (aimless rfl) rfl ?_
  · simpa [vectorKnown, valueKnown] using known_laneIndex
  · exact .insertElement (by simp [lanes]) (by simp [lane]) (by simp)

theorem ends_aggregateMember {done : Ty → Builder → Prop} {failed : Failure → Builder → Prop}
    {operation : String} {aggregate : Ty} {index : UInt64}
    (refused : ∀ error, failed (.refused error) builder)
    (passed : ∀ member, aggregate.member? index.toNat = some member →
      aggregate.isVector = false → done member builder) :
    Ends (aggregateMember operation aggregate index) builder done failed := by
  unfold aggregateMember
  cases aggregate with
  | array len element => exact passed element rfl rfl
  | struct name fields packed =>
    dsimp only
    cases found : Ty.member? (.struct name fields packed) index.toNat with
    | none => exact refused _
    | some member => exact passed member found rfl
  | _ => exact refused _

theorem extractValue_acts {aggregate : Value} {index : UInt64}
    (known : builder.Known values aggregate) :
    Acts values blocks names (extractValue aggregate index) builder GivesOwned := by
  intro ready
  rw [extractValue, ends_bind]
  apply ends_aggregateMember (fun _ => .inl rfl)
  intro member found composite
  rw [ends_operand ready.isOpen]
  refine emitValue_acts ready (fun _ => rfl) (by simpa using known) (aimless rfl) rfl ?_
  exact .extractValue (by simp) composite found

theorem insertValue_acts {aggregate value : Value} {index : UInt64}
    (aggregateKnown : builder.Known values aggregate) (valueKnown : builder.Known values value) :
    Acts values blocks names (insertValue aggregate value index) builder GivesOwned := by
  intro ready
  rw [insertValue, ends_bind]
  apply ends_aggregateMember (fun _ => .inl rfl)
  intro member found composite
  rw [ends_bind]
  apply ends_expectTy (fun _ => .inl rfl)
  intro replaced
  rw [ends_operand ready.isOpen, ends_nextOperand ready.isOpen]
  refine emitValue_acts ready (fun _ => rfl) (by simp [aggregateKnown, valueKnown]) (aimless rfl)
    rfl ?_
  exact .insertValue (by simp) composite found (by simp [replaced])

/-- A step of an address computation is a step of the types that it reaches. -/
theorem reaches_of_stepInto {ty next reached : Ty} {index : Value} {indices : List Value}
    (stepped : stepInto ty index = .ok next) (rest : Ty.Reaches next indices reached) :
    Ty.Reaches ty (index :: indices) reached := by
  cases ty with
  | array len element =>
    cases stepped
    exact .array rest
  | vector len element =>
    cases stepped
    exact .vector rest
  | ptr pointee =>
    cases stepped
    exact .pointer rest
  | struct name fields packed =>
    cases index with
    | constant known =>
      cases known with
      | int indexTy position =>
        simp only [stepInto, Value.asConstant?, Constant.asInteger?, Option.bind_some] at stepped
        split at stepped
        · rename_i member selected
          cases stepped
          obtain ⟨inRange, found⟩ := Option.ite_none_right_eq_some.mp selected
          exact .field inRange found rest
        · cases stepped
      | _ => simp [stepInto, Value.asConstant?, Constant.asInteger?] at stepped
    | _ => simp [stepInto, Value.asConstant?] at stepped
  | _ =>
    cases stepped
    exact .scalar rfl rfl (by simp) rest

theorem reaches_of_walk {ty reached : Ty} {indices : List Value}
    (walked : walk ty indices = .ok reached) : Ty.Reaches ty indices reached := by
  induction indices generalizing ty with
  | nil =>
    cases walked
    exact .here
  | cons index indices ih =>
    rw [walk] at walked
    cases stepped : stepInto ty index with
    | error error =>
      rw [stepped] at walked
      cases walked
    | ok next =>
      rw [stepped] at walked
      exact reaches_of_stepInto stepped (ih walked)

theorem elementPointer_acts {base : Value} {indices : List Value} {inbounds : Bool}
    (baseKnown : builder.Known values base)
    (indicesKnown : ∀ index ∈ indices, builder.Known values index) :
    Acts values blocks names (elementPointer base indices inbounds) builder GivesOwned := by
  intro ready
  rw [elementPointer, ends_bind]
  apply ends_expectPointer (fun _ => .inl rfl)
  intro pointee pointer
  split
  · exact .inl rfl
  · rename_i reached walked
    have stillOpen : (builder.register [base]).function.finished = false := ready.isOpen
    rw [ends_operand ready.isOpen, ends_bind, ends_symbols stillOpen, Builder.register_register,
      Builder.register_function, FunctionDef.length_symbols_withSymbols]
    refine emitValue_acts ready (fun _ => rfl) ?_ (aimless rfl) rfl ?_
    · simpa using ⟨baseKnown, indicesKnown⟩
    · have start : (builder.function.withSymbols ([base] ++ indices)).tyOf?
          builder.function.symbols.length = some (.ptr pointee) := by
        simp [pointer]
      exact .elementPointer start (FunctionDef.registered _ [base] indices)
        (pointer ▸ reaches_of_walk walked)

theorem condition_of_isSelectCondition {ty : Ty} (chooses : isSelectCondition ty = true) :
    ty = .i1 ∨ ∃ lanes, ty = .vector lanes .i1 := by
  cases ty with
  | vector lanes element =>
    have bit : element = .i1 := by simpa [isSelectCondition] using chooses
    exact .inr ⟨lanes, bit ▸ rfl⟩
  | _ => exact .inl (by simpa [isSelectCondition] using chooses)

theorem select_acts {condition onTrue onFalse : Value}
    (conditionKnown : builder.Known values condition) (trueKnown : builder.Known values onTrue)
    (falseKnown : builder.Known values onFalse) :
    Acts values blocks names (select condition onTrue onFalse) builder GivesOwned := by
  intro ready
  rw [select]
  split
  · exact .inl rfl
  · rename_i accepted
    have chooses : isSelectCondition condition.ty = true := by simpa using accepted
    rw [ends_bind]
    apply ends_expectSameTy (fun _ => .inl rfl)
    intro same
    rw [ends_operand ready.isOpen, ends_nextOperand ready.isOpen, ends_nextOperand ready.isOpen]
    refine emitValue_acts ready (fun _ => rfl) (by simp [conditionKnown, trueKnown, falseKnown])
      (aimless rfl) rfl ?_
    have chosen : (builder.function.withSymbols ([condition] ++ [onTrue] ++ [onFalse])).tyOf?
        builder.function.symbols.length = some condition.ty := by
      simp
    exact .select (condition_of_isSelectCondition chooses) chosen (by simp) (by simp [same])

theorem ends_maskLanes {done : UInt32 → Builder → Prop} {failed : Failure → Builder → Prop}
    {mask : Value} (refused : ∀ error, failed (.refused error) builder)
    (passed : ∀ lanes, mask.ty = .vector lanes .i32 → done lanes builder) :
    Ends (maskLanes mask) builder done failed := by
  unfold maskLanes
  split
  · rename_i lanes same
    exact passed lanes same
  · exact refused _

theorem shuffleVector_acts {first second mask : Value}
    (firstKnown : builder.Known values first) (secondKnown : builder.Known values second)
    (maskKnown : builder.Known values mask) :
    Acts values blocks names (shuffleVector first second mask) builder GivesOwned := by
  intro ready
  rw [shuffleVector, ends_bind]
  apply ends_expectSameTy (fun _ => .inl rfl)
  intro same
  rw [ends_bind]
  apply ends_expectVector (fun _ => .inl rfl)
  intro len element lanes
  rw [ends_bind]
  apply ends_maskLanes (fun _ => .inl rfl)
  intro picked picks
  rw [ends_operand ready.isOpen, ends_nextOperand ready.isOpen, ends_nextOperand ready.isOpen]
  refine emitValue_acts ready (fun _ => rfl) (by simp [firstKnown, secondKnown, maskKnown])
    (aimless rfl) rfl ?_
  have left : (builder.function.withSymbols ([first] ++ [second] ++ [mask])).tyOf?
      builder.function.symbols.length = some (.vector len element) := by
    simp [lanes]
  exact .shuffleVector left (by simp [same, lanes]) (by simp [picks])

end IrAssembly.Build
