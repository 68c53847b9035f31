import IrAssembly.Proofs.Execution.Code

/-! What each kind of instruction does to a run that is followed while the instruction is appended:
the operation appends it, and the run goes over it to the value that its operands give. -/

namespace IrAssembly

/-- Instructions with a result do not end a block. -/
theorem Instruction.isTerminator_of_result? {instruction : Instruction} {slot : ResultSlot}
    (slotted : instruction.result? = some slot) : instruction.isTerminator = false := by
  cases instruction <;> first | rfl | cases slotted

namespace Builder

/-- The instruction was appended behind its operands. -/
structure Puts (operands : List Value) (instruction : Instruction) (builder after : Builder) :
    Prop where
  after : after = builder.append operands instruction

/-- The instruction was appended behind its operands, and its result is the value. -/
structure Appends (operands : List Value) (instruction : ResultSlot → Instruction) (ty : Ty)
    (builder : Builder) (value : Value) (after : Builder) : Prop
    extends builder.Puts operands (instruction ⟨builder.resultName, ty⟩) after where
  value : value = .result ⟨builder.nextId, builder.resultName, ty⟩

namespace Puts

variable {operands : List Value} {instruction : Instruction} {builder after : Builder}

theorem found (puts : builder.Puts operands instruction after) :
    after.function.instruction? builder.nextId = some instruction := by
  rw [puts.after, found_append]

theorem nextId (puts : builder.Puts operands instruction after) :
    after.nextId = builder.nextId + 1 := by
  rw [puts.after, nextId_append]

theorem current (puts : builder.Puts operands instruction after) :
    after.current = builder.current := by
  rw [puts.after, append_current]

theorem layout (puts : builder.Puts operands instruction after) :
    after.layout = builder.layout := by
  rw [puts.after, append_layout]

theorem isOpen (puts : builder.Puts operands instruction after)
    (isOpen : builder.function.finished = false) : after.function.finished = false := by
  rw [puts.after]
  exact isOpen_append isOpen ..

theorem grows (puts : builder.Puts operands instruction after) :
    builder.function.Grows after.function := by
  rw [puts.after]
  exact grows_append ..

theorem symbols (puts : builder.Puts operands instruction after) :
    after.function.SymbolsFrom builder.function.symbols.length operands := by
  rw [puts.after]
  exact builder.symbolsFrom_append operands _

end Puts

section Kinds

variable (builder : Builder)

/-- A load of a value of this type was appended. -/
abbrev Loads (source : Value) (align : UInt32) (ty : Ty) : Value → Builder → Prop :=
  builder.Appends [source]
    (fun slot => .load slot builder.function.symbols.length (.aligned align)) ty

/-- A cast to this type was appended. -/
abbrev Casts (operator : CastOperator) (source : Value) (ty : Ty) : Value → Builder → Prop :=
  builder.Appends [source] (fun slot => .cast slot operator builder.function.symbols.length) ty

/-- An address computation that leads to this type was appended. -/
abbrev Points (base : Value) (indices : List Value) (inbounds : Bool) (ty : Ty) :
    Value → Builder → Prop :=
  builder.Appends (base :: indices) (fun slot => .elementPointer slot
    builder.function.symbols.length
    (List.range' (builder.function.symbols.length + 1) indices.length) inbounds) (.ptr ty)

/-- An allocation of one element was appended. -/
abbrev Allocates (ty : Ty) (align : UInt32) : Value → Builder → Prop :=
  builder.Appends [.constant (.i32 1)]
    (fun slot => .allocate slot ty builder.function.symbols.length align) (.ptr ty)

/-- A store was appended. -/
abbrev Stores (destination source : Value) (align : UInt32) : Builder → Prop :=
  builder.Puts [destination, source] (.store builder.function.symbols.length
    (builder.function.symbols.length + 1) (.aligned align))

/-- A call of an intrinsic was appended. -/
abbrev Calls (intrinsic : Intrinsic) (arguments : List Value) : Builder → Prop :=
  builder.Puts (.function intrinsic.callable :: arguments)
    (.voidCall builder.function.symbols.length
      (List.range' (builder.function.symbols.length + 1) arguments.length))

end Kinds

namespace Appends

variable {given made operands : List Value} {new : List Instruction}
  {instruction : ResultSlot → Instruction} {ty : Ty} {start builder after : Builder} {value : Value}

theorem hasTy (appends : builder.Appends operands instruction ty value after) : value.ty = ty := by
  rw [appends.value]
  rfl

theorem writes (appends : builder.Appends operands instruction ty value after)
    (writes : start.Writes given made new builder)
    (among : ∀ value ∈ operands, value.Among (made ++ given))
    (slotted : ∀ slot, (instruction slot).result? = some slot)
    (consecutive : ∀ slot, (instruction slot).operands =
      List.range' builder.function.symbols.length operands.length) :
    start.Writes given (value :: made) (new ++ [instruction ⟨builder.resultName, ty⟩]) after := by
  obtain ⟨⟨rfl⟩, rfl⟩ := appends
  have later : start.nextId ≤ builder.nextId := writes.nextId ▸ Nat.le_add_right ..
  have appended := writes.append (fun _ => among) (consecutive ⟨builder.resultName, ty⟩)
  exact appended.keep later (slotted _)

end Appends

end Builder

namespace Build

variable {builder : Builder} {ty : Ty} {align : UInt32}

variable {α β : Type} {step : Build α} {next : α → Build β} {between : α → Builder → Prop}
  {done : β → Builder → Prop} {early failed : Failure → Builder → Prop}

theorem Ends.andThen (first : Ends step builder between early)
    (rest : ∀ value middle, between value middle → Ends (next value) middle done failed)
    (stops : ∀ failure after, early failure after → failed failure after) :
    Ends (step >>= next) builder done failed := by
  rw [ends_bind]
  exact first.mono rest stops

theorem Succeeds.andThen (first : Succeeds step builder between)
    (rest : ∀ value middle, between value middle → Ends (next value) middle done failed) :
    Ends (step >>= next) builder done failed :=
  Ends.andThen first rest fun _ _ never => never.elim

/-! What the operations append -/

theorem emitValue_appends {operands : List Value} {instruction : ResultSlot → Instruction}
    (isOpen : builder.function.finished = false)
    (slotted : ∀ slot, (instruction slot).result? = some slot) :
    Succeeds (emitValue ty instruction) (builder.register operands)
      (builder.Appends operands instruction ty) := by
  rw [Succeeds, ends_emitValue_registered isOpen slotted]
  exact ⟨⟨rfl⟩, rfl⟩

/-- Instructions without a result. -/
theorem emit_puts {operands : List Value} {instruction : Instruction}
    (isOpen : builder.function.finished = false) (plain : instruction.result? = none) :
    Succeeds (emit instruction) (builder.register operands) fun _ =>
      builder.Puts operands instruction :=
  (ends_emit_registered isOpen plain).mpr ⟨rfl⟩

/-- Alignments are encoded unless they are no powers of two. -/
theorem encoded_ends (given : Nat) :
    Ends (encoded given) builder
      (fun align after => encodeAlignment given = .ok align ∧ after = builder)
      fun _ _ => ¬ given.isPowerOfTwo := by
  unfold encoded
  split
  · rename_i align encodes
    exact ⟨encodes, rfl⟩
  · rename_i violation refused
    exact (encodeAlignment_eq_error_iff.mp refused).2.2

/-- A step that fails at nothing but an alignment. -/
theorem succeeds_of_power {α : Type} {step : Build α} {done : α → Builder → Prop} {given : Nat}
    (ends : Ends step builder done fun _ _ => ¬ given.isPowerOfTwo) (power : given.isPowerOfTwo) :
    Succeeds step builder done :=
  ends.mono (fun _ _ same => same) fun _ _ uneven => absurd power uneven

theorem allocate_ends (isOpen : builder.function.finished = false) :
    Ends (allocate ty) builder
      (fun value after => ∃ align, encodeAlignment (builder.layout.alignOf ty) = .ok align ∧
        builder.Allocates ty align value after)
      fun _ _ => ¬ (builder.layout.alignOf ty).isPowerOfTwo := by
  have integer : expectInteger "alloca" (.constant (.i32 1)) = pure () := rfl
  rw [allocate, allocateArray, integer, pure_bind, ends_operand isOpen, layoutAlignment, ends_bind,
    ends_bind, ends_layout]
  refine (encoded_ends _).mono ?_ fun _ _ uneven => uneven
  rintro align _ ⟨encodes, rfl⟩
  refine (emitValue_appends isOpen fun _ => rfl).mono ?_ fun _ _ never => never.elim
  exact fun value after appends => ⟨align, encodes, appends⟩

theorem load_ends {source : Value} (isOpen : builder.function.finished = false)
    (pointer : source.ty = .ptr ty) :
    Ends (load source) builder
      (fun value after => ∃ align, encodeAlignment (builder.layout.alignOf ty) = .ok align ∧
        builder.Loads source align ty value after)
      fun _ _ => ¬ (builder.layout.alignOf ty).isPowerOfTwo := by
  simp only [load, layoutAlignment, expectPointer, pointer, pure_bind]
  rw [ends_bind, ends_bind, ends_layout]
  refine (encoded_ends _).mono ?_ fun _ _ uneven => uneven
  rintro align _ ⟨encodes, rfl⟩
  rw [ends_operand isOpen]
  refine (emitValue_appends isOpen fun _ => rfl).mono ?_ fun _ _ never => never.elim
  exact fun value after appends => ⟨align, encodes, appends⟩

theorem load_appends {source : Value} (isOpen : builder.function.finished = false)
    (pointer : source.ty = .ptr ty) (power : (builder.layout.alignOf ty).isPowerOfTwo) :
    Succeeds (load source) builder fun value after => ∃ align,
      encodeAlignment (builder.layout.alignOf ty) = .ok align ∧
        builder.Loads source align ty value after :=
  succeeds_of_power (load_ends isOpen pointer) power

theorem storeOperand_ends {destination source : Value} {given : Nat}
    (isOpen : builder.function.finished = false) (pointer : destination.ty = .ptr ty)
    (hasTy : source.ty = ty) :
    Ends (storeOperand destination source given) builder
      (fun _ after => ∃ align, encodeAlignment given = .ok align ∧
        builder.Stores destination source align after)
      fun _ _ => ¬ given.isPowerOfTwo := by
  simp only [storeOperand, store, atomicStore, expectPointer, pointer, pure_bind, Operand.resolve,
    accept, expectTy, hasTy, ne_eq, not_true_eq_false, if_false]
  rw [ends_bind]
  refine (encoded_ends _).mono ?_ fun _ _ uneven => uneven
  rintro align _ ⟨encodes, rfl⟩
  rw [ends_operand isOpen, ends_nextOperand isOpen]
  refine (emit_puts isOpen rfl).mono ?_ fun _ _ never => never.elim
  exact fun _ _ puts => ⟨align, encodes, puts⟩

theorem storeOperand_appends {destination source : Value} {given : Nat}
    (isOpen : builder.function.finished = false) (pointer : destination.ty = .ptr ty)
    (hasTy : source.ty = ty) (power : given.isPowerOfTwo) :
    Succeeds (storeOperand destination source given) builder fun _ after => ∃ align,
      encodeAlignment given = .ok align ∧ builder.Stores destination source align after :=
  succeeds_of_power (storeOperand_ends isOpen pointer hasTy) power

theorem binary_appends {operator : BinaryOperator} {lhs rhs : Value}
    (isOpen : builder.function.finished = false) (left : lhs.ty = ty) (right : rhs.ty = ty) :
    Succeeds (binary operator lhs rhs) builder (builder.Appends [lhs, rhs]
      (fun slot => .binary slot operator [] builder.function.symbols.length
        (builder.function.symbols.length + 1)) ty) := by
  simp only [Succeeds, binary, binaryWithFlags, expectSameTy, expectTy, left, right, ne_eq,
    not_true_eq_false, if_false, pure_bind]
  rw [ends_operand isOpen, ends_nextOperand isOpen]
  exact emitValue_appends isOpen fun _ => rfl

theorem compare_appends {operator : CompareOperator} {lhs rhs : Value}
    (isOpen : builder.function.finished = false) (left : lhs.ty = ty) (right : rhs.ty = ty) :
    Succeeds (compare operator lhs rhs) builder (builder.Appends [lhs, rhs]
      (fun slot => .compare slot operator builder.function.symbols.length
        (builder.function.symbols.length + 1)) (compareTy ty)) := by
  simp only [Succeeds, compare, expectSameTy, expectTy, left, right, ne_eq, not_true_eq_false,
    if_false, pure_bind]
  rw [ends_operand isOpen, ends_nextOperand isOpen]
  exact emitValue_appends isOpen fun _ => rfl

/-- A literal stands for a constant of the type of the operand that it is paired with. -/
theorem resolvePair_int (operation : String) {value : Value} (hasTy : value.ty = .i32)
    (number : Int64) : Operand.resolvePair operation value (Literal.int number) =
      .ok (value, .constant (.i32 number)) := by
  have same : lowBits number.toInt = number := Int64.ofInt_toInt number
  have resolved : Operand.resolvePair operation value (Literal.int number) =
      .ok (value, .constant (.integer .i32 (lowBits number.toInt))) := by
    rw [Operand.resolvePair, hasTy]
    rfl
  rw [resolved, same]
  rfl

theorem binaryOperands_appends {operator : BinaryOperator} {value : Value} {number : Int64}
    (isOpen : builder.function.finished = false) (hasTy : value.ty = .i32) :
    Succeeds (binaryOperands operator value (Literal.int number)) builder
      (builder.Appends [value, .constant (.i32 number)] (fun slot => .binary slot operator []
        builder.function.symbols.length (builder.function.symbols.length + 1)) .i32) := by
  rw [binaryOperands, resolvePair_int _ hasTy]
  exact binary_appends isOpen hasTy rfl

theorem compareOperands_appends {operator : CompareOperator} {value : Value} {number : Int64}
    (isOpen : builder.function.finished = false) (hasTy : value.ty = .i32) :
    Succeeds (compareOperands operator value (Literal.int number)) builder
      (builder.Appends [value, .constant (.i32 number)] (fun slot => .compare slot operator
        builder.function.symbols.length (builder.function.symbols.length + 1)) .i1) := by
  rw [compareOperands, resolvePair_int _ hasTy]
  exact compare_appends isOpen hasTy rfl

theorem cast_appends {operator : CastOperator} {value : Value}
    (isOpen : builder.function.finished = false) :
    Succeeds (cast operator ty value) builder (builder.Casts operator value ty) := by
  rw [Succeeds, cast, ends_operand isOpen]
  exact emitValue_appends isOpen fun _ => rfl

theorem elementPointer_appends {base : Value} {indices : List Value} {inbounds : Bool}
    {pointee : Ty} (isOpen : builder.function.finished = false) (pointer : base.ty = .ptr pointee)
    (reaches : walk (.ptr pointee) indices = .ok ty) :
    Succeeds (elementPointer base indices inbounds) builder
      (builder.Points base indices inbounds ty) := by
  have stillOpen : (builder.register [base]).function.finished = false := isOpen
  simp only [Succeeds, elementPointer, expectPointer, pointer, pure_bind, reaches]
  rw [ends_operand isOpen, ends_bind, ends_symbols stillOpen, Builder.register_register,
    Builder.register_function, FunctionDef.length_symbols_withSymbols]
  exact emitValue_appends isOpen fun _ => rfl

theorem extractElement_appends {vector : Value} {len index : UInt32}
    (isOpen : builder.function.finished = false) (lanes : vector.ty = .vector len ty) :
    Succeeds (extractElement vector index) builder (builder.Appends [vector, laneIndex index]
      (fun slot => .extractElement slot builder.function.symbols.length
        (builder.function.symbols.length + 1)) ty) := by
  simp only [Succeeds, extractElement, expectVector, lanes, pure_bind]
  rw [ends_operand isOpen, ends_nextOperand isOpen]
  exact emitValue_appends isOpen fun _ => rfl

theorem insertElement_appends {vector value : Value} {len index : UInt32}
    (isOpen : builder.function.finished = false) (lanes : vector.ty = .vector len ty)
    (lane : value.ty = ty) :
    Succeeds (insertElement vector value index) builder
      (builder.Appends [vector, value, laneIndex index] (fun slot => .insertElement slot
        builder.function.symbols.length (builder.function.symbols.length + 1)
        (builder.function.symbols.length + 2)) (.vector len ty)) := by
  simp only [Succeeds, insertElement, expectVector, expectTy, lanes, lane, ne_eq,
    not_true_eq_false, if_false, pure_bind]
  rw [ends_operand isOpen, ends_nextOperand isOpen, ends_nextOperand isOpen]
  exact emitValue_appends isOpen fun _ => rfl

theorem phi_appends {incoming : List (Value × BlockRef)}
    (isOpen : builder.function.finished = false) (same : ∀ pair ∈ incoming, pair.1.ty = ty) :
    Succeeds (phi ty incoming) builder (builder.Appends (incoming.map Prod.fst)
      (fun slot => .phi slot (edgesFrom builder.function.symbols.length incoming)) ty) := by
  refine (succeeds_expectAll same).bind ?_
  rintro _ _ rfl
  rw [Succeeds, ends_bind, ends_edges isOpen, ← edgesFrom]
  exact emitValue_appends isOpen fun _ => rfl

theorem branch_appends {target : BlockRef} (isOpen : builder.function.finished = false) :
    Succeeds (branch target) builder fun _ => builder.Puts [] (.branch target) := by
  have emitted : Succeeds (emit (.branch target)) (builder.register []) fun _ =>
      builder.Puts [] (.branch target) := emit_puts isOpen rfl
  rwa [Builder.register_nil] at emitted

theorem conditionalBranch_appends {condition : Value} {onTrue onFalse : BlockRef}
    (isOpen : builder.function.finished = false) (bit : condition.ty = .i1) :
    Succeeds (conditionalBranch condition onTrue onFalse) builder fun _ =>
      builder.Puts [condition]
        (.conditionalBranch builder.function.symbols.length onTrue onFalse) := by
  simp only [Succeeds, conditionalBranch, bit, ne_eq, not_true_eq_false, if_false]
  rw [ends_operand isOpen]
  exact emit_puts isOpen rfl

theorem expectArguments_eq {params : List Ty} {arguments : List Value}
    (typed : arguments.map Value.ty = params) : expectArguments params arguments = pure () := by
  subst typed
  induction arguments with
  | nil => rfl
  | cons argument arguments ih =>
    rw [List.map_cons, expectArguments, ih]
    simp [expectTy]

/-- A call of an intrinsic, none of which returns anything. -/
theorem call_appends {intrinsic : Intrinsic} {arguments : List Value}
    (isOpen : builder.function.finished = false)
    (typed : arguments.map Value.ty = intrinsic.signature.params) :
    Succeeds (call (.function intrinsic.callable) arguments) builder fun _ =>
      builder.Calls intrinsic arguments := by
  have stillOpen : (builder.register [.function intrinsic.callable]).function.finished = false :=
    isOpen
  have enough : arguments.length = intrinsic.signature.params.length := by
    rw [← typed, List.length_map]
  have signature : calleeSignature (.function intrinsic.callable) = pure intrinsic.signature := rfl
  have returnsVoid : intrinsic.signature.returnsVoid = true := by cases intrinsic <;> rfl
  rw [call, signature, pure_bind]
  simp only [enough, Nat.lt_irrefl, and_false, or_false, if_false, pure_bind,
    expectArguments_eq typed, returnsVoid, if_true]
  rw [Succeeds, ends_operand isOpen, ends_bind, ends_symbols stillOpen, ends_bind,
    Builder.register_register, Builder.register_function, FunctionDef.length_symbols_withSymbols]
  exact emit_puts isOpen rfl

end Build

/-- The edge that belongs to a block has the value of the first pair with the block. -/
theorem FunctionDef.find?_edgesFrom {function : FunctionDef} {first : SymbolIndex}
    {pairs : List (Value × BlockRef)} {ref : BlockRef} {value : Value}
    (symbols : function.SymbolsFrom first (pairs.map Prod.fst))
    (comes : pairs.find? (fun pair => pair.2 = ref) = some (value, ref)) :
    ∃ index, (Build.edgesFrom first pairs).find? (fun edge => edge.2 = ref) = some (index, ref) ∧
      function.symbol? index = some value := by
  induction pairs generalizing first with
  | nil => cases comes
  | cons pair pairs ih =>
    have edges : Build.edgesFrom first (pair :: pairs) =
        (first, pair.2) :: Build.edgesFrom (first + 1) pairs := rfl
    by_cases own : pair.2 = ref
    · rw [List.find?_cons_of_pos (by simpa using own)] at comes
      cases comes
      exact ⟨first, by rw [edges, List.find?_cons_of_pos (by simp)], symbols.head⟩
    · rw [List.find?_cons_of_neg (by simpa using own)] at comes
      obtain ⟨index, found, registered⟩ := ih symbols.tail comes
      exact ⟨index, by rw [edges, List.find?_cons_of_neg (by simpa using own), found], registered⟩

namespace Builder.Tracks

open Build FunctionDef

variable {environment : Environment} {origin : RunState} {facts : List (Value × Datum)}
  {builder after : Builder} {machine next : Machine} {value : Value} {ty : Ty} {datum : Datum}

/-! What runs do at appended instructions -/

/-- The value of an appended instruction is known from then on. -/
theorem gives (tracks : builder.Tracks environment origin (builder.here machine) facts)
    {operands : List Value} {instruction : ResultSlot → Instruction}
    (appends : builder.Appends operands instruction ty value after)
    (slotted : ∀ slot, (instruction slot).result? = some slot)
    (same : next.results = machine.results)
    (executed : ∀ (final : FunctionDef) (slot : ResultSlot), slot.ty = ty →
      final.SymbolsFrom builder.function.symbols.length operands →
        final.execute? environment machine builder.nextId (instruction slot) =
          some (next.set builder.nextId datum)) :
    after.Tracks environment origin (after.here (next.set builder.nextId datum))
      ((value, datum) :: facts) := by
  obtain ⟨⟨rfl⟩, rfl⟩ := appends
  have plain := Instruction.isTerminator_of_result? (slotted ⟨builder.resultName, ty⟩)
  have goesOn := tracks.append plain (fun final => executed final _ rfl) fun value below =>
    (Machine.value?_set_of_below below datum).trans (Machine.value?_congr same)
  refine { goesOn with known := List.forall_mem_cons.mpr ⟨⟨?_, ?_⟩, goesOn.known⟩ }
  · change builder.nextId < List.length _
    rw [append_instructions, List.length_append]
    exact Nat.lt_succ_self _
  · exact Machine.value?_set_self ..

/-- An instruction that computes a value. -/
theorem produces (tracks : builder.Tracks environment origin (builder.here machine) facts)
    {operands : List Value} {instruction : ResultSlot → Instruction}
    (appends : builder.Appends operands instruction ty value after)
    (slotted : ∀ slot, (instruction slot).result? = some slot)
    (pure : ∀ (final : FunctionDef) (slot : ResultSlot),
      final.execute? environment machine builder.nextId (instruction slot) =
        (final.produced? environment machine (instruction slot)).map
          (machine.set builder.nextId))
    (produced : ∀ (final : FunctionDef) (slot : ResultSlot), slot.ty = ty →
      final.SymbolsFrom builder.function.symbols.length operands →
        final.produced? environment machine (instruction slot) = some datum) :
    after.Tracks environment origin (after.here (machine.set builder.nextId datum))
      ((value, datum) :: facts) := by
  refine tracks.gives appends slotted rfl fun final slot hasTy symbols => ?_
  rw [pure, produced final slot hasTy symbols, Option.map_some]

theorem load (tracks : builder.Tracks environment origin (builder.here machine) facts)
    {source : Value} {align : UInt32} {address : Nat}
    (appends : builder.Loads source align ty value after)
    (place : machine.value? environment source = some (.number address))
    (content : machine.memory.load? environment.layout ty address = some datum) :
    after.Tracks environment origin (after.here (machine.set builder.nextId datum))
      ((value, datum) :: facts) := by
  refine tracks.produces appends (fun _ => rfl) (fun _ _ => rfl) ?_
  intro final slot hasTy symbols
  rw [produced?, number?_of_symbol? symbols.head place, hasTy]
  exact content

theorem binary (tracks : builder.Tracks environment origin (builder.here machine) facts)
    {operator : BinaryOperator} {flags : List BinaryFlag} {lhs rhs : Value}
    {left right number : Nat}
    (appends : builder.Appends [lhs, rhs] (fun slot => .binary slot operator flags
      builder.function.symbols.length (builder.function.symbols.length + 1)) ty value after)
    (first : machine.value? environment lhs = some (.number left))
    (second : machine.value? environment rhs = some (.number right))
    (combined : operator.combine? ty.numberBits left right = some number) :
    after.Tracks environment origin (after.here (machine.set builder.nextId (.number number)))
      ((value, .number number) :: facts) := by
  refine tracks.produces appends (fun _ => rfl) (fun _ _ => rfl) ?_
  intro final slot hasTy symbols
  rw [produced?, number?_of_symbol? symbols.head first,
    number?_of_symbol? symbols.tail.head second, hasTy]
  simp [combined]

/-- A comparison of numbers. -/
theorem compare (tracks : builder.Tracks environment origin (builder.here machine) facts)
    {operator : CompareOperator} {lhs rhs : Value} {left right : Nat}
    (appends : builder.Appends [lhs, rhs] (fun slot => .compare slot operator
      builder.function.symbols.length (builder.function.symbols.length + 1)) ty value after)
    (first : machine.value? environment lhs = some (.number left))
    (second : machine.value? environment rhs = some (.number right)) :
    let bit : Datum := .bit (operator.holds environment lhs.ty.lane left right)
    after.Tracks environment origin (after.here (machine.set builder.nextId bit))
      ((value, bit) :: facts) := by
  refine tracks.produces appends (fun _ => rfl) (fun _ _ => rfl) ?_
  intro final slot _ symbols
  rw [produced?, compared?, symbols.head, datum?_of_symbol? symbols.head, first,
    datum?_of_symbol? symbols.tail.head, second]
  rfl

/-- A comparison of vectors, lane by lane. -/
theorem compareLanes (tracks : builder.Tracks environment origin (builder.here machine) facts)
    {operator : CompareOperator} {lhs rhs : Value} {lefts rights : List Nat}
    (appends : builder.Appends [lhs, rhs] (fun slot => .compare slot operator
      builder.function.symbols.length (builder.function.symbols.length + 1)) ty value after)
    (first : machine.value? environment lhs = some (.lanes lefts))
    (second : machine.value? environment rhs = some (.lanes rights)) :
    let lanes : Datum := .lanes (List.zipWith (fun left right =>
      (operator.holds environment lhs.ty.lane left right).toNat) lefts rights)
    after.Tracks environment origin (after.here (machine.set builder.nextId lanes))
      ((value, lanes) :: facts) := by
  refine tracks.produces appends (fun _ => rfl) (fun _ _ => rfl) ?_
  intro final slot _ symbols
  rw [produced?, compared?, symbols.head, datum?_of_symbol? symbols.head, first,
    datum?_of_symbol? symbols.tail.head, second]
  rfl

/-- A pointer to something else. -/
theorem bitCast (tracks : builder.Tracks environment origin (builder.here machine) facts)
    {source : Value} {pointee : Ty}
    (appends : builder.Casts .bitCast source (.ptr pointee) value after)
    (content : machine.value? environment source = some datum) :
    after.Tracks environment origin (after.here (machine.set builder.nextId datum))
      ((value, datum) :: facts) := by
  refine tracks.produces appends (fun _ => rfl) (fun _ _ => rfl) ?_
  intro final slot hasTy symbols
  have isPointer : slot.ty.isPointer = true := hasTy ▸ rfl
  rw [produced?, if_pos isPointer, datum?_of_symbol? symbols.head, content]

theorem elementPointer (tracks : builder.Tracks environment origin (builder.here machine) facts)
    (indices : List (Value × Nat)) {base : Value} {pointee : Ty} {inbounds : Bool}
    {address target : Nat}
    (appends : builder.Points base (indices.map Prod.fst) inbounds ty value after)
    (pointer : base.ty = .ptr pointee)
    (start : machine.value? environment base = some (.number address))
    (contents : ∀ entry ∈ indices,
      machine.value? environment entry.1 = some (.number entry.2))
    (reached : environment.layout.elementAddress? pointee address
      (indices.map fun entry => signedNumber entry.1.ty.numberBits entry.2) = some target) :
    after.Tracks environment origin (after.here (machine.set builder.nextId (.number target)))
      ((value, .number target) :: facts) := by
  refine tracks.produces appends (fun _ => rfl) (fun _ _ => rfl) ?_
  intro final slot _ symbols
  have signed := mapM_signed?_of_symbolsFrom symbols.tail contents
  rw [produced?, number?_of_symbol? symbols.head start, List.length_map, signed]
  simp [symbols.head, pointer, reached]

theorem value?_laneIndex (machine : Machine) (environment : Environment) (index : UInt32) :
    machine.value? environment (laneIndex index) = some (.number index.toNat) := by
  have bound : index.toNat < 2 ^ UInt32.toNat 32 := index.toNat_lt
  have signed : index.toNat < 2 ^ 63 := Nat.lt_trans index.toNat_lt (by decide)
  rw [laneIndex, Constant.i32, Ty.i32, Machine.value?_integer, Int64.toInt_ofNat_of_lt signed,
    lowNumber_natCast bound]

theorem extractElement (tracks : builder.Tracks environment origin (builder.here machine) facts)
    {vector : Value} {index : UInt32} {lanes : List Nat} {number : Nat}
    (appends : builder.Appends [vector, laneIndex index] (fun slot => .extractElement slot
      builder.function.symbols.length (builder.function.symbols.length + 1)) ty value after)
    (content : machine.value? environment vector = some (.lanes lanes))
    (found : lanes[index.toNat]? = some number) :
    after.Tracks environment origin (after.here (machine.set builder.nextId (.number number)))
      ((value, .number number) :: facts) := by
  refine tracks.produces appends (fun _ => rfl) (fun _ _ => rfl) ?_
  intro final slot _ symbols
  have lane := value?_laneIndex machine environment index
  rw [produced?, lanes?_of_symbol? symbols.head content,
    number?_of_symbol? symbols.tail.head lane]
  simp [found]

theorem insertElement (tracks : builder.Tracks environment origin (builder.here machine) facts)
    {vector element : Value} {index : UInt32} {lanes : List Nat} {number : Nat}
    (appends : builder.Appends [vector, element, laneIndex index] (fun slot =>
      .insertElement slot builder.function.symbols.length (builder.function.symbols.length + 1)
        (builder.function.symbols.length + 2)) ty value after)
    (content : machine.value? environment vector = some (.lanes lanes))
    (inserted : machine.value? environment element = some (.number number))
    (inside : index.toNat < lanes.length) :
    let filled : Datum := .lanes (lanes.set index.toNat number)
    after.Tracks environment origin (after.here (machine.set builder.nextId filled))
      ((value, filled) :: facts) := by
  refine tracks.produces appends (fun _ => rfl) (fun _ _ => rfl) ?_
  intro final slot _ symbols
  have lane := value?_laneIndex machine environment index
  rw [produced?, lanes?_of_symbol? symbols.head content,
    number?_of_symbol? symbols.tail.head inserted,
    number?_of_symbol? symbols.tail.tail.head lane]
  simp [inside]

/-- A phi node has the value that belongs to the block that the run comes from. -/
theorem phi (tracks : builder.Tracks environment origin (builder.here machine) facts)
    {incoming : List (Value × BlockRef)} {chosen : Value}
    (appends : builder.Appends (incoming.map Prod.fst)
      (fun slot => .phi slot (edgesFrom builder.function.symbols.length incoming)) ty value after)
    (comes : incoming.find? (fun pair => pair.2 = machine.previous) =
      some (chosen, machine.previous))
    (content : machine.value? environment chosen = some datum) :
    after.Tracks environment origin (after.here (machine.set builder.nextId datum))
      ((value, datum) :: facts) := by
  refine tracks.produces appends (fun _ => rfl) (fun _ _ => rfl) ?_
  intro final slot _ symbols
  obtain ⟨index, edge, registered⟩ := find?_edgesFrom symbols comes
  rw [produced?, edge]
  exact (datum?_of_symbol? registered).trans content

/-- An allocation of one element takes memory from the end of the stack on. -/
theorem allocate (tracks : builder.Tracks environment origin (builder.here machine) facts)
    {align : UInt32} (appends : builder.Allocates ty align value after) :
    let address := roundUp machine.top ((decodeAlignment align).getD 1)
    let next := { machine with top := address + environment.layout.sizeOf ty }
    after.Tracks environment origin (after.here (next.set builder.nextId (.number address)))
      ((value, .number address) :: facts) := by
  refine tracks.gives appends (fun _ => rfl) rfl ?_
  intro final slot _ symbols
  have one : machine.value? environment (.constant (.i32 1)) = some (.number 1) := rfl
  rw [execute?, number?_of_symbol? symbols.head one]
  simp

/-- A store changes memory alone. -/
theorem store (tracks : builder.Tracks environment origin (builder.here machine) facts)
    {destination source : Value} {align : UInt32} {address number : Nat}
    (puts : builder.Stores destination source align after)
    (place : machine.value? environment destination = some (.number address))
    (content : machine.value? environment source = some (.number number)) :
    let size := environment.layout.storeSizeOf source.ty
    after.Tracks environment origin
      (after.here { machine with memory := machine.memory.write address size number }) facts := by
  obtain ⟨rfl⟩ := puts
  refine tracks.append rfl ?_ fun _ _ => Machine.value?_congr rfl
  intro final symbols
  rw [execute?, number?_of_symbol? symbols.head place,
    number?_of_symbol? symbols.tail.head content, symbols.tail.head]
  rfl

/-- A call of the intrinsic that copies bytes. -/
theorem copy (tracks : builder.Tracks environment origin (builder.here machine) facts)
    {destination source length align volatile : Value} {target start count : Nat}
    (puts : builder.Calls .memcpy [destination, source, length, align, volatile] after)
    (copyTo : machine.value? environment destination = some (.number target))
    (copyFrom : machine.value? environment source = some (.number start))
    (counts : machine.value? environment length = some (.number count)) :
    after.Tracks environment origin
      (after.here { machine with memory := machine.memory.copy target start count }) facts := by
  obtain ⟨rfl⟩ := puts
  refine tracks.append rfl ?_ fun _ _ => Machine.value?_congr rfl
  intro final symbols
  have registered := symbols.tail
  simp only [List.length_cons, List.length_nil, List.range'_succ, List.range'_zero, execute?,
    symbols.head, number?_of_symbol? registered.head copyTo,
    number?_of_symbol? registered.tail.head copyFrom,
    number?_of_symbol? registered.tail.tail.head counts]
  rfl

theorem goTo (tracks : builder.Tracks environment origin (builder.here machine) facts)
    {target : BlockRef} (puts : builder.Puts [] (.branch target) after) :
    after.Tracks environment origin
      ⟨target, 0, { machine with previous := builder.current }⟩ facts := by
  obtain ⟨rfl⟩ := puts
  exact tracks.branch rfl fun _ _ => rfl

/-- A branch on the result of a comparison. -/
theorem goEither (tracks : builder.Tracks environment origin (builder.here machine) facts)
    {condition : Value} {truth : Bool} {onTrue onFalse : BlockRef}
    (puts : builder.Puts [condition]
      (.conditionalBranch builder.function.symbols.length onTrue onFalse) after)
    (bit : machine.value? environment condition = some (.bit truth)) :
    after.Tracks environment origin
      ⟨if truth then onTrue else onFalse, 0, { machine with previous := builder.current }⟩
        facts := by
  obtain ⟨rfl⟩ := puts
  refine tracks.branch rfl fun final symbols => ?_
  rw [target?, number?_of_symbol? symbols.head bit]
  cases truth <;> rfl

end Builder.Tracks

end IrAssembly
