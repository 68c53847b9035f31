import IrAssembly.Builder.Instructions
import IrAssembly.Proofs.Builder.Effect
import IrAssembly.Proofs.Builder.Outcome

/-! The primitive building steps in terms of the states they leave: changes of an open function,
registration of operands, and the end of every operation, which appends an instruction. -/

namespace IrAssembly

namespace Edit

variable {α : Type} {function : FunctionDef}

theorem run_requireOpen (isOpen : function.finished = false) (next : Edit α) :
    (requireOpen >>= fun _ => next).run function = next.run function := by
  cases function
  subst isOpen
  rfl

theorem run_addParameter (isOpen : function.finished = false) (ty : Ty) (name : String) :
    (addParameter ty name).run function =
      (.ok (function.withParameter ty name).1, (function.withParameter ty name).2) :=
  run_requireOpen isOpen _

theorem run_reserveBlocks (isOpen : function.finished = false) (count : Nat) :
    (reserveBlocks count).run function = (.ok (), function.reserve count) :=
  run_requireOpen isOpen _

theorem run_spliceBlocks (isOpen : function.finished = false) (position count : Nat) :
    (spliceBlocks position count).run function =
      (.ok (function.freshRefs count), (function.splice position count).2) :=
  run_requireOpen isOpen _

theorem run_pushInstruction (isOpen : function.finished = false) (ref : BlockRef)
    (instruction : Instruction) :
    (pushInstruction ref instruction).run function =
      (.ok function.instructions.length, (function.push ref instruction).2) :=
  run_requireOpen isOpen _

theorem run_addSymbol (isOpen : function.finished = false) (value : Value) :
    (addSymbol value).run function =
      (.ok function.symbols.length, function.withSymbols [value]) :=
  run_requireOpen isOpen _

end Edit

namespace Builder

variable {function : FunctionDef}

/-- A builder that is started on an open function stands at its first block. -/
theorem run_start (isOpen : function.finished = false) (layout : DataLayout) :
    (start layout).run function =
      (.ok ⟨function.reserve 1, layout, ((function.reserve 1).refAt? 0).getD ⟨0⟩, 1, 1, none⟩,
        function.reserve 1) := by
  cases function
  subst isOpen
  rfl

theorem start_ready {builder : Builder} {after : FunctionDef} {layout : DataLayout}
    (isOpen : function.finished = false) (coherent : function.Coherent)
    (started : (start layout).run function = (.ok builder, after)) :
    builder.Ready ∧ builder.function = function.reserve 1 ∧ after = function.reserve 1 := by
  rw [run_start isOpen] at started
  cases started
  refine ⟨⟨isOpen, coherent.reserve 1, ?_⟩, rfl, rfl⟩
  exact (coherent.reserve 1).placed (FunctionDef.lt_length_order_reserve Nat.zero_lt_one)

end Builder

namespace Build

variable {α : Type} {builder : Builder} {done : α → Builder → Prop}
  {failed : Failure → Builder → Prop}

/-! Operands -/

theorem ends_symbol {done : SymbolIndex → Builder → Prop}
    (isOpen : builder.function.finished = false) (value : Value) :
    Ends (symbol value) builder done failed ↔
      done builder.function.symbols.length (builder.register [value]) := by
  rw [symbol, ends_edit, Edit.run_addSymbol isOpen]
  rfl

/-- The first operand of an instruction is registered. -/
theorem ends_operand (isOpen : builder.function.finished = false) (value : Value)
    (next : SymbolIndex → Build α) :
    Ends (symbol value >>= next) builder done failed ↔
      Ends (next builder.function.symbols.length) (builder.register [value]) done failed := by
  rw [ends_bind, ends_symbol isOpen]

/-- A further operand is registered behind the ones in front of it. -/
theorem ends_nextOperand (isOpen : builder.function.finished = false) (front : List Value)
    (value : Value) (next : SymbolIndex → Build α) :
    Ends (symbol value >>= next) (builder.register front) done failed ↔
      Ends (next (builder.function.symbols.length + front.length))
        (builder.register (front ++ [value])) done failed := by
  have stillOpen : (builder.register front).function.finished = false := isOpen
  rw [ends_operand stillOpen, Builder.register_register, Builder.register_function,
    FunctionDef.withSymbols, List.length_append]

theorem ends_symbols {done : List SymbolIndex → Builder → Prop}
    (isOpen : builder.function.finished = false) (values : List Value) :
    Ends (symbols values) builder done failed ↔
      done (List.range' builder.function.symbols.length values.length)
        (builder.register values) := by
  induction values generalizing builder done with
  | nil => simp [symbols]
  | cons value values ih =>
    have stillOpen : (builder.register [value]).function.finished = false := isOpen
    simp only [symbols, ends_bind, ends_symbol isOpen, ih stillOpen, ends_pure,
      Builder.register_register, List.singleton_append]
    simp [FunctionDef.withSymbols, List.range'_succ]

/-- The operands of several edges are registered from left to right, their blocks are kept. -/
theorem ends_edges {done : List (SymbolIndex × BlockRef) → Builder → Prop}
    (isOpen : builder.function.finished = false) (pairs : List (Value × BlockRef)) :
    Ends (edges pairs) builder done failed ↔
      done ((List.range' builder.function.symbols.length pairs.length).zip (pairs.map Prod.snd))
        (builder.register (pairs.map Prod.fst)) := by
  induction pairs generalizing builder done with
  | nil => simp [edges]
  | cons pair pairs ih =>
    have stillOpen : (builder.register [pair.1]).function.finished = false := isOpen
    simp only [edges, ends_bind, ends_symbol isOpen, ih stillOpen, ends_pure,
      Builder.register_register, List.singleton_append]
    simp [FunctionDef.withSymbols, List.range'_succ]

/-! Checks leave the state as it is. -/

/-- A check that passes with a value, or refuses. -/
theorem ends_expectPointer {done : Ty → Builder → Prop} {operation : String} {value : Value}
    (refused : ∀ error, failed (.refused error) builder)
    (passed : ∀ pointee, value.ty = .ptr pointee → done pointee builder) :
    Ends (expectPointer operation value) builder done failed := by
  unfold expectPointer
  split
  · rename_i pointee same
    exact passed pointee same
  · exact refused _

theorem ends_expectVector {done : Ty → Builder → Prop} {operation : String} {value : Value}
    (refused : ∀ error, failed (.refused error) builder)
    (passed : ∀ len element, value.ty = .vector len element → done element builder) :
    Ends (expectVector operation value) builder done failed := by
  unfold expectVector
  split
  · rename_i len element same
    exact passed len element same
  · exact refused _

theorem ends_expectTy {done : Unit → Builder → Prop} {operation : String} {expected : Ty}
    {value : Value} (refused : ∀ error, failed (.refused error) builder)
    (passed : value.ty = expected → done () builder) :
    Ends (expectTy operation expected value) builder done failed := by
  unfold expectTy
  by_cases same : value.ty = expected
  · simpa [same] using passed same
  · simpa [same] using refused _

theorem ends_expectSameTy {done : Ty → Builder → Prop} {operation : String} {lhs rhs : Value}
    (refused : ∀ error, failed (.refused error) builder)
    (passed : rhs.ty = lhs.ty → done lhs.ty builder) :
    Ends (expectSameTy operation lhs rhs) builder done failed := by
  rw [expectSameTy, ends_bind]
  exact ends_expectTy refused passed

theorem ends_expectInteger {done : Unit → Builder → Prop} {operation : String} {value : Value}
    (refused : ∀ error, failed (.refused error) builder)
    (passed : ∀ bits, value.ty = .int bits → done () builder) :
    Ends (expectInteger operation value) builder done failed := by
  unfold expectInteger
  cases same : value.ty with
  | int bits => simpa [Ty.isInteger] using passed bits same
  | _ => simpa [Ty.isInteger] using refused _

theorem ends_encoded {done : UInt32 → Builder → Prop} {align : Nat}
    (violated : ∀ violation, failed (.violated violation) builder)
    (passed : ∀ encoded, encodeAlignment align = .ok encoded → done encoded builder) :
    Ends (encoded align) builder done failed := by
  unfold encoded
  split
  · rename_i encoded same
    exact passed encoded same
  · exact violated _

/-! Instructions -/

theorem ends_takeName {done : String → Builder → Prop} :
    Ends takeName builder done failed ↔ done builder.resultName builder.spendName := by
  simp only [takeName, ends_bind, ends_get]
  cases given : builder.nextName <;> simp [Builder.resultName, Builder.spendName, given]

theorem ends_emit {done : Unit → Builder → Prop} (isOpen : builder.function.finished = false)
    (instruction : Instruction) :
    Ends (emit instruction) builder done failed ↔ done () (builder.push instruction) := by
  simp only [emit, ends_bind, ends_get, ends_edit, Edit.run_pushInstruction isOpen, ends_pure]
  rfl

theorem ends_emitValue {done : Value → Builder → Prop}
    (isOpen : builder.function.finished = false) (ty : Ty)
    (instruction : ResultSlot → Instruction) :
    Ends (emitValue ty instruction) builder done failed ↔
      done (.result ⟨builder.function.instructions.length, builder.resultName, ty⟩)
        (builder.spendName.push (instruction ⟨builder.resultName, ty⟩)) := by
  have stillOpen : builder.spendName.function.finished = false := by simpa using isOpen
  simp only [emitValue, ends_bind, ends_takeName, ends_get, ends_edit,
    Edit.run_pushInstruction stillOpen, ends_pure]
  rw [← Builder.spendName_function builder]
  rfl

end Build

end IrAssembly
