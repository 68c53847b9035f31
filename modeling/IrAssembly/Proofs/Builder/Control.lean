import IrAssembly.Proofs.Builder.Instructions

/-! The operations that concern blocks: phi nodes and terminators, which mention blocks that they
are given, and the operations on the block order. -/

namespace IrAssembly.Build

variable {values : List Value} {blocks : List BlockRef} {names : List String} {builder : Builder}

/-! Edges -/

theorem ends_expectAll {done : Unit → Builder → Prop} {failed : Failure → Builder → Prop}
    {operation : String} {ty : Ty} {pairs : List (Value × BlockRef)}
    (refused : ∀ error, failed (.refused error) builder)
    (passed : (∀ pair ∈ pairs, pair.1.ty = ty) → done () builder) :
    Ends (expectAll operation ty pairs) builder done failed := by
  induction pairs with
  | nil => exact passed (by simp)
  | cons pair pairs ih =>
    rw [expectAll, ends_bind]
    apply ends_expectTy refused
    intro first
    apply ih
    intro others
    exact passed (List.forall_mem_cons.mpr ⟨first, others⟩)

/-- The edges that are registered behind some operands. -/
def edgesFrom (start : SymbolIndex) (pairs : List (Value × BlockRef)) :
    List (SymbolIndex × BlockRef) :=
  (List.range' start pairs.length).zip (pairs.map Prod.snd)

@[simp] theorem map_fst_edgesFrom (start : SymbolIndex) (pairs : List (Value × BlockRef)) :
    (edgesFrom start pairs).map Prod.fst = List.range' start pairs.length :=
  List.map_fst_zip (by simp)

@[simp] theorem map_snd_edgesFrom (start : SymbolIndex) (pairs : List (Value × BlockRef)) :
    (edgesFrom start pairs).map Prod.snd = pairs.map Prod.snd :=
  List.map_snd_zip (by simp)

theorem tyOf?_edgesFrom {function : FunctionDef} {front : List Value}
    {pairs : List (Value × BlockRef)} {ty : Ty} (same : ∀ pair ∈ pairs, pair.1.ty = ty) :
    ∀ edge ∈ edgesFrom (function.symbols.length + front.length) pairs,
      (function.withSymbols (front ++ pairs.map Prod.fst)).tyOf? edge.1 = some ty := by
  intro edge member
  have index : edge.1 ∈ List.range' (function.symbols.length + front.length) pairs.length := by
    rw [← map_fst_edgesFrom _ pairs]
    exact List.mem_map_of_mem member
  obtain ⟨position, bound, found⟩ := List.mem_range'.mp index
  rw [found, Nat.one_mul, Nat.add_assoc, FunctionDef.tyOf?_withSymbols,
    List.getElem?_append_right (Nat.le_add_right ..), Nat.add_sub_cancel_left, List.getElem?_map,
    List.getElem?_eq_getElem bound]
  simp [same]

theorem phi_acts {ty : Ty} {incoming : List (Value × BlockRef)}
    (known : ∀ value ∈ incoming.map Prod.fst, builder.Known values value)
    (aims : ∀ ref ∈ incoming.map Prod.snd, builder.Aims blocks ref) :
    Acts values blocks names (phi ty incoming) builder GivesOwned := by
  intro ready
  rw [phi, ends_bind]
  apply ends_expectAll (fun _ => .inl rfl)
  intro same
  rw [ends_bind, ends_edges ready.isOpen, ← edgesFrom]
  refine emitValue_acts ready (fun _ => rfl) known ?_ ?_ ?_
  · simpa only [Instruction.blocks, map_snd_edgesFrom] using aims
  · simp [Instruction.operands]
  · exact .phi (@tyOf?_edgesFrom builder.function [] incoming ty same)

/-! Terminators -/

/-- An instruction without operands and result. -/
theorem emit_alone_acts {instruction : Instruction} (silent : instruction.result? = none)
    (none : instruction.operands = [])
    (aims : ∀ ref ∈ instruction.blocks, builder.Aims blocks ref)
    (typed : instruction.Typed builder.function) :
    Acts values blocks names (emit instruction) builder GivesNothing := by
  intro ready
  have acted : Ends (emit instruction) (builder.register [])
      (fun _ after => Effect values blocks names builder after ∧ True)
      (fun failure after => after = builder ∨
        (∃ violation, failure = .violated violation) ∧ Effect values blocks names builder after) :=
    emit_acts ready silent (by simp) aims none (by simpa using typed)
  rwa [Builder.register_nil] at acted

theorem branch_acts {target : BlockRef} (aims : builder.Aims blocks target) :
    Acts values blocks names (branch target) builder GivesNothing := by
  refine emit_alone_acts rfl rfl ?_ .branch
  simpa [Instruction.blocks, Instruction.successors] using aims

theorem retVoid_acts : Acts values blocks names retVoid builder GivesNothing :=
  emit_alone_acts rfl rfl (aimless rfl) .retVoid

theorem unreachable_acts : Acts values blocks names unreachable builder GivesNothing :=
  emit_alone_acts rfl rfl (aimless rfl) .unreachable

theorem conditionalBranch_acts {condition : Value} {onTrue onFalse : BlockRef}
    (known : builder.Known values condition) (trueAims : builder.Aims blocks onTrue)
    (falseAims : builder.Aims blocks onFalse) :
    Acts values blocks names (conditionalBranch condition onTrue onFalse) builder GivesNothing := by
  intro ready
  rw [conditionalBranch]
  split
  · exact .inl rfl
  · rename_i bit
    rw [ne_eq, Decidable.not_not] at bit
    rw [ends_operand ready.isOpen]
    refine emit_acts ready rfl (by simpa using known) ?_ rfl ?_
    · simp [Instruction.blocks, Instruction.successors, trueAims, falseAims]
    · exact .conditionalBranch (by simp [bit])

theorem indirectBranch_acts {address : Value} {successors : List BlockRef}
    (known : builder.Known values address) (aims : ∀ ref ∈ successors, builder.Aims blocks ref) :
    Acts values blocks names (indirectBranch address successors) builder GivesNothing := by
  intro ready
  rw [indirectBranch, ends_bind]
  apply ends_expectPointer (fun _ => .inl rfl)
  intro pointee pointer
  rw [ends_operand ready.isOpen]
  refine emit_acts ready rfl (by simpa using known) aims rfl ?_
  have source : (builder.function.withSymbols [address]).tyOf? builder.function.symbols.length =
      some (.ptr pointee) := by
    simp [pointer]
  exact .indirectBranch source

theorem switch_acts {condition : Value} {otherwise : BlockRef} {cases : List (Value × BlockRef)}
    (conditionKnown : builder.Known values condition)
    (casesKnown : ∀ value ∈ cases.map Prod.fst, builder.Known values value)
    (otherwiseAims : builder.Aims blocks otherwise)
    (casesAim : ∀ ref ∈ cases.map Prod.snd, builder.Aims blocks ref) :
    Acts values blocks names (switch condition otherwise cases) builder GivesNothing := by
  intro ready
  rw [switch, ends_bind]
  apply ends_expectInteger (fun _ => .inl rfl)
  intro bits integer
  rw [ends_bind]
  apply ends_expectAll (fun _ => .inl rfl)
  intro same
  have stillOpen : (builder.register [condition]).function.finished = false := ready.isOpen
  rw [ends_operand ready.isOpen, ends_bind, ends_edges stillOpen, Builder.register_register,
    Builder.register_function, FunctionDef.length_symbols_withSymbols, ← edgesFrom]
  refine emit_acts ready rfl ?_ ?_ ?_ ?_
  · exact List.forall_mem_cons.mpr ⟨conditionKnown, casesKnown⟩
  · simp only [Instruction.blocks, Instruction.successors, map_snd_edgesFrom]
    exact List.forall_mem_cons.mpr ⟨otherwiseAims, casesAim⟩
  · simp [Instruction.operands, List.range'_succ]
  · have chosen : (builder.function.withSymbols ([condition] ++ cases.map Prod.fst)).tyOf?
        builder.function.symbols.length = some (.int bits) := by
      simp [integer]
    exact .switch chosen (integer ▸ tyOf?_edgesFrom same)

theorem literalSwitch_acts {condition : Value} {otherwise : BlockRef}
    {cases : List (Int64 × BlockRef)} (known : builder.Known values condition)
    (otherwiseAims : builder.Aims blocks otherwise)
    (casesAim : ∀ ref ∈ cases.map Prod.snd, builder.Aims blocks ref) :
    Acts values blocks names (literalSwitch condition otherwise cases) builder GivesNothing := by
  intro ready
  rw [literalSwitch, ends_bind]
  apply ends_expectInteger (fun _ => .inl rfl)
  intro bits integer
  rw [ends_operand ready.isOpen]
  refine emit_acts ready rfl (by simpa using known) ?_ rfl ?_
  · exact List.forall_mem_cons.mpr ⟨otherwiseAims, casesAim⟩
  · have chosen : (builder.function.withSymbols [condition]).tyOf?
        builder.function.symbols.length = some (.int bits) := by
      simp [integer]
    exact .literalSwitch chosen

theorem ret_acts {value : Value} (known : builder.Known values value) :
    Acts values blocks names (ret value) builder GivesNothing := by
  intro ready
  rw [ret, ends_operand ready.isOpen]
  refine emit_acts ready rfl (by simpa using known) (aimless rfl) rfl ?_
  have source : (builder.function.withSymbols [value]).tyOf? builder.function.symbols.length =
      some value.ty := by
    simp
  exact .ret source

/-! Parameters, names and blocks -/

theorem ends_createParameter {done : Value → Builder → Prop} {failed : Failure → Builder → Prop}
    (isOpen : builder.function.finished = false) (ty : Ty) :
    Ends (createParameter ty) builder done failed ↔
      done (.parameter
          (builder.function.withParameter ty ("arg_" ++ toString builder.argCounter)).1)
        (builder.addParameter ty) := by
  simp only [createParameter, ends_bind, ends_get, ends_set]
  rw [ends_edit, Edit.run_addParameter isOpen]
  rfl

theorem createParameter_acts {ty : Ty} :
    Acts values blocks names (createParameter ty) builder GivesOwned := by
  intro ready
  rw [ends_createParameter ready.isOpen]
  refine ⟨.parameter ty, ?_⟩
  exact List.mem_append_right _ (List.mem_singleton_self _)

theorem setNextName_acts {name : String} (given : name ∈ names) :
    Acts values blocks names (setNextName name) builder GivesNothing :=
  fun _ => ⟨.setName name given, trivial⟩

/-- The handle of a block of the function is given. -/
abbrev GivesBlock (ref : BlockRef) (after : Builder) : Prop := after.function.HasBlock ref

theorem ends_followingIndex {done : Nat → Builder → Prop} {failed : Failure → Builder → Prop} :
    Ends followingIndex builder done failed ↔ done (builder.position + 1) builder := Iff.rfl

theorem ends_getBlock {done : BlockRef → Builder → Prop} {failed : Failure → Builder → Prop}
    (isOpen : builder.function.finished = false) (index : Nat) :
    Ends (getBlock index) builder done failed ↔
      done (((builder.reserve (index + 1)).function.refAt? index).getD ⟨0⟩)
        (builder.reserve (index + 1)) := by
  simp only [getBlock, ends_bind]
  rw [ends_edit, Edit.run_reserveBlocks isOpen]
  rfl

theorem getBlock_acts {index : Nat} :
    Acts values blocks names (getBlock index) builder GivesBlock := by
  intro ready
  rw [ends_getBlock ready.isOpen]
  refine ⟨.reserve (index + 1), ?_⟩
  exact (ready.coherent.reserve _).placed (FunctionDef.lt_length_order_reserve (Nat.lt_succ_self _))

theorem getNextBlock_acts : Acts values blocks names getNextBlock builder GivesBlock := by
  intro ready
  rw [getNextBlock, ends_bind, ends_followingIndex]
  exact getBlock_acts ready

theorem ends_nextBlock {done : BlockRef → Builder → Prop} {failed : Failure → Builder → Prop}
    (isOpen : builder.function.finished = false) :
    Ends nextBlock builder done failed ↔ done builder.enterNext.current builder.enterNext := by
  simp only [nextBlock, ends_bind, ends_followingIndex, ends_getBlock isOpen, ends_function,
    Builder.enterNext, Builder.enter]
  split
  · rw [ends_bind, ends_edit]
    rfl
  · rfl

theorem nextBlock_acts : Acts values blocks names nextBlock builder GivesBlock := by
  intro ready
  rw [ends_nextBlock ready.isOpen]
  exact ⟨.enter, ready.enterNext.current⟩

theorem ends_insertBlocks {done : List BlockRef → Builder → Prop}
    {failed : Failure → Builder → Prop} (isOpen : builder.function.finished = false)
    (count : Nat) : Ends (insertBlocks count) builder done failed ↔
      done (builder.function.freshRefs count) (builder.insertBlocks count) := by
  rw [insertBlocks, ends_bind, ends_followingIndex, ends_edit, Edit.run_spliceBlocks isOpen]
  rfl

/-- The inserted blocks are the next ones of the arena. -/
theorem insertBlocks_acts {count : Nat} : Acts values blocks names (insertBlocks count) builder
    (fun refs after => refs.length = count ∧ ∀ ref ∈ refs, after.function.HasBlock ref) := by
  intro ready
  rw [ends_insertBlocks ready.isOpen]
  refine ⟨.insert count, FunctionDef.length_freshRefs .., ?_⟩
  intro ref member
  obtain ⟨id, inRange, rfl⟩ := List.mem_map.mp member
  have bound := (List.mem_range'_1.mp inRange).2
  simpa [FunctionDef.HasBlock, FunctionDef.splice, Builder.insertBlocks] using bound

end IrAssembly.Build
