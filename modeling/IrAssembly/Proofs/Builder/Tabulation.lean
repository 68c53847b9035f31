import IrAssembly.Proofs.Builder.Session
import IrAssembly.Proofs.Builder.Tables

/-! The symbol table of a function is the sequence of the operands of its instructions. A pattern of
several instructions is a chain of single operations, and every single operation registers its
operands behind those of the instructions in front of it. -/

namespace IrAssembly

/-! Tables of a function -/

/-- The symbol with an index is what an operand was registered as. -/
def FunctionDef.Registers (function : FunctionDef) (index : SymbolIndex) (operand : Operand) :
    Prop :=
  ∃ value, function.symbol? index = some value ∧ operand.Becomes value

/-- The symbols of a function are the operands of its instructions, one after the other, and these
are what was given for each instruction. -/
structure FunctionDef.Tabulates (function : FunctionDef) (given : List (List Operand)) : Prop where
  /-- Every symbol is an operand of one instruction, and the operands are numbered in a row. -/
  indices : function.instructions.flatMap Instruction.operands =
    List.range function.symbols.length
  /-- Every operand of every instruction is what was given in its place. -/
  operands : List.Forall₂ (fun instruction => List.Forall₂ function.Registers instruction.operands)
    function.instructions given

namespace FunctionDef

theorem registers_of_symbols {function : FunctionDef} {indices : List SymbolIndex}
    {values : List Value} {operands : List Operand}
    (found : List.Forall₂ (fun index value => function.symbol? index = some value) indices values)
    (becomes : List.Forall₂ Operand.Becomes operands values) :
    List.Forall₂ function.Registers indices operands := by
  induction found generalizing operands with
  | nil =>
    cases becomes
    exact .nil
  | cons first _ ih =>
    cases becomes with
    | cons firstBecomes others => exact .cons ⟨_, first, firstBecomes⟩ (ih others)

namespace Tabulates

variable {builder after : Builder} {given : List (List Operand)} {new : Option (List Operand)}

theorem fresh (name : String) (signature : Signature) (count : Nat) :
    (FunctionDef.reserve { name := name, signature := signature } count).Tabulates [] :=
  ⟨rfl, .nil⟩

/-- An instruction comes with its own symbols, behind those of the others. -/
theorem enter (tabulates : builder.function.Tabulates given) (entered : builder.Entered new after) :
    after.function.Tabulates (given ++ new.toList) := by
  cases entered with
  | nothing symbols instructions =>
    have same : after.function.Registers = builder.function.Registers := by
      funext index operand
      rw [Registers, Registers, symbol?, symbol?, symbols]
    rw [Option.toList_none, List.append_nil]
    constructor
    · rw [instructions, symbols]
      exact tabulates.indices
    · rw [instructions, same]
      exact tabulates.operands
  | @instruction operands values instruction becomes consecutive =>
    rw [Builder.append_function]
    have grows : builder.function.Grows (builder.function.withSymbols values) := .withSymbols ..
    constructor
    · simp only [push, length_symbols_withSymbols, List.flatMap_append, List.flatMap_singleton]
      rw [consecutive, List.range_add, ← List.range'_eq_map_range]
      exact congrArg (· ++ _) tabulates.indices
    · refine List.rel_append (tabulates.operands.imp fun made operands kept => ?_) (.cons ?_ .nil)
      · refine kept.imp fun index operand registered => ?_
        obtain ⟨value, found, stands⟩ := registered
        exact ⟨value, grows.symbol? found, stands⟩
      · rw [consecutive]
        exact registers_of_symbols (builder.function.registered [] values) becomes

/-- The operands of an instruction start where those of the instructions in front of it end. -/
theorem consecutive {function : FunctionDef} (tabulates : function.Tabulates given)
    {front back : List Instruction} {instruction : Instruction}
    (place : function.instructions = front ++ instruction :: back) :
    instruction.operands =
      List.range' (front.flatMap Instruction.operands).length instruction.operands.length := by
  have indices := tabulates.indices
  rw [place, List.flatMap_append, List.flatMap_cons, List.range_eq_range', eq_comm,
    List.range'_eq_append_iff] at indices
  obtain ⟨start, _, inFront, fromHere⟩ := indices
  rw [eq_comm, List.range'_eq_append_iff] at fromHere
  obtain ⟨count, _, here, _⟩ := fromHere
  rw [inFront, here, List.length_range', List.length_range', Nat.zero_add, Nat.mul_one]

end Tabulates

end FunctionDef

/-! Chains of single operations -/

/-- Single operations that are carried out in a row and succeed. -/
inductive Operation.Chain : Builder → List Operation → Builder → Prop where
  | done : Chain builder [] builder
  | perform (single : operation.isSingle = true)
      (performed : operation.step builder = (.ok answer, middle))
      (rest : Chain middle operations after) : Chain builder (operation :: operations) after

/-- What a list of single operations registers for one instruction after the other. -/
def Operation.registered (operations : List Operation) : List (List Operand) :=
  operations.filterMap operands?

theorem Operation.registered_cons (operation : Operation) (operations : List Operation) :
    registered (operation :: operations) =
      operation.operands?.toList ++ registered operations := by
  unfold registered
  cases made : operation.operands? with
  | none => rw [List.filterMap_cons_none made]; rfl
  | some operands => rw [List.filterMap_cons_some made]; rfl

namespace Operation.Chain

variable {builder middle after : Builder} {operation : Operation} {parts others : List Operation}
  {answer : Answer}

theorem single (single : operation.isSingle = true)
    (performed : operation.step builder = (.ok answer, after)) :
    Chain builder [operation] after :=
  .perform single performed .done

theorem append (chain : Chain builder parts middle) (rest : Chain middle others after) :
    Chain builder (parts ++ others) after := by
  induction chain with
  | done => exact rest
  | perform single performed _ ih => exact .perform single performed (ih rest)

theorem ready_of_performed (performed : operation.step builder = (.ok answer, after))
    (ready : builder.Ready) : after.Ready := by
  have effects := (operation.step_effects ready).1
  rw [performed] at effects
  exact effects.ready ready

theorem ready (chain : Chain builder parts after) (ready : builder.Ready) : after.Ready := by
  induction chain with
  | done => exact ready
  | perform _ performed _ ih => exact ih (ready_of_performed performed ready)

/-- A single operation that succeeds makes its entry. -/
theorem entered (ready : builder.Ready) (single : operation.isSingle = true)
    (performed : operation.step builder = (.ok answer, after)) :
    builder.Entered operation.operands? after := by
  have ends := operation.run_enters single builder ready.isOpen
  unfold Build.Ends at ends
  unfold step at performed
  rwa [performed] at ends

theorem tabulates {given : List (List Operand)} (chain : Chain builder parts after)
    (ready : builder.Ready) (tabulates : builder.function.Tabulates given) :
    after.function.Tabulates (given ++ registered parts) := by
  induction chain generalizing given with
  | done => simpa [registered] using tabulates
  | perform single performed _ ih =>
    have new := ih (ready_of_performed performed ready)
      (tabulates.enter (entered ready single performed))
    rwa [registered_cons, ← List.append_assoc]

end Operation.Chain

/-! Patterns -/

namespace Build

open Operation

variable {α β : Type} {builder : Builder} {given others : List Operand}

/-- A step that is a chain of single operations, also if it is refused on its way. If it succeeds,
the chain registers what the step was given, in the same order. -/
def Composed (given : List Operand) (step : Build α) : Prop :=
  ∀ builder : Builder, builder.Ready → Ends step builder
    (fun _ after => ∃ parts, Chain builder parts after ∧ given.Sublist (registered parts).flatten)
    (fun failure after => (∃ violation, failure = .violated violation) ∨
      ∃ parts, Chain builder parts after)

namespace Composed

variable {step : Build α} {following : α → Build β}

theorem pure {value : α} : Composed [] (Pure.pure value : Build α) :=
  fun _ _ => ⟨[], .done, .slnil⟩

theorem refuse {error : BuildError} : Composed given (Build.refuse error : Build α) :=
  fun _ _ => .inr ⟨[], .done⟩

theorem accept {outcome : Except BuildError α} : Composed [] (Build.accept outcome) := by
  cases outcome with
  | ok value => exact .pure
  | error error => exact .refuse

theorem layout : Composed [] Build.layout := fun _ _ => ⟨[], .done, .slnil⟩

theorem function : Composed [] Build.function := fun _ _ => ⟨[], .done, .slnil⟩

/-- What is composed of chains is a chain. -/
theorem bind (first : Composed given step) (rest : ∀ value, Composed others (following value)) :
    Composed (given ++ others) (step >>= following) := by
  intro builder ready
  rw [ends_bind]
  refine (first builder ready).mono ?_ fun _ _ left => left
  intro value middle ⟨parts, chain, inOrder⟩
  refine (rest value middle (chain.ready ready)).mono ?_ ?_
  · intro result after ⟨behind, rest, behindInOrder⟩
    refine ⟨parts ++ behind, chain.append rest, ?_⟩
    rw [registered, List.filterMap_append, List.flatten_append]
    exact inOrder.append behindInOrder
  · intro failure after ended
    refine ended.imp_right fun ⟨behind, rest⟩ => ?_
    exact ⟨parts ++ behind, chain.append rest⟩

theorem less (composed : Composed given step) (fewer : others.Sublist given) :
    Composed others step := by
  intro builder ready
  refine (composed builder ready).mono ?_ fun _ _ left => left
  intro value after ⟨parts, chain, inOrder⟩
  exact ⟨parts, chain, fewer.trans inOrder⟩

/-- What is given is registered later. -/
theorem next (first : Composed others step) (rest : ∀ value, Composed given (following value)) :
    Composed given (step >>= following) :=
  (first.bind rest).less (List.sublist_append_right ..)

theorem unasked (composed : Composed given step) : Composed [] step :=
  composed.less (List.nil_sublist _)

/-- What is given is registered at once. -/
theorem before (first : Composed given step) (rest : ∀ value, Composed [] (following value)) :
    Composed given (step >>= following) :=
  (first.bind rest).less (List.sublist_append_left ..)

theorem map (composed : Composed given step) (change : α → β) :
    Composed given (change <$> step) := by
  intro builder ready
  rw [ends_map]
  exact composed builder ready

/-- A step that is the work of a single operation. -/
theorem of_single (operation : Operation) (single : operation.isSingle = true)
    {answer : α → Answer} (runs : operation.run = answer <$> step) :
    Composed (operation.operands?.getD []) step := by
  intro builder ready
  have ends := operation.run_enters single builder ready.isOpen
  rw [runs, ends_map] at ends
  unfold Ends at ends ⊢
  rcases ran : step.run builder with ⟨outcome, after⟩
  rw [ran] at ends
  cases outcome with
  | ok value =>
    have performed : operation.step builder = (.ok (answer value), after) := by
      rw [Operation.step, runs, ExceptT.run_map]
      simp only [Functor.map, StateT.map]
      rw [ran]
      rfl
    refine ⟨[operation], .single single performed, ?_⟩
    rw [registered_cons]
    cases operation.operands? <;> simp [registered]
  | error failure =>
    refine ends.imp_right fun same => ?_
    subst same
    exact ⟨[], .done⟩

/-- A step that is the work of a single operation without an answer. -/
theorem of_silent {step : Build Unit} (operation : Operation)
    (single : operation.isSingle = true)
    (runs : operation.run = step >>= fun _ => Pure.pure .nothing) :
    Composed (operation.operands?.getD []) step := by
  have mapped : operation.run = (fun _ => Answer.nothing) <$> step := runs.trans (bind_pure_comp ..)
  exact of_single operation single mapped

end Composed

theorem foldLanes_composed {operator : BinaryOperator} {lanes folded : Value}
    {remaining lane : Nat} : Composed [] (foldLanes operator lanes remaining lane folded) := by
  induction remaining generalizing folded lane with
  | zero => exact .pure
  | succ remaining ih =>
    refine .next (.of_single (.extractElement lanes (.ofNat lane)) rfl rfl) fun element => ?_
    refine .next (.of_single (.binary operator folded element) rfl rfl) fun folded => ?_
    exact ih

theorem compareVector_composed {operator : CompareOperator} {lhs rhs : Operand} :
    Composed [lhs, rhs] (compareVector operator lhs rhs) := by
  refine .before (.of_single (.compareOperands operator lhs rhs) rfl rfl)
    fun lanes => ?_
  split
  · exact .next (.of_single (.extractElement lanes 0) rfl rfl) fun first => foldLanes_composed
  · exact .refuse

theorem insertOperands_composed {vector : Value} {lane : Nat} {operands : List Operand} :
    Composed operands (insertOperands vector lane operands) := by
  induction operands generalizing vector lane with
  | nil => exact .pure
  | cons operand operands ih =>
    have first : Composed [operand] (insertOperand vector operand (.ofNat lane)) :=
      .less (.of_single (.insertOperand vector operand (.ofNat lane)) rfl rfl) (by simp [operands?])
    exact first.bind fun vector => ih

theorem fillVector_composed {source : Value} {operands : List Operand} :
    Composed (.value source :: operands) (fillVector source operands) := by
  have first : Composed [.value source] (load source) := .of_single (.load source) rfl rfl
  exact first.bind fun vector => insertOperands_composed

theorem returnWithCast_composed {value : Value} :
    Composed [.value value] (returnWithCast value) := by
  refine .next .function fun function => ?_
  dsimp only
  split
  · exact .of_silent (.ret value) rfl rfl
  · refine .next .layout fun layout => .next .accept fun operator => ?_
    refine .before (.of_single (.cast operator function.signature.result value) rfl rfl)
      fun converted => ?_
    exact .unasked (.of_silent (.ret converted) rfl rfl)

/-! Variable arguments -/

theorem vaListTag_composed {list : Value} : Composed [.value list] (vaListTag list) := by
  refine .less (.of_single (.elementPointer list [constant32 0, constant32 0] true) rfl rfl) ?_
  simp [operands?]

theorem vaListField_composed {tag : Value} {field : VaListField} :
    Composed [.value tag] (vaListField tag field) := by
  refine .less
    (.of_single (.elementPointer tag [constant32 0, constant32 field.index] true) rfl rfl) ?_
  simp [operands?]

theorem vaIntrinsic_composed {intrinsic : Intrinsic} {list : Value} :
    Composed [.value list] (vaIntrinsic intrinsic list) := by
  refine .before vaListTag_composed fun tag => ?_
  refine .next (.of_single (.cast .bitCast (.ptr .i8) tag) rfl rfl) fun bytes => ?_
  exact .next (.of_single (.call (.function intrinsic.callable) [bytes]) rfl rfl) fun _ => .pure

theorem vaArg_composed {list : Value} {ty : Ty} : Composed [.value list] (vaArg list ty) := by
  unfold vaArg
  split
  · rename_i registers _
    refine .next (.of_single (.insertBlocks 3) rfl rfl) fun inserted => ?_
    dsimp only
    refine .before vaListTag_composed fun tag => ?_
    refine .next vaListField_composed fun offsetPointer => ?_
    refine .next (.of_single (.load offsetPointer) rfl rfl) fun offset => ?_
    refine .next (.of_single (.compareOperands .intUnsignedLessOrEqual offset
      (Literal.int registers.limit)) rfl rfl) fun inRegisters => ?_
    refine .next (.of_silent (.conditionalBranch inRegisters (inserted.getD 0 ⟨0⟩)
      (inserted.getD 1 ⟨0⟩)) rfl rfl) fun _ => ?_
    -- the address in the register save area
    refine .next (.of_single .nextBlock rfl rfl) fun _ => ?_
    refine .next vaListField_composed fun saveAreaPointer => ?_
    refine .next (.of_single (.load saveAreaPointer) rfl rfl) fun saveArea => ?_
    refine .next (.of_single (.elementPointer saveArea [offset] false) rfl rfl) fun slot => ?_
    refine .next (.of_single (.cast .bitCast (.ptr ty) slot) rfl rfl) fun registerAddress => ?_
    refine .next (.of_single (.binaryOperands .add offset (Literal.int registers.step)) rfl rfl)
      fun nextOffset => .next .layout fun layout => ?_
    refine .next (.of_silent (.storeOperand offsetPointer nextOffset (layout.alignOf .i32)) rfl rfl)
      fun _ => ?_
    refine .next (.of_silent (.branch (inserted.getD 2 ⟨0⟩)) rfl rfl) fun _ => ?_
    -- the address in the overflow area
    refine .next (.of_single .nextBlock rfl rfl) fun _ => ?_
    refine .next vaListField_composed fun overflowPointer => ?_
    refine .next (.of_single (.load overflowPointer) rfl rfl) fun overflow => ?_
    refine .next (.of_single (.cast .bitCast (.ptr ty) overflow) rfl rfl) fun stackAddress => ?_
    refine .next (.of_single (.elementPointer overflow [constant32 stackSlotStep] false) rfl rfl)
      fun nextSlot => .next .layout fun layout => ?_
    refine .next (.of_silent (.storeOperand overflowPointer nextSlot (layout.alignOf nextSlot.ty))
      rfl rfl) fun _ => ?_
    refine .next (.of_silent (.branch (inserted.getD 2 ⟨0⟩)) rfl rfl) fun _ => ?_
    -- the join
    refine .next (.of_single .nextBlock rfl rfl) fun _ => ?_
    refine .next (.of_single (.phi (.ptr ty) [(registerAddress, inserted.getD 0 ⟨0⟩),
      (stackAddress, inserted.getD 1 ⟨0⟩)]) rfl rfl) fun address => ?_
    exact .unasked (.of_single (.load address) rfl rfl)
  · exact .refuse

theorem vaArgStackOnly_composed {list : Value} {ty : Ty} :
    Composed [.value list] (vaArgStackOnly list ty) := by
  unfold vaArgStackOnly
  split
  · exact .refuse
  · refine .next .layout fun layout => ?_
    refine .before vaListTag_composed fun tag => ?_
    refine .next vaListField_composed fun overflowPointer => ?_
    refine .next (.of_single (.load overflowPointer) rfl rfl) fun overflow => ?_
    refine .next (.of_single (.cast .bitCast (.ptr ty) overflow) rfl rfl) fun source => ?_
    refine .next (.of_single (.elementPointer overflow
      [constant32 (.ofNat (layout.sizeOf ty))] false) rfl rfl) fun nextSlot =>
        .next .layout fun layout => ?_
    refine .next (.of_silent (.storeOperand overflowPointer nextSlot (layout.alignOf (.ptr .i8)))
      rfl rfl) fun _ => ?_
    refine .next (.of_single (.allocate ty) rfl rfl) fun copy => ?_
    refine .next (.of_single (.cast .bitCast (.ptr .i8) copy) rfl rfl) fun copyBytes => ?_
    refine .next (.of_single (.cast .bitCast (.ptr .i8) source) rfl rfl) fun sourceBytes => ?_
    exact .next (.of_single (.call (.function Intrinsic.memcpy.callable) _) rfl rfl) fun _ => .pure

end Build

namespace Operation

open Build

/-- The operands that a pattern is given. -/
def patternOperands : Operation → List Operand
  | compareVector _ lhs rhs => [lhs, rhs]
  | fillVector source operands => .value source :: operands
  | returnWithCast value | vaStart value | vaEnd value | vaArg value _ | vaArgStackOnly value _ =>
    [.value value]
  | _ => []

theorem run_composed (operation : Operation) (pattern : operation.isSingle = false) :
    Composed operation.patternOperands operation.run := by
  cases operation with
  | compareVector operator lhs rhs => exact compareVector_composed.map _
  | fillVector source operands => exact fillVector_composed.map _
  | returnWithCast value => exact returnWithCast_composed.before fun _ => .pure
  | vaStart list => exact vaIntrinsic_composed.before fun _ => .pure
  | vaEnd list => exact vaIntrinsic_composed.before fun _ => .pure
  | vaArg list ty => exact vaArg_composed.map _
  | vaArgStackOnly list ty => exact vaArgStackOnly_composed.map _
  | _ => cases pattern

/-- The single operations that an operation comes down to: itself or nothing if it is single, a
chain if it is a pattern. -/
inductive ComesDownTo (operation : Operation) (builder : Builder) : List Operation → Prop where
  | itself (single : operation.isSingle = true)
      (performed : (operation.step builder).1 = .ok answer) :
      ComesDownTo operation builder [operation]
  | nothing (single : operation.isSingle = true)
      (refused : (operation.step builder).1 = .error (.refused error)) :
      ComesDownTo operation builder []
  | pattern (pattern : operation.isSingle = false)
      (chain : Chain builder parts (operation.step builder).2)
      (inOrder : ∀ answer, (operation.step builder).1 = .ok answer →
        operation.patternOperands.Sublist (registered parts).flatten) :
      ComesDownTo operation builder parts

variable {operation : Operation} {builder : Builder}

theorem isComposite_of_isSingle (single : operation.isSingle = true) :
    operation.isComposite = false := by
  cases operation <;> first | rfl | cases single

theorem ComesDownTo.chain {parts : List Operation} (comes : operation.ComesDownTo builder parts) :
    Chain builder parts (operation.step builder).2 := by
  cases comes with
  | itself single performed => exact .single single (Prod.ext performed rfl)
  | nothing single refused =>
    rw [state_unchanged_of_refused (isComposite_of_isSingle single) refused]
    exact .done
  | pattern _ chain _ => exact chain

theorem exists_comesDownTo (ready : builder.Ready)
    (keeps : ∀ violation, (operation.step builder).1 ≠ .error (.violated violation)) :
    ∃ parts, operation.ComesDownTo builder parts := by
  by_cases single : operation.isSingle = true
  · cases outcome : (operation.step builder).1 with
    | ok answer => exact ⟨[operation], .itself single outcome⟩
    | error failure =>
      cases failure with
      | refused error => exact ⟨[], .nothing single outcome⟩
      | violated violation => exact absurd outcome (keeps violation)
  · rw [Bool.not_eq_true] at single
    have ends := operation.run_composed single builder ready
    unfold Ends at ends
    rcases ran : operation.run.run builder with ⟨outcome, after⟩
    have stepped : operation.step builder = (outcome, after) := ran
    have left : (operation.step builder).2 = after := congrArg Prod.snd stepped
    rw [ran] at ends
    rw [stepped] at keeps
    cases outcome with
    | ok answer =>
      obtain ⟨parts, chain, inOrder⟩ := ends
      exact ⟨parts, .pattern single (left ▸ chain) fun _ _ => inOrder⟩
    | error failure =>
      rcases ends with ⟨violation, rfl⟩ | ⟨parts, chain⟩
      · exact absurd rfl (keeps violation)
      · refine ⟨parts, .pattern single (left ▸ chain) fun answer answered => ?_⟩
        rw [stepped] at answered
        cases answered

end Operation

/-! Runs -/

namespace Session

/-- The operation does not break a rule in this session, though it may be refused. -/
def KeepsRules (session : Session) (operation : Operation) : Prop :=
  ∀ violation, (operation.step session.builder).1 ≠ .error (.violated violation)

instance (session : Session) (operation : Operation) : Decidable (session.KeepsRules operation) :=
  match outcome : (operation.step session.builder).1 with
  | .ok _ => isTrue fun violation broken => by rw [outcome] at broken; cases broken
  | .error (.refused _) => isTrue fun violation broken => by rw [outcome] at broken; cases broken
  | .error (.violated violation) => isFalse fun keeps => keeps violation outcome

/-- The single operations that a list of operations comes down to. -/
inductive ComesDownTo : Session → List Operation → List Operation → Prop where
  | done : ComesDownTo session [] []
  | step (first : operation.ComesDownTo session.builder parts)
      (rest : ComesDownTo (session.after operation) operations others) :
      ComesDownTo session (operation :: operations) (parts ++ others)

variable {session : Session} {operations parts : List Operation}

theorem ComesDownTo.chain (comes : session.ComesDownTo operations parts) :
    Operation.Chain session.builder parts (operations.foldl after session).builder := by
  induction comes with
  | done => exact .done
  | step first _ ih =>
    refine first.chain.append ?_
    rw [← after_builder]
    exact ih

theorem Sound.exists_comesDownTo (sound : session.Sound)
    (keeps : Permitted KeepsRules session operations) :
    ∃ parts, session.ComesDownTo operations parts := by
  induction operations generalizing session with
  | nil => exact ⟨[], .done⟩
  | cons operation operations ih =>
    obtain ⟨parts, first⟩ := Operation.exists_comesDownTo sound.ready keeps.1
    obtain ⟨others, rest⟩ := ih (sound.effects operation).2 keeps.2
    exact ⟨parts ++ others, .step first rest⟩

/-- Whatever operations are carried out on a fresh function, refused ones included, its symbols are
the operands of its instructions in the order in which these were made, and each of them is the
operand that was given in its place to the single operation that made the instruction. -/
theorem tabulates_of_run {layout : DataLayout} {name : String} {signature : Signature}
    {fresh : Builder} {function : FunctionDef}
    (started : (Builder.start layout).run { name := name, signature := signature } =
      (.ok fresh, function))
    (keeps : Permitted KeepsRules ⟨fresh, [], []⟩ operations) :
    ∃ parts, ComesDownTo ⟨fresh, [], []⟩ operations parts ∧
      (operations.foldl after ⟨fresh, [], []⟩).builder.function.Tabulates
        (Operation.registered parts) := by
  have reached : Reached (fun _ _ => True) ⟨fresh, [], []⟩ := .start started
  obtain ⟨parts, comes⟩ := reached.sound.exists_comesDownTo keeps
  refine ⟨parts, comes, ?_⟩
  rw [Builder.run_start rfl] at started
  cases started
  exact comes.chain.tabulates reached.sound.ready (.fresh name signature 1)

/-- A store is refused because of its type, and filling a vector is refused at the second lane: the
load and the first lane are there, and nothing is registered for the others. -/
theorem tabulates_after_refusals : ∃ (opened : Session) (operations : List Operation),
    Permitted KeepsRules opened operations ∧
    (operations.foldl after opened).builder.function.symbols =
      [.parameter ⟨0, "arg_1", .ptr .i32⟩, .parameter ⟨0, "arg_1", .ptr .i32⟩,
        .result ⟨0, "1", .i32⟩, .parameter ⟨1, "arg_2", .ptr (.vector 2 .i8)⟩,
        .result ⟨2, "2", .vector 2 .i8⟩, .constant (.int .i8 7), .constant (.i32 0)] ∧
    ∃ parts, opened.ComesDownTo operations parts ∧
      (operations.foldl after opened).builder.function.Tabulates (Operation.registered parts) := by
  let signature : Signature := ⟨.void, [.ptr .i32, .ptr (.vector 2 .i8)], false⟩
  let first : Value := .parameter ⟨0, "arg_1", .ptr .i32⟩
  let second : Value := .parameter ⟨1, "arg_2", .ptr (.vector 2 .i8)⟩
  let loaded : Value := .result ⟨0, "1", .i32⟩
  let operations : List Operation := [.nextParameter, .nextParameter, .load first,
    .store first loaded 4, .store second loaded 4, .fillVector second [Literal.int 7, loaded]]
  have keeps : Permitted KeepsRules
      ⟨⟨FunctionDef.reserve { name := "f", signature := signature } 1, .x86_64, ⟨0⟩, 1, 1, none⟩,
        [], []⟩ operations := by
    decide +kernel
  exact ⟨_, operations, keeps, by decide +kernel, tabulates_of_run rfl keeps⟩

end Session

end IrAssembly
