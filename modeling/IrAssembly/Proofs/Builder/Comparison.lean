import IrAssembly.Proofs.Builder.Parameters

/-! The types that a builder compares operands with, and those under which the operands are printed.
A function has its function type in a comparison and is printed as a pointer, so what is accepted is
printed under the type that it was compared with unless it is a function. -/

namespace IrAssembly

/-- The target of a call declares a type for the parameter at a position. -/
def FunctionDef.Declares (function : FunctionDef) (target : SymbolIndex) (position : Nat)
    (param : Ty) : Prop :=
  ∃ (callee : Value) (signature : Signature), function.symbol? target = some callee ∧
    callee.ty.stripPointers = signature.toTy ∧ signature.params[position]? = some param

/-- The operands of an instruction that are compared with a type, which is read off the operands in
front of them or off the result. -/
inductive Instruction.Expects (function : FunctionDef) : Instruction → SymbolIndex → Ty → Prop where
  | stored (pointer : function.tyOf? destination = some (.ptr pointee)) :
      Expects function (.store destination source access) source pointee
  | binary (left : function.tyOf? lhs = some ty) :
      Expects function (.binary result operator flags lhs rhs) rhs ty
  | compare (left : function.tyOf? lhs = some ty) :
      Expects function (.compare result operator lhs rhs) rhs ty
  | argument (declared : function.Declares target position param)
      (given : arguments[position]? = some argument) :
      Expects function (.call result target arguments) argument param
  | voidArgument (declared : function.Declares target position param)
      (given : arguments[position]? = some argument) :
      Expects function (.voidCall target arguments) argument param
  | lane (whole : function.tyOf? vector = some (.vector len element)) :
      Expects function (.insertElement result vector value index) value element
  | member (whole : function.tyOf? aggregate = some ty)
      (found : ty.member? index.toNat = some memberTy) :
      Expects function (.insertValue result aggregate value index) value memberTy
  | onTrue : Expects function (.select result condition onTrue onFalse) onTrue result.ty
  | onFalse : Expects function (.select result condition onTrue onFalse) onFalse result.ty
  | shuffled (left : function.tyOf? first = some ty) :
      Expects function (.shuffleVector result first second mask) second ty
  | incoming (listed : edge ∈ incoming) : Expects function (.phi result incoming) edge.1 result.ty
  | condition : Expects function (.conditionalBranch condition onTrue onFalse) condition .i1
  | case (left : function.tyOf? condition = some ty) (listed : case ∈ cases) :
      Expects function (.switch condition otherwise cases) case.1 ty

/-- Operations that compare a returned value with the result type of the function, or convert it;
a plain return takes any value. -/
def Operation.checksReturn : Operation → Bool
  | .returnOperand _ | .returnWithCast _ => true
  | _ => false

/-- The comparisons that an operation makes for an instruction. -/
inductive Operation.Compares (function : FunctionDef) (operation : Operation) :
    Instruction → SymbolIndex → Ty → Prop where
  | operand (expects : instruction.Expects function index ty) :
      Compares function operation instruction index ty
  | returned (checks : operation.checksReturn = true) :
      Compares function operation (.ret (some index)) index function.signature.result

theorem Signature.toTy_injective {signature other : Signature}
    (same : signature.toTy = other.toTy) : signature = other := by
  cases signature
  cases other
  cases same
  rfl

namespace FunctionDef

variable {function : FunctionDef} {index : SymbolIndex}

/-- An operand is printed under the type that it has in comparisons just if it is no function. -/
theorem operandTy_eq_iff {ty : Ty} (typed : function.tyOf? index = some ty) :
    function.operandTy index = .ok ty ↔
      ∀ callee, function.symbol? index ≠ some (.function callee) := by
  obtain ⟨value, found, rfl⟩ := Option.map_eq_some_iff.mp typed
  have printed : function.operandTy index = .ok value.operandTy := by
    rw [operandTy, operand, found]
    rfl
  rw [printed, found]
  cases value with
  | function callee => simp [Value.operandTy, Value.ty, Signature.toTy]
  | _ => simp [Value.operandTy]

/-- A call is checked against the parameters of its target. -/
theorem Passes.argument {target : SymbolIndex} {arguments : List SymbolIndex}
    {signature : Signature} {position : Nat} {param : Ty} {argument : SymbolIndex}
    (passes : function.Passes target arguments signature)
    (declared : function.Declares target position param)
    (given : arguments[position]? = some argument) : function.tyOf? argument = some param := by
  obtain ⟨callee, declaring, found, below, declared⟩ := declared
  obtain ⟨other, present, stripped⟩ := passes.target
  cases found.symm.trans present
  cases Signature.toTy_injective (below.symm.trans stripped)
  obtain ⟨there, listed, typed⟩ := passes.leading position param declared
  cases given.symm.trans listed
  exact typed

theorem Calls.passes {target : SymbolIndex} {arguments : List SymbolIndex} {signature : Signature}
    (calls : function.Calls target arguments signature) :
    function.Passes target arguments signature := by
  obtain ⟨callee, found, _, below⟩ := calls.target
  exact ⟨⟨callee, found, below⟩, calls.leading⟩

end FunctionDef

namespace Instruction

variable {function : FunctionDef} {instruction : Instruction} {index : SymbolIndex} {ty : Ty}

theorem Typed.expected (typed : instruction.Typed function)
    (expects : instruction.Expects function index ty) : function.tyOf? index = some ty := by
  cases typed with
  | store pointer stored =>
    cases expects with
    | stored target =>
      cases pointer.symm.trans target
      exact stored
  | binary left right =>
    cases expects with
    | binary first => exact right.trans (left.symm.trans first)
  | compareLanes left right =>
    cases expects with
    | compare first => exact right.trans (left.symm.trans first)
  | compare left right _ =>
    cases expects with
    | compare first => exact right.trans (left.symm.trans first)
  | call calls _ =>
    cases expects with
    | argument declared given => exact calls.passes.argument declared given
  | voidCall calls _ =>
    cases expects with
    | voidArgument declared given => exact calls.passes.argument declared given
  | insertElement lanes lane _ =>
    cases expects with
    | lane whole =>
      cases lanes.symm.trans whole
      exact lane
  | insertValue whole _ member replaced =>
    cases expects with
    | member aggregate found =>
      cases whole.symm.trans aggregate
      cases member.symm.trans found
      exact replaced
  | select _ _ left right =>
    cases expects with
    | onTrue => exact left
    | onFalse => exact right
  | shuffleVector left right _ =>
    cases expects with
    | shuffled first => exact right.trans (left.symm.trans first)
  | phi same =>
    cases expects with
    | incoming listed => exact same _ listed
  | conditionalBranch bit =>
    cases expects with
    | condition => exact bit
  | switch integer same =>
    cases expects with
    | case condition listed => exact (same _ listed).trans (integer.symm.trans condition)
  | _ => cases expects

/-- An operand that passed the checks has the type that it was expected to have. -/
theorem Checked.expected (checked : instruction.Checked function)
    (expects : instruction.Expects function index ty) : function.tyOf? index = some ty := by
  cases checked with
  | typed typed => exact typed.expected expects
  | call passes =>
    cases expects with
    | argument declared given => exact passes.argument declared given
  | voidCall passes =>
    cases expects with
    | voidArgument declared given => exact passes.argument declared given

end Instruction

/-- A fact about an instruction that stays true while its function grows. -/
def FunctionDef.Persists (holds : FunctionDef → Instruction → Prop) : Prop :=
  ∀ ⦃before after : FunctionDef⦄ ⦃instruction : Instruction⦄, before.Grows after →
    holds before instruction → holds after instruction

/-- All instructions but the first ones of the arena are as described. -/
def Builder.HoldsFrom (holds : FunctionDef → Instruction → Prop) (count : Nat)
    (builder : Builder) : Prop :=
  ∀ instruction ∈ builder.function.instructions.drop count, holds builder.function instruction

/-- An instruction that returns a value returns one of the given type. -/
def Instruction.ReturnsAs (ty : Ty) (function : FunctionDef) (instruction : Instruction) : Prop :=
  ∀ index, instruction = .ret (some index) → function.tyOf? index = some ty

theorem Instruction.persists_checked : FunctionDef.Persists Instruction.Checked :=
  fun _ _ _ grows checked => checked.mono grows

theorem Instruction.persists_returnsAs (ty : Ty) :
    FunctionDef.Persists (Instruction.ReturnsAs ty) :=
  fun _ _ _ grows returns index same => FunctionDef.tyOf?_mono grows (returns index same)

namespace Builder.HoldsFrom

variable {holds : FunctionDef → Instruction → Prop} {count : Nat} {builder after : Builder}

/-- There are no instructions yet behind those that there are. -/
theorem here (holds : FunctionDef → Instruction → Prop) (builder : Builder) :
    HoldsFrom holds builder.function.instructions.length builder := by
  intro instruction member
  simp at member

theorem keep (held : HoldsFrom holds count builder) (persists : FunctionDef.Persists holds)
    (grows : builder.function.Grows after.function)
    (instructions : after.function.instructions = builder.function.instructions) :
    HoldsFrom holds count after := by
  intro instruction member
  rw [instructions] at member
  exact persists grows (held instruction member)

theorem append (held : HoldsFrom holds count builder) (persists : FunctionDef.Persists holds)
    {operands : List Value} {instruction : Instruction}
    (new : holds (builder.append operands instruction).function instruction) :
    HoldsFrom holds count (builder.append operands instruction) := by
  intro other member
  rw [append_instructions, List.drop_append] at member
  rcases List.mem_append.mp member with old | last
  · exact persists (grows_append ..) (held other old)
  · cases List.mem_singleton.mp (List.mem_of_mem_drop last)
    exact new

end Builder.HoldsFrom

namespace Effect

variable {values : List Value} {blocks : List BlockRef} {names : List String}
  {builder after : Builder}

theorem checkedFrom {count : Nat} (effect : Effect values blocks names builder after)
    (held : builder.HoldsFrom Instruction.Checked count) :
    after.HoldsFrom Instruction.Checked count := by
  have grows := effect.grows
  cases effect with
  | append operands instruction known aims consecutive named typed checked =>
    refine held.append Instruction.persists_checked ?_
    rw [Builder.append_function]
    exact checked.mono (.push ..)
  | enter =>
    obtain ⟨_, instructions, _⟩ := builder.enterNext_tables
    exact held.keep Instruction.persists_checked grows instructions
  | _ => exact held.keep Instruction.persists_checked grows rfl

end Effect

namespace Effects

variable {values : List Value} {blocks : List BlockRef} {names : List String}
  {builder after : Builder}

/-- Whatever is built behind a state passed the checks. -/
theorem checkedFrom (effects : Effects values blocks names builder after) :
    after.HoldsFrom Instruction.Checked builder.function.instructions.length := by
  induction effects with
  | refl => exact .here _ builder
  | tail _ effect ih => exact effect.checkedFrom ih

end Effects

namespace Build

variable {α : Type} {builder : Builder} {failed : Failure → Builder → Prop}

theorem ends_ret {done : Unit → Builder → Prop} (isOpen : builder.function.finished = false)
    (value : Value) : Ends (ret value) builder done failed ↔
      done () (builder.append [value] (.ret (some builder.function.symbols.length))) := by
  rw [ret, ends_operand isOpen, ends_emit_registered isOpen rfl]

theorem ends_cast {done : Value → Builder → Prop} (isOpen : builder.function.finished = false)
    (operator : CastOperator) (ty : Ty) (value : Value) :
    Ends (cast operator ty value) builder done failed ↔
      done (.result ⟨builder.function.instructions.length, builder.resultName, ty⟩)
        (builder.append [value]
          (.cast ⟨builder.resultName, ty⟩ operator builder.function.symbols.length)) := by
  rw [cast, ends_operand isOpen, ends_emitValue_registered isOpen fun _ => rfl]

/-- A value that is returned is the newest operand. -/
theorem returnsAs_append {value : Value} {ty : Ty} (same : value.ty = ty) :
    Instruction.ReturnsAs ty
      (builder.append [value] (.ret (some builder.function.symbols.length))).function
      (.ret (some builder.function.symbols.length)) := by
  intro index returned
  cases returned
  have registered : (builder.function.withSymbols [value]).tyOf? builder.function.symbols.length =
      some ty := by
    simp [same]
  rw [Builder.append_function]
  exact FunctionDef.tyOf?_mono (.push ..) registered

/-- However a step ends, the values that it has returned are of the result type. -/
def Returns (step : Build α) (builder : Builder) : Prop :=
  let returned (after : Builder) :=
    after.HoldsFrom (Instruction.ReturnsAs builder.function.signature.result)
      builder.function.instructions.length
  Ends step builder (fun _ after => returned after) (fun _ after => returned after)

theorem returnOperand_returns (ready : builder.Ready) (operand : Operand) :
    Returns (returnOperand operand) builder := by
  have persists := Instruction.persists_returnsAs builder.function.signature.result
  have held := Builder.HoldsFrom.here
    (Instruction.ReturnsAs builder.function.signature.result) builder
  simp only [Returns, returnOperand, ends_bind, ends_function]
  apply ends_accept fun _ => held
  intro value _
  apply ends_expectTy fun _ => held
  intro same
  rw [ends_ret ready.isOpen]
  exact held.append persists (returnsAs_append same)

theorem returnWithCast_returns (ready : builder.Ready) (value : Value) :
    Returns (returnWithCast value) builder := by
  have persists := Instruction.persists_returnsAs builder.function.signature.result
  have held := Builder.HoldsFrom.here
    (Instruction.ReturnsAs builder.function.signature.result) builder
  simp only [Returns, returnWithCast, ends_bind, ends_function]
  split
  · rename_i same
    rw [ends_ret ready.isOpen]
    exact held.append persists (returnsAs_append same)
  · rw [ends_bind, ends_layout, ends_bind]
    apply ends_accept fun _ => held
    intro operator _
    rw [ends_bind, ends_cast ready.isOpen]
    refine (ends_ret ?_ _).mpr ?_
    · rw [Builder.append_function]
      exact ready.isOpen
    -- the conversion returns nothing, and what is returned is its result
    refine (held.append persists ?_).append persists (returnsAs_append rfl)
    intro index returned
    cases returned

end Build

/-- A return that is checked returns a value of the result type, if any. -/
theorem Operation.returnsFrom {operation : Operation} {builder : Builder} (ready : builder.Ready)
    (checks : operation.checksReturn = true) :
    (operation.step builder).2.HoldsFrom (Instruction.ReturnsAs builder.function.signature.result)
      builder.function.instructions.length := by
  cases operation with
  | returnOperand operand =>
    refine Build.Ends.state ?_
    rw [run, Build.ends_bind]
    exact Build.returnOperand_returns ready operand
  | returnWithCast value =>
    refine Build.Ends.state ?_
    rw [run, Build.ends_bind]
    exact Build.returnWithCast_returns ready value
  | _ => cases checks

namespace Builder

variable {builder : Builder}

/-- What building leaves of a function for good. -/
theorem Ready.later (ready : builder.Ready) (operations : List Operation) :
    builder.function.Grows (builder.carryOut operations).function ∧
      (builder.carryOut operations).function.signature = builder.function.signature := by
  induction operations generalizing builder with
  | nil => exact ⟨.refl _, rfl⟩
  | cons operation operations ih =>
    obtain ⟨effects, _⟩ := operation.step_effects ready
    obtain ⟨grows, signature⟩ := ih (effects.ready ready)
    have same := (operation.step_lengthens ready.isOpen).signature
    exact ⟨effects.grows.trans grows, signature.trans same⟩

/-- Every operand that an operation compares has the type that it was compared with, and goes on to
have it however building goes on. It is printed under this type just if it is no function. -/
theorem printed_as_compared_iff (reachable : builder.Reachable) {operation : Operation}
    (further : List Operation) {instruction : Instruction} {index : SymbolIndex} {expected : Ty}
    (appended : instruction ∈ (operation.step builder).2.function.instructions.drop
      builder.function.instructions.length)
    (compares : operation.Compares (builder.carryOut (operation :: further)).function
      instruction index expected) :
    let function := (builder.carryOut (operation :: further)).function
    function.tyOf? index = some expected ∧
      (function.operandTy index = .ok expected ↔
        ∀ callee, function.symbol? index ≠ some (.function callee)) := by
  intro function
  have ready := reachable.ready
  obtain ⟨effects, _⟩ := operation.step_effects ready
  obtain ⟨grows, _⟩ := (effects.ready ready).later further
  obtain ⟨_, signature⟩ := ready.later (operation :: further)
  have typed : function.tyOf? index = some expected := by
    cases compares with
    | operand expects =>
      have checked := effects.checkedFrom instruction appended
      exact (checked.mono grows).expected expects
    | returned checks =>
      have returns := operation.returnsFrom ready checks _ appended index rfl
      rw [signature]
      exact FunctionDef.tyOf?_mono grows returns
  exact ⟨typed, FunctionDef.operandTy_eq_iff typed⟩

/-- A call is handed a number and a function, both of the declared types. -/
theorem number_printed_as_compared : ∃ builder : Builder, builder.Reachable ∧
    let signature : Signature := ⟨.void, [.i32, .func .void [] false], false⟩
    let apply := Operation.call (.function ⟨"apply", signature⟩)
      [.constant (.i32 7), .function ⟨"f", ⟨.void, [], false⟩⟩]
    let function := (builder.carryOut [apply]).function
    (apply.step builder).1 = .ok .nothing ∧
    function.instructions = [.voidCall 0 [1, 2]] ∧
    function.operandTy 1 = .ok .i32 ∧
    function.tyOf? 2 = some (.func .void [] false) ∧
    function.operandTy 2 ≠ .ok (.func .void [] false) := by
  have reachable := Builder.Reachable.run (.fresh "main" ⟨.void, [], false⟩)
    (Builder.run_start rfl .x86_64) []
  refine ⟨_, reachable, ?_⟩
  intro signature apply function
  have appended : Instruction.voidCall 0 [1, 2] ∈ [Instruction.voidCall 0 [1, 2]] :=
    List.mem_singleton_self _
  have param : function.Declares 0 0 .i32 := ⟨_, signature, rfl, rfl, rfl⟩
  have first : apply.Compares function (.voidCall 0 [1, 2]) 1 .i32 :=
    .operand (.voidArgument param rfl)
  have functionParam : function.Declares 0 1 (.func .void [] false) := ⟨_, signature, rfl, rfl, rfl⟩
  have second : apply.Compares function (.voidCall 0 [1, 2]) 2 (.func .void [] false) :=
    .operand (.voidArgument functionParam rfl)
  obtain ⟨_, number⟩ := printed_as_compared_iff reachable [] appended first
  obtain ⟨typed, callee⟩ := printed_as_compared_iff reachable [] appended second
  refine ⟨rfl, rfl, number.mpr ?_, typed, ?_⟩
  · intro callee same
    cases same
  · intro same
    exact callee.mp same _ rfl

/-- A choice between two functions has their type, but is printed with pointers to choose from. -/
theorem chosen_function_printed_as_pointer : ∃ builder : Builder, builder.Reachable ∧
    let ty : Ty := .func .void [] false
    let choose := Operation.select (.constant (.i1 true)) (.function ⟨"f", ⟨.void, [], false⟩⟩)
      (.function ⟨"g", ⟨.void, [], false⟩⟩)
    let after := (choose.step builder).2.function
    (choose.step builder).1 = .ok (.value (.result ⟨0, "1", ty⟩)) ∧
    after.instructions = [.select ⟨"1", ty⟩ 0 1 2] ∧
    choose.Compares after (.select ⟨"1", ty⟩ 0 1 2) 1 ty ∧
    choose.Compares after (.select ⟨"1", ty⟩ 0 1 2) 2 ty ∧
    after.operandTy 1 = .ok (.ptr ty) ∧ after.operandTy 2 = .ok (.ptr ty) := by
  have reachable := Builder.Reachable.run (.fresh "main" ⟨.void, [], false⟩)
    (Builder.run_start rfl .x86_64) []
  exact ⟨_, reachable, rfl, rfl, .operand .onTrue, .operand .onFalse, rfl, rfl⟩

end Builder

end IrAssembly
