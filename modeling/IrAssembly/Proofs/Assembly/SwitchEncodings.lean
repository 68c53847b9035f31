import IrAssembly.Proofs.Assembly.Printable
import IrAssembly.Proofs.Constant.Wrapping
import IrAssembly.Proofs.Execution.Instructions
import IrAssembly.Proofs.Success

/-! The two encodings of a switch. One keeps the numbers of its cases, the other registers a
constant for each of them. A number that its type can hold is the same in both, so both are written
alike. -/

namespace IrAssembly

/-! What is appended -/

namespace Build

variable {builder : Builder} {condition : Value} {bits : UInt32} {otherwise : BlockRef}

theorem expectInteger_of_int {operation : String} (integer : condition.ty = .int bits) :
    expectInteger operation condition = pure () := by
  simp [expectInteger, integer, Ty.isInteger]

theorem literalSwitch_puts {cases : List (Int64 × BlockRef)}
    (isOpen : builder.function.finished = false) (integer : condition.ty = .int bits) :
    Succeeds (literalSwitch condition otherwise cases) builder fun _ =>
      builder.Puts [condition]
        (.literalSwitch builder.function.symbols.length otherwise cases) := by
  rw [Succeeds, literalSwitch, expectInteger_of_int integer, pure_bind, ends_operand isOpen]
  exact emit_puts isOpen rfl

theorem switch_puts {cases : List (Value × BlockRef)} (isOpen : builder.function.finished = false)
    (integer : condition.ty = .int bits) (same : ∀ case ∈ cases, case.1.ty = .int bits) :
    Succeeds (switch condition otherwise cases) builder fun _ =>
      builder.Puts (condition :: cases.map Prod.fst) (.switch builder.function.symbols.length
        otherwise (edgesFrom (builder.function.symbols.length + 1) cases)) := by
  have stillOpen : (builder.register [condition]).function.finished = false := isOpen
  rw [switch, expectInteger_of_int integer, pure_bind, integer]
  refine (succeeds_expectAll same).bind ?_
  rintro _ _ rfl
  rw [Succeeds, ends_operand isOpen, ends_bind, ends_edges stillOpen, Builder.register_register,
    Builder.register_function, FunctionDef.length_symbols_withSymbols, ← edgesFrom]
  exact emit_puts isOpen rfl

end Build

/-! What is written -/

namespace FunctionDef

variable {function left right : FunctionDef} {ref : BlockRef} {dialect : Dialect}

/-- A constant of a number that its type can hold shows the number itself, unless it is one bit. -/
theorem typedOperand_of_integer {index : SymbolIndex} {bits : UInt32} {value : Int64}
    (registered : function.symbol? index = some (.constant (.integer (.int bits) value)))
    (wide : 2 ≤ bits.toNat) (inRange : InSignedRange bits.toNat value.toInt) :
    function.typedOperand dialect index =
      .ok ((Ty.int bits).text ++ " " ++ toString value.toInt) := by
  have kept : signNormalize value bits = value :=
    signNormalize_of_inSignedRange (Nat.lt_of_lt_of_le Nat.zero_lt_two wide) inRange
  have notBit : Ty.int bits ≠ .i1 := by
    rintro ⟨⟩
    exact absurd wide (by decide)
  have number : integerText (.int bits) (signNormalize value bits) = toString value.toInt := by
    rw [kept, integerText, if_neg notBit]
  rw [typedOperand, operand_of_symbol? registered, ← number]
  rfl

theorem labelText_congr (same : left.blockName ref = right.blockName ref) :
    left.labelText ref = right.labelText ref := by
  rw [labelText, labelText, same]

theorem blockName_push (function : FunctionDef) (target ref : BlockRef)
    (instruction : Instruction) :
    (function.push target instruction).2.blockName ref = function.blockName ref := by
  simp only [blockName, block?, push, List.getElem?_modify]
  cases function.blocks[ref.id]? with
  | none => rfl
  | some block =>
    obtain ⟨id, index, name, instructions⟩ := block
    by_cases same : target.id = ref.id <;> cases name <;> simp [same]

/-- The texts of cases do not matter to what is written around them. -/
theorem switchText_congr {first second : SymbolIndex} {condition : Value} {otherwise : BlockRef}
    (inLeft : left.symbol? first = some condition) (inRight : right.symbol? second = some condition)
    (same : left.blockName otherwise = right.blockName otherwise) (texts : List String) :
    left.switchText dialect first otherwise texts =
      right.switchText dialect second otherwise texts := by
  rw [switchText, switchText, typedOperand, typedOperand, operand_of_symbol? inLeft,
    operand_of_symbol? inRight, labelText_congr same]

variable {first second : SymbolIndex} {condition : Value} {bits : UInt32} {otherwise : BlockRef}
  {cases : List (Int64 × BlockRef)} {edges : List (SymbolIndex × BlockRef)}

/-- A switch over some numbers, and one over constants that are registered for these numbers. -/
theorem line_literalSwitch_eq_line_switch (integer : condition.ty = .int bits)
    (wide : 2 ≤ bits.toNat)
    (inRange : ∀ case ∈ cases, InSignedRange bits.toNat case.1.toInt)
    (inLeft : left.symbol? first = some condition) (inRight : right.symbol? second = some condition)
    (constants : List.Forall₂ (fun case edge =>
      right.symbol? edge.1 = some (.constant (.integer (.int bits) case.1)) ∧ edge.2 = case.2)
      cases edges)
    (names : ∀ ref ∈ otherwise :: cases.map Prod.snd, left.blockName ref = right.blockName ref) :
    left.line dialect (.literalSwitch first otherwise cases) =
      right.line dialect (.switch second otherwise edges) := by
  obtain ⟨otherwiseName, caseNames⟩ := List.forall_mem_cons.mp names
  rw [List.forall_mem_map] at caseNames
  have shown : left.operandTy first = .ok (.int bits) := by
    rw [operandTy_of_symbol? inLeft, Value.operandTy_eq_ty (integer ▸ rfl), integer]
  -- case by case, with all that is known of the number and its block
  have each := (List.forall₂_and_left ..).mpr ⟨inRange, (List.forall₂_and_left ..).mpr
    ⟨caseNames, constants⟩⟩
  have texts : (cases.mapM fun case => left.labelText case.2 >>= fun label =>
        pure ((Ty.int bits).text ++ " " ++ toString case.1.toInt ++ ", " ++ label)) =
      edges.mapM fun edge => right.typedOperand dialect edge.1 >>= fun number =>
        right.labelText edge.2 >>= fun label => pure (number ++ ", " ++ label) := by
    refine mapM_eq_mapM (each.imp ?_)
    rintro ⟨value, block⟩ ⟨index, _⟩ ⟨fits, sameName, registered, rfl⟩
    dsimp only at sameName registered fits ⊢
    rw [labelText_congr sameName, typedOperand_of_integer registered wide fits]
    rfl
  simp only [line, bodyText, shown, Instruction.result?, bind_pure,
    switchText_congr inLeft inRight otherwiseName]
  exact congrArg (· >>= right.switchText dialect second otherwise) texts

end FunctionDef

/-- Two instructions of two functions that lead to the same blocks and are written alike in both
dialects. They still are when the functions have grown, as long as these blocks are called the same
in both. There is a line if the blocks are there and the constants can be written. -/
structure WrittenAlike (left right : FunctionDef) (first second : Instruction) : Prop where
  successors : first.successors = second.successors
  lines : ∀ dialect, left.line dialect first = right.line dialect second
  later : ∀ leftLater rightLater : FunctionDef, left.Grows leftLater → right.Grows rightLater →
    (∀ ref ∈ first.successors, leftLater.blockName ref = rightLater.blockName ref) →
    ∀ dialect, leftLater.line dialect first = rightLater.line dialect second
  writes : left.WellFormedConstants → (∀ ref ∈ first.successors, left.HasBlock ref) →
    ∀ dialect, Writes (left.line dialect first)

namespace Operation

variable {builder : Builder} {condition : Value} {bits : UInt32} {otherwise : BlockRef}
  {cases : List (Int64 × BlockRef)}

/-- The cases of a switch, with a constant of a type for each number. -/
def symbolicCases (ty : Ty) (cases : List (Int64 × BlockRef)) : List (Value × BlockRef) :=
  cases.map fun (value, block) => (.constant (.integer ty value), block)

/-- What an operation leaves that appends an instruction and gives nothing back. -/
theorem step_of_puts {operation : Operation} {step : Build Unit} {operands : List Value}
    {instruction : Instruction} (carried : operation.run = step >>= fun _ => pure .nothing)
    (puts : Build.Succeeds step builder fun _ => builder.Puts operands instruction) :
    operation.step builder = (.ok .nothing, builder.append operands instruction) := by
  have answers : Build.Succeeds operation.run builder fun answer after =>
      answer = .nothing ∧ after = builder.append operands instruction := by
    rw [carried]
    exact puts.bind fun _ _ puts => (Build.ends_pure _).mpr ⟨rfl, puts.after⟩
  exact answers.run_eq

/-- Behind the condition, each constant is registered for its case. -/
theorem registered_symbolicCases {ty : Ty} {instruction : Instruction} {final : FunctionDef}
    (grows : (builder.append (condition :: (symbolicCases ty cases).map Prod.fst)
      instruction).function.Grows final) :
    List.Forall₂ (fun case edge =>
        final.symbol? edge.1 = some (.constant (.integer ty case.1)) ∧ edge.2 = case.2)
      cases (Build.edgesFrom (builder.function.symbols.length + 1) (symbolicCases ty cases)) := by
  have registered := builder.function.registered [condition] ((symbolicCases ty cases).map Prod.fst)
  rw [List.length_map] at registered
  rw [Builder.append_function] at grows
  have edges := Build.forall₂_edgesFrom (registered.imp fun index value found =>
    grows.symbol? (FunctionDef.Grows.symbol? (.push ..) found))
  exact (List.forall₂_map_right_iff.mp edges).flip

theorem writtenAlike_append (integer : condition.ty = .int bits) (wide : 2 ≤ bits.toNat)
    (inRange : ∀ case ∈ cases, InSignedRange bits.toNat case.1.toInt) :
    let constants := (symbolicCases (.int bits) cases).map Prod.fst
    let first : Instruction :=
      .literalSwitch builder.function.symbols.length otherwise cases
    let second : Instruction := .switch builder.function.symbols.length otherwise
      (Build.edgesFrom (builder.function.symbols.length + 1) (symbolicCases (.int bits) cases))
    WrittenAlike (builder.append [condition] first).function
      (builder.append (condition :: constants) second).function first second := by
  intro constants first second
  have inLeft : (builder.append [condition] first).function.symbol? _ = some condition :=
    builder.symbolsFrom_append [condition] first 0 condition rfl
  have inRight : (builder.append (condition :: constants) second).function.symbol? _ =
      some condition := builder.symbolsFrom_append (condition :: constants) second 0 condition rfl
  have later (leftLater rightLater : FunctionDef)
      (growsLeft : (builder.append [condition] first).function.Grows leftLater)
      (growsRight : (builder.append (condition :: constants) second).function.Grows rightLater)
      (names : ∀ ref ∈ first.successors, leftLater.blockName ref = rightLater.blockName ref)
      (dialect : Dialect) : leftLater.line dialect first = rightLater.line dialect second :=
    FunctionDef.line_literalSwitch_eq_line_switch integer wide inRange (growsLeft.symbol? inLeft)
      (growsRight.symbol? inRight) (registered_symbolicCases growsRight) names
  -- appending an instruction renames no block, so the lines agree at once
  refine ⟨?_, ?_, later, ?_⟩
  · simp [first, second, Instruction.successors, symbolicCases]
  · refine later _ _ (.refl _) (.refl _) fun ref _ => ?_
    rw [Builder.append_function, Builder.append_function, FunctionDef.blockName_push,
      FunctionDef.blockName_push]
    rfl
  · intro constants aims dialect
    have typed : first.Typed (builder.append [condition] first).function :=
      .literalSwitch ((congrArg (Option.map Value.ty) inLeft).trans (congrArg some integer))
    exact (typed.bodyText_writes constants aims).bind fun _ _ => .pure _

/-- Over integers of two bits and more, a switch is the same in both encodings, as long as its type
can hold the numbers of its cases: both are appended, lead to the same blocks and are written alike
in both dialects. -/
theorem switch_encodings_agree (isOpen : builder.function.finished = false)
    (integer : condition.ty = .int bits) (wide : 2 ≤ bits.toNat) (otherwise : BlockRef)
    (inRange : ∀ case ∈ cases, InSignedRange bits.toNat case.1.toInt) :
    let old := (literalSwitch condition otherwise cases).step builder
    let new := (switch condition otherwise (symbolicCases (.int bits) cases)).step builder
    old.1 = .ok .nothing ∧ new.1 = .ok .nothing ∧ ∃ literal symbolic,
      old.2.function.instructions = builder.function.instructions ++ [literal] ∧
      new.2.function.instructions = builder.function.instructions ++ [symbolic] ∧
      WrittenAlike old.2.function new.2.function literal symbolic := by
  have same : ∀ case ∈ symbolicCases (.int bits) cases, case.1.ty = .int bits := by
    rw [symbolicCases, List.forall_mem_map]
    exact fun _ _ => rfl
  rw [step_of_puts rfl (Build.literalSwitch_puts isOpen integer),
    step_of_puts rfl (Build.switch_puts isOpen integer same)]
  exact ⟨rfl, rfl, _, _, Builder.append_instructions .., Builder.append_instructions ..,
    writtenAlike_append integer wide inRange⟩

/-- The least and the greatest byte as cases. -/
theorem switch_encodings_agree_on_bytes : ∃ builder : Builder, builder.Reachable ∧
    let condition : Value := .parameter ⟨0, "arg_1", .i8⟩
    let cases : List (Int64 × BlockRef) := [(-128, ⟨1⟩), (127, ⟨2⟩)]
    let old := (literalSwitch condition ⟨2⟩ cases).step builder
    let new := (switch condition ⟨2⟩ (symbolicCases .i8 cases)).step builder
    let text := "switch i8 %arg_1, label %2 [ i8 -128, label %1\n    i8 127, label %2 ]"
    old.1 = .ok .nothing ∧ new.1 = .ok .nothing ∧ ∃ symbolic,
      new.2.function.instructions = builder.function.instructions ++ [symbolic] ∧
      symbolic.successors = [⟨2⟩, ⟨1⟩, ⟨2⟩] ∧
      ∀ dialect, new.2.function.line dialect symbolic = .ok text := by
  have reachable := Builder.Reachable.run (.fresh "f" ⟨.void, [.i8], false⟩)
    (Builder.run_start rfl .x86_64) [.nextParameter, .insertBlocks 2]
  refine ⟨_, reachable, ?_⟩
  intro condition cases old new text
  have inRange : ∀ case ∈ cases, InSignedRange (8 : UInt32).toNat case.1.toInt := by decide
  obtain ⟨oldDone, newDone, literal, symbolic, oldLast, newLast, alike⟩ :=
    switch_encodings_agree reachable.ready.isOpen (show condition.ty = .int 8 from rfl) (by decide)
      ⟨2⟩ inRange
  have only : [Instruction.literalSwitch 0 ⟨2⟩ cases] = [literal] := oldLast
  obtain rfl := List.singleton_inj.mp only
  refine ⟨oldDone, newDone, symbolic, newLast, alike.successors.symm, fun dialect => ?_⟩
  have written : old.2.function.line dialect (.literalSwitch 0 ⟨2⟩ cases) = .ok text := by
    cases dialect <;> decide +kernel
  exact (alike.lines dialect).symm.trans written

end Operation

end IrAssembly
