import IrAssembly.Proofs.Assembly.Script

/-! The two dialects write one script: whatever is written in the newer dialect is written in the
older one as well, and the two texts differ at the marked places of the script only. -/

namespace IrAssembly

variable {α β : Type}

/-- If the newer dialect has a result, every dialect has the one that is given for it. -/
def Agrees (write : Dialect → Except WriteError α) (given : Dialect → α) : Prop :=
  ∀ result, write .v38 = .ok result → ∀ dialect, write dialect = .ok (given dialect)

namespace Agrees

variable {write : Dialect → Except WriteError α} {given : Dialect → α}

theorem done {result : Dialect → α} (same : ∀ dialect, result dialect = given dialect) :
    Agrees (fun dialect => pure (result dialect)) given :=
  fun _ _ dialect => congrArg Except.ok (same dialect)

theorem refused {error : WriteError} (failed : write .v38 = .error error) : Agrees write given := by
  intro result written
  rw [failed] at written
  cases written

theorem bind {next : Dialect → α → Except WriteError β} {last : Dialect → β}
    (first : Agrees write given)
    (second : Agrees (fun dialect => next dialect (given dialect)) last) :
    Agrees (fun dialect => write dialect >>= next dialect) last := by
  intro result written dialect
  dsimp only at written ⊢
  cases ran : write .v38 with
  | error error =>
    rw [ran] at written
    cases written
  | ok value =>
    have all := first value ran
    rw [all .v38] at written
    rw [all dialect]
    exact second result written dialect

/-- What does not depend on the dialect agrees with itself. -/
theorem same (outcome : Except WriteError α) (default : α) :
    Agrees (fun _ => outcome) (fun _ => outcome.toOption.getD default) := by
  intro result written dialect
  have written : outcome = .ok result := written
  subst written
  rfl

theorem mapM {item : Dialect → β → Except WriteError α} (each : Dialect → β → α)
    (items : List β) (agrees : ∀ entry ∈ items, Agrees (item · entry) (each · entry)) :
    Agrees (fun dialect => items.mapM (item dialect))
      (fun dialect => items.map (each dialect)) := by
  induction items with
  | nil => exact .done fun _ => rfl
  | cons entry items ih =>
    simp only [List.mapM_cons, List.map_cons]
    refine (agrees entry (List.mem_cons_self ..)).bind ?_
    refine (ih fun other member => agrees other (List.mem_cons_of_mem _ member)).bind ?_
    exact .done fun _ => rfl

end Agrees

/-! Constants and values -/

theorem explicitPointee_agrees (base : Ty) :
    Agrees (fun dialect => explicitPointee dialect base) (fun dialect =>
      if dialect.explicitPointee then (base.pointee?.getD base).text ++ ", " else "") := by
  cases pointer : base.pointee? with
  | none =>
    have failed : explicitPointee .v38 base = .error (.elementPointerOn base) := by
      simp [explicitPointee, Dialect.explicitPointee, pointer]
    exact .refused failed
  | some pointee =>
    intro _ _ dialect
    cases dialect <;> simp [explicitPointee, Dialect.explicitPointee, pointer]

namespace Constant

mutual

theorem text_agrees : ∀ constant : Constant,
    Agrees (fun dialect => constant.text dialect) (fun dialect => constant.script.text dialect)
  | int _ _ | bigInt _ _ | float _ | null _ | undef _ | zero _ | inlineAsm _ | global _ _ => by
    simp only [text, script]
    exact .done fun dialect => by simp
  | aggregate ty elements => by
    simp only [text, script]
    refine (Agrees.same _ ("", "")).bind
      ((typedTexts_agrees elements).bind (.done fun dialect => ?_))
    simp [commaSeparated, String.append_assoc]
  | elementPointer _ base indices inbounds => by
    simp only [text, script]
    refine (explicitPointee_agrees base.ty).bind ((text_agrees base).bind
      ((typedTexts_agrees indices).bind (.done fun dialect => ?_)))
    cases dialect <;>
      simp [commaSeparated, Dialect.explicitPointee, Dialect.pointeeText,
        String.append_assoc]

theorem typedTexts_agrees : ∀ constants : List Constant,
    Agrees (fun dialect => typedTexts dialect constants)
      (fun dialect => (typedScripts constants).map (Script.text dialect))
  | [] => .done fun _ => rfl
  | constant :: constants => by
    simp only [typedTexts, typedScripts]
    refine (text_agrees constant).bind
      ((typedTexts_agrees constants).bind (.done fun dialect => ?_))
    simp [String.append_assoc]

end

end Constant

namespace Value

theorem text_agrees (value : Value) :
    Agrees (fun dialect => value.text dialect) (fun dialect => value.script.text dialect) := by
  cases value with
  | constant known => exact known.text_agrees
  | _ => exact .done fun dialect => by simp [script]

theorem typedText_agrees (value : Value) :
    Agrees (fun dialect => value.typedText dialect)
      (fun dialect => value.typedScript.text dialect) := by
  refine value.text_agrees.bind (.done fun dialect => ?_)
  simp [typedScript]

end Value

/-! Instructions -/

namespace FunctionDef

variable (function : FunctionDef)

/-- An operand is looked up in the same way for every dialect. -/
theorem operand_agrees {write : Value → Dialect → Except WriteError α} {given : Dialect → α}
    (index : SymbolIndex)
    (agrees : ∀ value, function.symbol? index = some value → Agrees (write value) given) :
    Agrees (fun dialect => function.operand index >>= fun value => write value dialect) given := by
  unfold operand
  cases found : function.symbol? index with
  | none => exact .refused rfl
  | some value => exact agrees value found

theorem operandText_agrees (index : SymbolIndex) :
    Agrees (fun dialect => function.operandText dialect index)
      (fun dialect => (function.operandScript index).text dialect) := by
  refine function.operand_agrees index fun value found => ?_
  simpa only [operandScript, found, Option.elim_some] using value.text_agrees

theorem typedOperand_agrees (index : SymbolIndex) :
    Agrees (fun dialect => function.typedOperand dialect index)
      (fun dialect => (function.typedOperandScript index).text dialect) := by
  refine function.operand_agrees index fun value found => ?_
  simpa only [typedOperandScript, found, Option.elim_some] using value.typedText_agrees

theorem typedOperands_agree (indices : List SymbolIndex) :
    Agrees (fun dialect => indices.mapM (function.typedOperand dialect))
      (fun dialect => indices.map fun index => (function.typedOperandScript index).text dialect) :=
  .mapM _ indices fun index _ => function.typedOperand_agrees index

theorem labelText_agrees (ref : BlockRef) :
    Agrees (fun _ => function.labelText ref)
      (fun dialect => (function.labelScript ref).text dialect) := by
  simpa [labelScript] using Agrees.same (function.labelText ref) ""

/-- The type of an operand is looked up in the same way for every dialect. -/
theorem operandTy_agrees {write : Ty → Dialect → Except WriteError α} {given : Dialect → α}
    (index : SymbolIndex)
    (agrees : ∀ value, function.symbol? index = some value →
      Agrees (write value.operandTy) given) :
    Agrees (fun dialect => function.operandTy index >>= fun ty => write ty dialect) given := by
  unfold operandTy operand
  cases found : function.symbol? index with
  | none => exact .refused rfl
  | some value => exact agrees value found

theorem calleeTyText_eq (dialect : Dialect) (signature : Signature) :
    calleeTyText dialect signature = (calleeScript signature).text dialect := by
  have unfolded : calleeTyText dialect signature = if signature.spelledOut then
      " " ++ signature.parameterList ++ (if dialect.calleePointer then "*" else "") else "" := rfl
  rw [unfolded, calleeScript]
  split <;> cases dialect <;>
    simp [Dialect.calleePointer, Dialect.calleeStar, String.append_assoc]

theorem callText_agrees (target : SymbolIndex) (arguments : List SymbolIndex) :
    Agrees (fun dialect => function.callText dialect target arguments)
      (fun dialect => (function.callScript target arguments).text dialect) := by
  refine function.operand_agrees target fun callee found => ?_
  dsimp only
  cases known : callee.ty.stripPointers.signature? with
  | none => exact .refused rfl
  | some signature =>
    refine callee.text_agrees.bind
      ((function.typedOperands_agree arguments).bind (.done fun dialect => ?_))
    simp [callScript, operandScript, found, known, calleeTyText_eq, commaSeparated,
      String.append_assoc, Function.comp_def]

theorem switchText_agrees {cases : Dialect → List String} {scripts : List Script}
    (same : ∀ dialect, cases dialect = scripts.map (Script.text dialect)) (condition : SymbolIndex)
    (otherwise : BlockRef) :
    Agrees (fun dialect => function.switchText dialect condition otherwise (cases dialect))
      (fun dialect => (function.switchScript condition otherwise scripts).text dialect) := by
  refine (function.typedOperand_agrees condition).bind
    ((function.labelText_agrees otherwise).bind (.done fun dialect => ?_))
  simp [switchScript, same, String.append_assoc]

theorem operandsText_agrees (opcode : String) (indices : List SymbolIndex) :
    Agrees (fun dialect => do
        let operands ← indices.mapM (function.typedOperand dialect)
        return opcode ++ commaSeparated operands)
      (fun dialect => (function.operandsScript opcode indices).text dialect) := by
  refine (function.typedOperands_agree indices).bind (.done fun dialect => ?_)
  simp [operandsScript, commaSeparated, Function.comp_def]

theorem bodyText_agrees (instruction : Instruction) :
    Agrees (fun dialect => function.bodyText dialect instruction)
      (fun dialect => (function.bodyScript instruction).text dialect) := by
  cases instruction with
  | allocate result allocated count align =>
    refine function.operand_agrees count fun value found => ?_
    dsimp only
    split
    · have omitted : (function.symbol? count).elim [] Value.countScript = [] := by
        rw [found]
        rfl
      exact .done fun dialect => by simp [bodyScript, omitted]
    · rename_i several
      -- the script takes the count apart in a match of its own
      have spelled : value.countScript = .plain ", " :: value.typedScript := by
        unfold Value.countScript
        split
        · exact absurd rfl (several _)
        · rfl
      refine value.typedText_agrees.bind (.done fun dialect => ?_)
      simp [bodyScript, found, spelled, String.append_assoc]
  | load result source access =>
    refine (function.typedOperand_agrees source).bind (.done fun dialect => ?_)
    cases dialect <;>
      simp [bodyScript, Dialect.explicitPointee, Dialect.pointeeText,
        String.append_assoc]
  | store destination source access =>
    refine function.operandTy_agrees destination fun value found => ?_
    cases pointer : value.operandTy.pointee? with
    | none => exact .refused rfl
    | some pointee =>
      refine (function.operandText_agrees source).bind
        ((function.operandText_agrees destination).bind (.done fun dialect => ?_))
      simp [bodyScript, operandTyText, operandPointee, found, pointer,
        String.append_assoc]
  | binary result operator flags lhs rhs =>
    refine (function.operandText_agrees lhs).bind
      ((function.operandText_agrees rhs).bind (.done fun dialect => ?_))
    simp [bodyScript, String.append_assoc]
  | compare result operator lhs rhs =>
    refine (function.typedOperand_agrees lhs).bind
      ((function.operandText_agrees rhs).bind (.done fun dialect => ?_))
    simp [bodyScript, String.append_assoc]
  | cast result operator value =>
    refine (function.typedOperand_agrees value).bind (.done fun dialect => ?_)
    simp [bodyScript, String.append_assoc]
  | call result target arguments | voidCall target arguments =>
    exact function.callText_agrees target arguments
  | branch successor =>
    refine (function.labelText_agrees successor).bind (.done fun dialect => ?_)
    simp [bodyScript]
  | conditionalBranch condition onTrue onFalse =>
    refine (function.typedOperand_agrees condition).bind ((function.labelText_agrees onTrue).bind
      ((function.labelText_agrees onFalse).bind (.done fun dialect => ?_)))
    simp [bodyScript, String.append_assoc]
  | indirectBranch address successors =>
    refine (Agrees.mapM _ successors fun ref _ => function.labelText_agrees ref).bind
      ((function.typedOperand_agrees address).bind (.done fun dialect => ?_))
    simp [bodyScript, commaSeparated, Function.comp_def, String.append_assoc]
  | switch condition otherwise cases =>
    let caseText (dialect : Dialect) (case : SymbolIndex × BlockRef) : String :=
      (function.typedOperandScript case.1).text dialect ++ ", "
        ++ (function.labelScript case.2).text dialect
    refine (Agrees.mapM caseText cases fun case _ => ?_).bind
      (function.switchText_agrees (fun dialect => ?_) condition otherwise)
    · exact (function.typedOperand_agrees case.1).bind
        ((function.labelText_agrees case.2).bind (.done fun _ => rfl))
    · simp [caseText, Function.comp_def, String.append_assoc]
  | literalSwitch condition otherwise cases =>
    refine function.operandTy_agrees condition fun value found => ?_
    let caseText (dialect : Dialect) (case : Int64 × BlockRef) : String :=
      value.operandTy.text ++ " " ++ toString case.1.toInt ++ ", "
        ++ (function.labelScript case.2).text dialect
    refine (Agrees.mapM caseText cases fun case _ => ?_).bind
      (function.switchText_agrees (fun dialect => ?_) condition otherwise)
    · exact (function.labelText_agrees case.2).bind (.done fun _ => rfl)
    · simp [caseText, Function.comp_def, operandTyText, found, String.append_assoc]
  | phi result incoming =>
    let edgeText (dialect : Dialect) (edge : SymbolIndex × BlockRef) : String :=
      "[ " ++ (function.operandScript edge.1).text dialect ++ ", "
        ++ (function.blockName edge.2).toOption.getD "" ++ " ]"
    refine (Agrees.mapM edgeText incoming fun edge _ => ?_).bind (.done fun dialect => ?_)
    · exact (function.operandText_agrees edge.1).bind
        ((Agrees.same (function.blockName edge.2) "").bind (.done fun _ => rfl))
    · simp [edgeText, bodyScript, commaSeparated, Function.comp_def,
        String.append_assoc]
  | elementPointer result base indices inbounds =>
    refine function.operandTy_agrees base fun value found => ?_
    refine (explicitPointee_agrees value.operandTy).bind ((function.typedOperand_agrees base).bind
      ((function.typedOperands_agree indices).bind (.done fun dialect => ?_)))
    cases dialect <;>
      simp [bodyScript, operandPointee, found, commaSeparated,
        Dialect.explicitPointee, Dialect.pointeeText, Function.comp_def, String.append_assoc]
  | extractElement result vector index => exact function.operandsText_agrees _ _
  | insertElement result vector value index => exact function.operandsText_agrees _ _
  | select result condition onTrue onFalse => exact function.operandsText_agrees _ _
  | shuffleVector result first second mask => exact function.operandsText_agrees _ _
  | extractValue result aggregate index =>
    refine (function.typedOperand_agrees aggregate).bind (.done fun dialect => ?_)
    simp [bodyScript, String.append_assoc]
  | insertValue result aggregate value index =>
    refine (function.typedOperand_agrees aggregate).bind
      ((function.typedOperand_agrees value).bind (.done fun dialect => ?_))
    simp [bodyScript, String.append_assoc]
  | ret value =>
    cases value with
    | none => exact .done fun dialect => by simp [bodyScript]
    | some value =>
      refine (function.typedOperand_agrees value).bind (.done fun dialect => ?_)
      simp [bodyScript]
  | unreachable => exact .done fun dialect => by simp [bodyScript]

theorem line_agrees (instruction : Instruction) :
    Agrees (fun dialect => function.line dialect instruction)
      (fun dialect => (function.lineScript instruction).text dialect) := by
  refine (function.bodyText_agrees instruction).bind ?_
  cases named : instruction.result? with
  | none => exact .done fun dialect => by simp [lineScript, named]
  | some result =>
    exact .done fun dialect => by simp [lineScript, named, String.append_assoc]

/-! Listings -/

theorem instructionLines_agree (block : Block) :
    Agrees (fun dialect => function.instructionLines dialect block)
      (fun dialect => (function.instructionScripts block).map (Script.text dialect)) := by
  simp only [instructionScripts, List.map_map]
  refine .mapM _ block.instructions fun id _ => ?_
  cases found : function.instruction? id with
  | none => exact .refused rfl
  | some instruction =>
    refine (function.line_agrees instruction).bind (.done fun dialect => ?_)
    simp [found]

theorem laterBlockLines_agree (block : Block) :
    Agrees (fun dialect => function.laterBlockLines dialect block)
      (fun dialect => (function.laterBlockScripts block).map (Script.text dialect)) := by
  refine (function.instructionLines_agree block).bind (.done fun dialect => ?_)
  simp [laterBlockScripts]

theorem lines_agree :
    Agrees (fun dialect => function.lines dialect)
      (fun dialect => function.scripts.map (Script.text dialect)) := by
  unfold lines scripts
  cases function.orderedBlocks with
  | nil => exact .done fun dialect => by simp
  | cons entry later =>
    refine (function.instructionLines_agree entry).bind
      ((Agrees.mapM _ later fun block _ => function.laterBlockLines_agree block).bind
        (.done fun dialect => ?_))
    simp [List.flatMap_def, Function.comp_def]

end FunctionDef

theorem GlobalVariable.line_agrees (global : GlobalVariable) :
    Agrees (fun dialect => global.line dialect) (fun dialect => global.script.text dialect) := by
  unfold line script
  cases global.initializer with
  | none => exact .done fun dialect => by simp [String.append_assoc]
  | some constant =>
    refine constant.text_agrees.bind (.done fun dialect => ?_)
    simp [String.append_assoc]

namespace Module

theorem map_groupScripts (dialect : Dialect) (lines : List Script) :
    (groupScripts lines).map (Script.text dialect) = group (lines.map (Script.text dialect)) := by
  cases lines with
  | nil => rfl
  | cons line lines => simp [groupScripts, group]

theorem lines_agree (unit : Module) :
    Agrees (fun dialect => unit.lines dialect)
      (fun dialect => unit.scripts.map (Script.text dialect)) := by
  let definition (_ : Dialect) (ty : Ty) : String := ty.definitionLine.toOption.getD ""
  refine (Agrees.mapM definition unit.typeDefinitions fun ty _ => .same _ "").bind ?_
  refine (Agrees.mapM _ unit.globals fun global _ => global.line_agrees).bind ?_
  refine (Agrees.mapM _ unit.functions fun function _ => function.lines_agree).bind ?_
  refine .done fun dialect => ?_
  simp [definition, scripts, map_groupScripts, List.flatMap_def, Function.comp_def]

theorem assembly_agrees (unit : Module) :
    Agrees (fun dialect => unit.assembly dialect) (fun dialect => unit.script.text dialect) :=
  unit.lines_agree.bind (.done fun _ => (Script.text_ofLines _).symm)

/-- Whatever is written in the newer dialect is written in the older one, and both texts come from
one script: they differ at its loads, address computations and spelled out callees only. -/
theorem dialects_share_script {unit : Module} {text : String}
    (written : unit.assembly .v38 = .ok text) :
    text = unit.script.text .v38 ∧ unit.assembly .v32 = .ok (unit.script.text .v32) := by
  have agrees := unit.assembly_agrees text written
  exact ⟨Except.ok.inj (written.symm.trans (agrees .v38)), agrees .v32⟩

/-- A load through a constant address, and a call of a variadic function. -/
theorem share_script_of_load_and_call : ∃ (unit : Module) (newer older : String),
    unit.assembly .v38 = .ok newer ∧ unit.assembly .v32 = .ok older ∧
    newer = "; ModuleID = 'm'\n\ndefine void @f() \x7b\n"
      ++ "  %1 = load i8, i8* getelementptr inbounds ([3 x i8], [3 x i8]* @bytes, i32 0), align 1\n"
      ++ "  call void (i8, ...) @show(i8 %1)\n\x7d\n" ∧
    older = "; ModuleID = 'm'\n\ndefine void @f() \x7b\n"
      ++ "  %1 = load i8* getelementptr inbounds ([3 x i8]* @bytes, i32 0), align 1\n"
      ++ "  call void (i8, ...)* @show(i8 %1)\n\x7d\n" := by
  let start : Constant := .global "bytes" (.ptr (.array 3 .i8))
  let address : Constant := .elementPointer (.ptr .i8) start [.i32 0] true
  let body : FunctionDef :=
    { name := "f", signature := ⟨.void, [], false⟩, order := [⟨0⟩]
      blocks := [⟨⟨0⟩, 0, none, [0, 1]⟩]
      instructions := [.load ⟨"1", .i8⟩ 0 (.aligned 1), .voidCall 1 [2]]
      symbols := [.constant address, .function ⟨"show", .void, [.i8], true⟩,
        .result ⟨0, "1", .i8⟩] }
  let unit : Module := { name := "m", functions := [body] }
  have succeeds : (unit.assembly .v38).toOption.isSome = true := by decide +kernel
  cases written : unit.assembly .v38 with
  | error error =>
    rw [written] at succeeds
    cases succeeds
  | ok text =>
    obtain ⟨newer, older⟩ := dialects_share_script written
    exact ⟨unit, text, _, written, older, newer.trans (by decide +kernel), by decide +kernel⟩

end Module

end IrAssembly
