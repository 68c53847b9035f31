import IrAssembly.Assembly.Listing

/-! One script for both dialects. A script lists what a listing consists of, and marks the places
where the dialects differ; everything else is plain text. -/

namespace IrAssembly

inductive Piece where
  /-- Text that no dialect changes. -/
  | plain (text : String)
  /-- The opcode of a load with its keywords. -/
  | load (keywords : String) (pointee : Ty)
  /-- The opcode of an address computation with its keyword. -/
  | address (keyword : String) (pointee : Ty)
  /-- The opening of a constant address computation. -/
  | constantAddress (keyword : String) (pointee : Ty)
  /-- The parameter list of a callee whose type is spelled out. -/
  | calleeParameters (signature : Signature)

/-- The pointee type and its comma, which the older dialect leaves out. -/
def Dialect.pointeeText : Dialect → Ty → String
  | .v38, pointee => pointee.text ++ ", "
  | .v32, _ => ""

/-- The star behind the type of a callee, which the newer dialect leaves out. -/
def Dialect.calleeStar : Dialect → String
  | .v38 => ""
  | .v32 => "*"

def Piece.text (dialect : Dialect) : Piece → String
  | plain text => text
  | load keywords pointee => "load " ++ keywords ++ dialect.pointeeText pointee
  | address keyword pointee => "getelementptr " ++ keyword ++ dialect.pointeeText pointee
  | constantAddress keyword pointee =>
    "getelementptr" ++ keyword ++ " (" ++ dialect.pointeeText pointee
  | calleeParameters signature => signature.parameterList ++ dialect.calleeStar

namespace Piece

variable (dialect : Dialect)

@[simp] theorem text_plain (text : String) : (plain text).text dialect = text := rfl

@[simp] theorem text_load (keywords : String) (pointee : Ty) :
    (load keywords pointee).text dialect = "load " ++ keywords ++ dialect.pointeeText pointee := rfl

@[simp] theorem text_address (keyword : String) (pointee : Ty) :
    (address keyword pointee).text dialect =
      "getelementptr " ++ keyword ++ dialect.pointeeText pointee := rfl

@[simp] theorem text_constantAddress (keyword : String) (pointee : Ty) :
    (constantAddress keyword pointee).text dialect =
      "getelementptr" ++ keyword ++ " (" ++ dialect.pointeeText pointee := rfl

@[simp] theorem text_calleeParameters (signature : Signature) :
    (calleeParameters signature).text dialect =
      signature.parameterList ++ dialect.calleeStar := rfl

end Piece

abbrev Script := List Piece

namespace Script

def text (dialect : Dialect) (script : Script) : String :=
  String.join (script.map (Piece.text dialect))

/-- Text that is the same in both dialects; nothing if it cannot be written. -/
def ofOutcome (outcome : Except WriteError String) : Script :=
  [.plain (outcome.toOption.getD "")]

/-- Scripts one after the other, with a text between them. -/
def separated (separator : String) : List Script → Script
  | [] => []
  | [script] => script
  | script :: next :: scripts =>
    script ++ .plain separator :: separated separator (next :: scripts)

/-- Scripts of lines, each with its line break. -/
def ofLines (lines : List Script) : Script := lines.flatMap fun line => line ++ [.plain "\n"]

variable {dialect : Dialect}

@[simp] theorem text_nil : text dialect [] = "" := String.join_nil

@[simp] theorem text_cons (piece : Piece) (script : Script) :
    text dialect (piece :: script) = piece.text dialect ++ text dialect script := by
  rw [text, List.map_cons, String.join_cons]
  rfl

@[simp] theorem text_append (first second : Script) :
    text dialect (first ++ second) = text dialect first ++ text dialect second := by
  rw [text, List.map_append, String.join_append]
  rfl

@[simp] theorem text_ofOutcome (outcome : Except WriteError String) :
    text dialect (ofOutcome outcome) = outcome.toOption.getD "" := by
  simp [ofOutcome]

@[simp] theorem text_separated (separator : String) (scripts : List Script) :
    text dialect (separated separator scripts) =
      separator.intercalate (scripts.map (text dialect)) := by
  induction scripts with
  | nil => rfl
  | cons script scripts ih =>
    cases scripts with
    | nil => simp [separated]
    | cons next scripts =>
      rw [separated, text_append, text_cons, ih]
      simp [String.intercalate_cons_cons, String.append_assoc]

@[simp] theorem text_ofLines (lines : List Script) :
    text dialect (ofLines lines) = unlines (lines.map (text dialect)) := by
  induction lines with
  | nil => rfl
  | cons line lines ih =>
    have rest : text dialect (lines.flatMap fun line => line ++ [.plain "\n"]) =
        unlines (lines.map (text dialect)) := ih
    simp only [ofLines, List.flatMap_cons, text_append, rest]
    simp [unlines]

end Script

/-! Constants and values -/

namespace Constant

mutual

/-- The script of a constant, at every depth. -/
def script : Constant → Script
  | int ty value => [.plain (integerText ty value)]
  | bigInt _ value => [.plain (toString value)]
  | float value => [.plain value.literal]
  | null _ => [.plain "null"]
  | undef _ => [.plain "undef"]
  | zero _ => [.plain "zeroinitializer"]
  | aggregate ty elements =>
    let brackets := (aggregateBrackets ty).toOption.getD ("", "")
    .plain brackets.1 :: Script.separated ", " (typedScripts elements) ++ [.plain brackets.2]
  | inlineAsm asm => [.plain asm.text]
  | elementPointer _ base indices inbounds =>
    let first := .plain (base.ty.text ++ " ") :: script base
    .constantAddress (if inbounds then " inbounds" else "") (base.ty.pointee?.getD base.ty)
      :: Script.separated ", " (first :: typedScripts indices) ++ [.plain ")"]
  | global name _ => [.plain (globalName name)]

def typedScripts : List Constant → List Script
  | [] => []
  | constant :: constants =>
    (.plain (constant.ty.text ++ " ") :: script constant) :: typedScripts constants

end

end Constant

namespace Value

def script : Value → Script
  | constant known => known.script
  | result slot => [.plain (localName slot.name)]
  | parameter formal => [.plain (localName formal.name)]
  | function callee => [.plain (globalName callee.name)]

def typedScript (value : Value) : Script := .plain (value.operandTy.text ++ " ") :: value.script

/-- The count of an allocation, which is left out if it is one. -/
def countScript : Value → Script
  | constant (.int _ 1) => []
  | value => .plain ", " :: value.typedScript

end Value

/-! Instructions -/

/-- Callees of these signatures have their type spelled out. -/
def Signature.spelledOut (signature : Signature) : Bool :=
  signature.vararg || signature.result matches .ptr (.func _ _ _)

namespace FunctionDef

def operandScript (function : FunctionDef) (index : SymbolIndex) : Script :=
  (function.symbol? index).elim [] Value.script

def typedOperandScript (function : FunctionDef) (index : SymbolIndex) : Script :=
  (function.symbol? index).elim [] Value.typedScript

def labelScript (function : FunctionDef) (ref : BlockRef) : Script :=
  .ofOutcome (function.labelText ref)

/-- The type of an operand as it is written. -/
def operandTyText (function : FunctionDef) (index : SymbolIndex) : String :=
  (function.symbol? index).elim "" fun value => value.operandTy.text

/-- The written type of what an operand points to. -/
def operandPointee (function : FunctionDef) (index : SymbolIndex) : Ty :=
  (function.symbol? index).elim .void fun value => value.operandTy.pointee?.getD value.operandTy

def calleeScript (signature : Signature) : Script :=
  if signature.spelledOut then [.plain " ", .calleeParameters signature] else []

def callScript (function : FunctionDef) (target : SymbolIndex) (arguments : List SymbolIndex) :
    Script :=
  let ty := ((function.symbol? target).elim .void Value.ty).stripPointers
  let signature := ty.signature?.getD default
  .plain ("call " ++ signature.result.text) :: calleeScript signature ++ .plain " "
    :: function.operandScript target
    ++ .plain "(" :: Script.separated ", " (arguments.map function.typedOperandScript)
    ++ [.plain ")"]

def switchScript (function : FunctionDef) (condition : SymbolIndex) (otherwise : BlockRef)
    (cases : List Script) : Script :=
  .plain "switch " :: function.typedOperandScript condition ++ .plain ", "
    :: function.labelScript otherwise
    ++ .plain " [ " :: Script.separated ("\n" ++ indent ++ indent) cases ++ [.plain " ]"]

/-- An opcode and its typed operands. -/
def operandsScript (function : FunctionDef) (opcode : String) (indices : List SymbolIndex) :
    Script :=
  .plain opcode :: Script.separated ", " (indices.map function.typedOperandScript)

def bodyScript (function : FunctionDef) : Instruction → Script
  | .allocate _ allocated count align =>
    .plain ("alloca " ++ allocated.text) :: (function.symbol? count).elim [] Value.countScript
      ++ [.plain (alignmentClause align)]
  | .load result source access =>
    .load access.keywords result.ty :: function.typedOperandScript source
      ++ [.plain (access.orderingClause ++ alignmentClause access.align)]
  | .store destination source access =>
    .plain ("store " ++ access.keywords ++ (function.operandPointee destination).text ++ " ")
      :: function.operandScript source
      ++ .plain (", " ++ function.operandTyText destination ++ " ")
      :: function.operandScript destination
      ++ [.plain (access.orderingClause ++ alignmentClause access.align)]
  | .binary result operator flags lhs rhs =>
    let flagWords := String.join (flags.map fun flag => flag.text ++ " ")
    .plain (operator.text ++ " " ++ flagWords ++ result.ty.text ++ " ")
      :: function.operandScript lhs ++ .plain ", " :: function.operandScript rhs
  | .compare _ operator lhs rhs =>
    .plain (operator.opcode ++ " " ++ operator.text ++ " ") :: function.typedOperandScript lhs
      ++ .plain ", " :: function.operandScript rhs
  | .cast result operator value =>
    .plain (operator.text ++ " ") :: function.typedOperandScript value
      ++ [.plain (" to " ++ result.ty.text)]
  | .call _ target arguments | .voidCall target arguments => function.callScript target arguments
  | .branch successor => .plain "br " :: function.labelScript successor
  | .conditionalBranch condition onTrue onFalse =>
    .plain "br " :: function.typedOperandScript condition ++ .plain ", "
      :: function.labelScript onTrue ++ .plain ", " :: function.labelScript onFalse
  | .indirectBranch address successors =>
    .plain "indirectbr " :: function.typedOperandScript address ++ .plain ", [ "
      :: Script.separated ", " (successors.map function.labelScript) ++ [.plain " ]"]
  | .switch condition otherwise cases =>
    function.switchScript condition otherwise (cases.map fun (value, ref) =>
      function.typedOperandScript value ++ .plain ", " :: function.labelScript ref)
  | .literalSwitch condition otherwise cases =>
    function.switchScript condition otherwise (cases.map fun (value, ref) =>
      .plain (function.operandTyText condition ++ " " ++ toString value.toInt ++ ", ")
        :: function.labelScript ref)
  | .phi result incoming =>
    .plain ("phi " ++ result.ty.text ++ " ")
      :: Script.separated ", " (incoming.map fun (value, ref) =>
        .plain "[ " :: function.operandScript value ++ .plain ", "
          :: Script.ofOutcome (function.blockName ref) ++ [.plain " ]"])
  | .elementPointer _ base indices inbounds =>
    .address (if inbounds then "inbounds " else "") (function.operandPointee base)
      :: Script.separated ", " ((base :: indices).map function.typedOperandScript)
  | .extractElement _ vector index => function.operandsScript "extractelement " [vector, index]
  | .insertElement _ vector value index =>
    function.operandsScript "insertelement " [vector, value, index]
  | .extractValue _ aggregate index =>
    .plain "extractvalue " :: function.typedOperandScript aggregate
      ++ [.plain (", " ++ toString index.toNat)]
  | .insertValue _ aggregate value index =>
    .plain "insertvalue " :: function.typedOperandScript aggregate ++ .plain ", "
      :: function.typedOperandScript value ++ [.plain (", " ++ toString index.toNat)]
  | .select _ condition onTrue onFalse =>
    function.operandsScript "select " [condition, onTrue, onFalse]
  | .shuffleVector _ first second mask =>
    function.operandsScript "shufflevector " [first, second, mask]
  | .ret (some value) => .plain "ret " :: function.typedOperandScript value
  | .ret none => [.plain "ret void"]
  | .unreachable => [.plain "unreachable"]

def lineScript (function : FunctionDef) (instruction : Instruction) : Script :=
  let name := instruction.result?.elim "" fun result => localName result.name ++ " = "
  .plain name :: function.bodyScript instruction

/-! Listings -/

/-- The lines of a block's instructions. -/
def instructionScripts (function : FunctionDef) (block : Block) : List Script :=
  block.instructions.map fun id =>
    .plain indent :: (function.instruction? id).elim [] function.lineScript

def laterBlockScripts (function : FunctionDef) (block : Block) : List Script :=
  [] :: [.plain (labelLine block)] :: function.instructionScripts block

/-- The lines of a definition. -/
def scripts (function : FunctionDef) : List Script :=
  match function.orderedBlocks with
  | [] => [[.plain function.header], [.plain "\x7d"]]
  | entry :: later =>
    [.plain function.header] :: function.instructionScripts entry
      ++ later.flatMap function.laterBlockScripts ++ [[.plain "\x7d"]]

end FunctionDef

def GlobalVariable.script (global : GlobalVariable) : Script :=
  let initializer := global.initializer.elim [] fun constant => .plain " " :: constant.script
  .plain (globalName global.name ++ " = " ++ global.linkageText
      ++ (if global.constant then "constant " else "global ") ++ global.valueTy.text)
    :: initializer ++ [.plain (alignmentClause global.align)]

namespace Module

/-- A group of lines behind a blank line, or nothing. -/
def groupScripts : List Script → List Script
  | [] => []
  | lines => [] :: lines

/-- The lines of the whole listing. -/
def scripts (unit : Module) : List Script :=
  let plainLines (lines : List String) : List Script := lines.map fun line => [.plain line]
  plainLines unit.headerLines
    ++ groupScripts (unit.typeDefinitions.map fun ty => .ofOutcome ty.definitionLine)
    ++ groupScripts (unit.globals.map GlobalVariable.script)
    ++ unit.functions.flatMap (fun function => groupScripts function.scripts)
    ++ groupScripts (plainLines (unit.declarations.map FunctionRef.declarationLine))

def script (unit : Module) : Script := .ofLines unit.scripts

end Module

end IrAssembly
