import IrAssembly.Assembly.Dialect
import IrAssembly.Assembly.Error
import IrAssembly.Assembly.Identifier

/-!
Text of constants and values in operand position, with and without their type.
-/

namespace IrAssembly

/-- Opening and closing brackets of an aggregate constant of a type. -/
def aggregateBrackets : Ty → Except WriteError (String × String)
  | .array _ _ => .ok ("[", "]")
  | .vector _ _ => .ok ("<", ">")
  | .struct _ _ true => .ok ("<\x7b ", " \x7d>")
  | .struct _ _ false => .ok ("\x7b ", " \x7d")
  | ty => .error (.aggregateOf ty)

/-- The pointee of an address computation's base, where the dialect names it. -/
def explicitPointee (dialect : Dialect) (base : Ty) : Except WriteError String :=
  if dialect.explicitPointee then
    match base.pointee? with
    | some pointee => .ok (pointee.text ++ ", ")
    | none => .error (.elementPointerOn base)
  else .ok ""

/-- Integers of one bit are the words for truth values. -/
def integerText (ty : Ty) (value : Int64) : String :=
  if ty = .i1 then (if value = 0 then "false" else "true") else toString value.toInt

def InlineAsm.text (asm : InlineAsm) : String :=
  "asm " ++ (if asm.sideEffects then "sideeffect " else "")
    ++ (if asm.alignStack then "alignstack " else "")
    ++ "\"" ++ escapeString asm.body ++ "\", \"" ++ escapeString asm.constraints ++ "\""

namespace Constant

mutual

/-- A constant without its type. -/
def text (dialect : Dialect) : Constant → Except WriteError String
  | int ty value => .ok (integerText ty value)
  | bigInt _ value => .ok (toString value)
  | float value => .ok value.literal
  | null _ => .ok "null"
  | undef _ => .ok "undef"
  | zero _ => .ok "zeroinitializer"
  | aggregate ty elements => do
    let (opening, closing) ← aggregateBrackets ty
    let items ← typedTexts dialect elements
    return opening ++ commaSeparated items ++ closing
  | inlineAsm asm => .ok asm.text
  | elementPointer _ base indices inbounds => do
    let pointee ← explicitPointee dialect base.ty
    let baseText ← text dialect base
    let indexTexts ← typedTexts dialect indices
    return "getelementptr" ++ (if inbounds then " inbounds" else "") ++ " (" ++ pointee
      ++ commaSeparated ((base.ty.text ++ " " ++ baseText) :: indexTexts) ++ ")"
  | global name _ => .ok (globalName name)

/-- Several constants, each after its type. -/
def typedTexts (dialect : Dialect) : List Constant → Except WriteError (List String)
  | [] => .ok []
  | constant :: constants => do
    let first ← text dialect constant
    let others ← typedTexts dialect constants
    return (constant.ty.text ++ " " ++ first) :: others

end

/-- A constant after its type. -/
def typedText (dialect : Dialect) (constant : Constant) : Except WriteError String := do
  return constant.ty.text ++ " " ++ (← constant.text dialect)

end Constant

namespace Value

/-- A value without its type. -/
def text (dialect : Dialect) : Value → Except WriteError String
  | constant known => known.text dialect
  | result slot => .ok (localName slot.name)
  | parameter formal => .ok (localName formal.name)
  | function callee => .ok (globalName callee.name)

/-- A value after its type. -/
def typedText (dialect : Dialect) (value : Value) : Except WriteError String := do
  return value.operandTy.text ++ " " ++ (← value.text dialect)

end Value

end IrAssembly
