import IrAssembly.Value
import IrAssembly.Wire.Ty

/-!
Constants and operands in the interchange form. Integers wider than 64 bits are written as a sign
and the digits of the magnitude in base 2³², the least significant digit first.
-/

namespace IrAssembly

/-- The digits of a number in base 2³², the least significant first; zero has none. -/
def wordDigits (magnitude : Nat) : List UInt32 :=
  if magnitude = 0 then []
  else .ofNat (magnitude % 2 ^ 32) :: wordDigits (magnitude / 2 ^ 32)
decreasing_by omega

/-- The number that digits in base 2³² stand for. -/
def ofWordDigits : List UInt32 → Nat
  | [] => 0
  | digit :: digits => digit.toNat + 2 ^ 32 * ofWordDigits digits

/-- An integer of any size as its sign and its digits. -/
def bigIntJson (value : Int) : Json :=
  .arr [.integer value.sign,
    .list (fun digit : UInt32 => .nat digit.toNat) (wordDigits value.natAbs)]

def FloatConstant.toJson (constant : FloatConstant) : Json :=
  .record [("kind", .text constant.kind.wireName), ("bits", .nat constant.bits.toNat)]

def InlineAsm.toJson (asm : InlineAsm) : Json :=
  .record [("ty", asm.ty.toJson), ("asm", .text asm.body), ("constraints", .text asm.constraints),
    ("has_side_effects", .bool asm.sideEffects), ("align_stack", .bool asm.alignStack)]

namespace Constant

mutual

def toJson : Constant → Json
  | int ty value => .tagged "Integer" (.record [("ty", ty.toJson), ("value", .integer value.toInt)])
  | bigInt ty value =>
    .tagged "BigInteger" (.record [("ty", ty.toJson), ("value", bigIntJson value)])
  | float value => .tagged "Float" value.toJson
  | null ty => .tagged "Null" ty.toJson
  | undef ty => .tagged "Undef" ty.toJson
  | zero ty => .tagged "ZeroInitializer" ty.toJson
  | aggregate ty elements =>
    .tagged "Aggregate" (.record [("ty", ty.toJson), ("elements", .arr (toJsons elements))])
  | inlineAsm asm => .tagged "InlineAsm" asm.toJson
  | elementPointer ty base indices inbounds =>
    .tagged "GetElementPointer"
      (.record [("ty", ty.toJson), ("base", toJson base), ("indices", .arr (toJsons indices)),
        ("inbounds", .bool inbounds)])
  | global name ty => .tagged "Global" (.record [("name", .text name), ("ty", ty.toJson)])

def toJsons : List Constant → List Json
  | [] => []
  | constant :: constants => toJson constant :: toJsons constants

end

end Constant

def ResultRef.toJson (result : ResultRef) : Json :=
  .record [("id", .nat result.id), ("name", .text result.name), ("ty", result.ty.toJson)]

def Parameter.toJson (parameter : Parameter) : Json :=
  .record [("index", .nat parameter.index), ("name", .text parameter.name),
    ("ty", parameter.ty.toJson)]

def FunctionRef.toJson (function : FunctionRef) : Json :=
  .record [("name", .text function.name), ("ty", function.signature.toJson)]

def Value.toJson : Value → Json
  | constant known => .tagged "Constant" known.toJson
  | result slot => .tagged "Instruction" slot.toJson
  | parameter formal => .tagged "Parameter" formal.toJson
  | function callee => .tagged "Function" callee.toJson

namespace Reading

/-- A sign is minus one, zero or one. -/
def sign : Reading Int := fun depth json => do
  let value ← int64 depth json
  if value.toInt.natAbs ≤ 1 then some value.toInt else none

/-- A sign and digits. A zero sign makes a zero of any digits. -/
def bigInt : Reading Int := fun depth json => do
  let (sign, digits) ← pair sign (list uint32) depth json
  return sign * ofWordDigits digits

def floatConstant : Reading FloatConstant := fun depth json => do
  let (depth, [kind, bits]) ← fields ["kind", "bits"] depth json | none
  return ⟨← required floatKind depth kind, ← required bits128 depth bits⟩

def inlineAsm : Reading InlineAsm := fun depth json => do
  let (depth, [given, body, constraints, sideEffects, alignStack]) ←
    fields ["ty", "asm", "constraints", "has_side_effects", "align_stack"] depth json | none
  return ⟨← required ty depth given, ← required string depth body,
    ← required string depth constraints, ← required bool depth sideEffects,
    ← required bool depth alignStack⟩

/-- A type and one more field. -/
def typed {α : Type} (name : String) (read : Reading α) : Reading (Ty × α) := fun depth json => do
  let (depth, [given, value]) ← fields ["ty", name] depth json | none
  return (← required ty depth given, ← required read depth value)

def constantElementPointer (constant : Reading Constant) : Reading Constant := fun depth json => do
  let (depth, [given, base, indices, inbounds]) ←
    fields ["ty", "base", "indices", "inbounds"] depth json | none
  return .elementPointer (← required ty depth given) (← required constant depth base)
    (← required (list constant) depth indices) (← required bool depth inbounds)

/-- A name and the type that belongs to it. -/
def named {α : Type} (read : Reading α) : Reading (String × α) := fun depth json => do
  let (depth, [name, given]) ← fields ["name", "ty"] depth json | none
  return (← required string depth name, ← required read depth given)

/-- A constant variant, given a reader of the constants inside. -/
def constantVariant (constant : Reading Constant) (name : String) : Reading Constant :=
  fun depth json =>
    match name with
    | "Integer" => (fun (ty, value) => .int ty value) <$> typed "value" int64 depth json
    | "BigInteger" => (fun (ty, value) => .bigInt ty value) <$> typed "value" bigInt depth json
    | "Float" => .float <$> floatConstant depth json
    | "Null" => .null <$> ty depth json
    | "Undef" => .undef <$> ty depth json
    | "ZeroInitializer" => .zero <$> ty depth json
    | "Aggregate" =>
      (fun (ty, elements) => .aggregate ty elements) <$> typed "elements" (list constant) depth json
    | "InlineAsm" => .inlineAsm <$> inlineAsm depth json
    | "GetElementPointer" => constantElementPointer constant depth json
    | "Global" => (fun (name, ty) => .global name ty) <$> named ty depth json
    | _ => none

/-- Constants, up to a number of nested constants. -/
def constantWithin : Nat → Reading Constant
  | 0, _, _ => none
  | fuel + 1, depth, json => do
    let (name, payload) ← variant depth json
    payload.read (constantVariant (constantWithin fuel) name)

/-- Each nested constant opens a container, so the depth bounds their number. -/
def constant : Reading Constant := fun depth json => constantWithin (depth + 1) depth json

/-- A position or number, a name and a type. -/
def slot (key : String) : Reading (Nat × String × Ty) := fun depth json => do
  let (depth, [number, name, given]) ← fields [key, "name", "ty"] depth json | none
  return (← required index depth number, ← required string depth name, ← required ty depth given)

def parameter : Reading Parameter := fun depth json =>
  (fun (index, name, ty) => ⟨index, name, ty⟩) <$> slot "index" depth json

def functionRef : Reading FunctionRef := fun depth json =>
  (fun (name, signature) => ⟨name, signature⟩) <$> named signature depth json

def value : Reading Value := fun depth json => do
  let (name, payload) ← variant depth json
  match name with
  | "Constant" => .constant <$> payload.read constant
  | "Instruction" =>
    (fun (id, name, ty) => .result ⟨id, name, ty⟩) <$> payload.read (slot "id")
  | "Parameter" => .parameter <$> payload.read parameter
  | "Function" => .function <$> payload.read functionRef
  | _ => none

end Reading

end IrAssembly
