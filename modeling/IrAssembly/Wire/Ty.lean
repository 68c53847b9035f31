import IrAssembly.Wire.Names

/-!
Types in the interchange form.
-/

namespace IrAssembly

namespace Ty

mutual

def toJson : Ty → Json
  | void => .text "Void"
  | int bits => .tagged "Integer" (.nat bits.toNat)
  | float kind => .tagged "Float" (.text kind.wireName)
  | ptr pointee => .tagged "Pointer" (toJson pointee)
  | array len element =>
    .tagged "Array" (.record [("len", .nat len.toNat), ("element_type", toJson element)])
  | vector len element =>
    .tagged "Vector" (.record [("len", .nat len.toNat), ("element_type", toJson element)])
  | struct name fields packed =>
    .tagged "Struct"
      (.record [("name", .option .text name), ("fields", .arr (toJsons fields)),
        ("packed", .bool packed)])
  | func result params vararg =>
    .tagged "Function"
      (.record [("return_type", toJson result), ("param_types", .arr (toJsons params)),
        ("is_vararg", .bool vararg)])
  | bodiless name => .tagged "Opaque" (.text name)
  | label => .text "Label"
  | metadata => .text "Metadata"

def toJsons : List Ty → List Json
  | [] => []
  | ty :: types => toJson ty :: toJsons types

end

end Ty

def Signature.toJson (signature : Signature) : Json :=
  .record [("return_type", signature.result.toJson),
    ("param_types", .list Ty.toJson signature.params), ("is_vararg", .bool signature.vararg)]

namespace Reading

/-- The parts of a signature, given a reader of types. -/
def signatureWith (ty : Reading Ty) : Reading Signature := fun depth json => do
  let (depth, [result, params, vararg]) ←
    fields ["return_type", "param_types", "is_vararg"] depth json | none
  return ⟨← required ty depth result, ← required (list ty) depth params,
    ← required bool depth vararg⟩

/-- Length and element type of an array or vector. -/
def sequenceWith {α : Type} (length : Reading α) (ty : Reading Ty) : Reading (α × Ty) :=
  fun depth json => do
    let (depth, [len, element]) ← fields ["len", "element_type"] depth json | none
    return (← required length depth len, ← required ty depth element)

def structWith (ty : Reading Ty) : Reading Ty := fun depth json => do
  let (depth, [name, members, packed]) ← fields ["name", "fields", "packed"] depth json | none
  return .struct (← optional string depth name) (← required (list ty) depth members)
    (← required bool depth packed)

/-- A type variant with a value, given a reader of the types inside. -/
def tyVariant (ty : Reading Ty) (name : String) : Reading Ty := fun depth json =>
  match name with
  | "Integer" => .int <$> uint32 depth json
  | "Float" => .float <$> floatKind depth json
  | "Pointer" => .ptr <$> ty depth json
  | "Array" => do
    let (len, element) ← sequenceWith uint64 ty depth json
    return .array len element
  | "Vector" => do
    let (len, element) ← sequenceWith uint32 ty depth json
    return .vector len element
  | "Struct" => structWith ty depth json
  | "Function" => Signature.toTy <$> signatureWith ty depth json
  | "Opaque" => .bodiless <$> string depth json
  | _ => none

/-- A type variant without a value. -/
def plainTy (name : String) : Option Ty :=
  match name with
  | "Void" => some .void
  | "Label" => some .label
  | "Metadata" => some .metadata
  | _ => none

/-- Types, up to a number of nested types. -/
def tyWithin : Nat → Reading Ty
  | 0, _, _ => none
  | fuel + 1, depth, json => do
    let (name, payload) ← variant depth json
    match plainTy name with
    | some ty => if payload.isUnit then some ty else none
    | none => payload.read (tyVariant (tyWithin fuel) name)

/-- Each nested type opens a container, so the depth bounds their number. -/
def ty : Reading Ty := fun depth json => tyWithin (depth + 1) depth json

def signature : Reading Signature := signatureWith ty

end Reading

end IrAssembly
