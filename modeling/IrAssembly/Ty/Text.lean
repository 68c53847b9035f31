import IrAssembly.Ty.Basic

/-!
Assembly text of types. A named structure or bodiless type is written by its name alone; the
structure body is written where the type is defined.
-/

namespace IrAssembly

/-- Items separated by a comma and a blank. -/
def commaSeparated (items : List String) : String := ", ".intercalate items

/-- The parameter texts of a function type, with an ellipsis for variable arguments. -/
def parameterTexts (params : List String) (vararg : Bool) : List String :=
  if vararg then params ++ ["..."] else params

/-- The body `{ a, b }` of a structure, in angle brackets when packed. -/
def structBody (fields : List String) (packed : Bool) : String :=
  let body := if fields.isEmpty then "\x7b\x7d" else "\x7b " ++ commaSeparated fields ++ " \x7d"
  if packed then "<" ++ body ++ ">" else body

namespace Ty

mutual

def text : Ty → String
  | void => "void"
  | int bits => "i" ++ toString bits.toNat
  | float kind => kind.text
  | ptr pointee => text pointee ++ "*"
  | array len element => "[" ++ toString len.toNat ++ " x " ++ text element ++ "]"
  | vector len element => "<" ++ toString len.toNat ++ " x " ++ text element ++ ">"
  | struct (some name) _ _ => "%" ++ name
  | struct none fields packed => structBody (texts fields) packed
  | func result params vararg =>
    text result ++ " (" ++ commaSeparated (parameterTexts (texts params) vararg) ++ ")"
  | bodiless name => "%" ++ name
  | label => "label"
  | metadata => "metadata"

def texts : List Ty → List String
  | [] => []
  | ty :: types => text ty :: texts types

end

@[simp] theorem texts_eq_map (types : List Ty) : texts types = types.map text := by
  induction types with
  | nil => rfl
  | cons ty types ih => simp [texts, ih]

end Ty

/-- The parenthesized parameter list of a signature. -/
def Signature.parameterList (signature : Signature) : String :=
  "(" ++ commaSeparated (parameterTexts (signature.params.map Ty.text) signature.vararg) ++ ")"

end IrAssembly
