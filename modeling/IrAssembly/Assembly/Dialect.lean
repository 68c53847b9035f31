import IrAssembly.Text.Blank

/-!
The two assembly dialects.
-/

namespace IrAssembly

inductive Dialect where
  /-- LLVM 3.2: typed pointers only, a star after the types of variadic callees. -/
  | v32
  /-- LLVM 3.8: source element types are explicit on loads and address computations. -/
  | v38
  deriving DecidableEq, Repr

namespace Dialect

/-- The environment variable that selects the dialect. -/
def environmentVariable : String := "IRB_LLVM_VERSION"

def text : Dialect → String
  | v32 => "3.2"
  | v38 => "3.8"

/-- Loads and address computations name the pointee type. -/
def explicitPointee : Dialect → Bool
  | v32 => false
  | v38 => true

/-- Function types of callees are written as pointers. -/
def calleePointer : Dialect → Bool
  | v32 => true
  | v38 => false

/-- The dialect named by a text, blanks around it ignored, or the text that names none. -/
def ofText (text : String) : Except String Dialect :=
  let name := Text.trimBlanks text
  if name = "3.2" then .ok .v32 else if name = "3.8" then .ok .v38 else .error name

def unsupportedMessage (name : String) : String :=
  "unsupported LLVM version '" ++ name ++ "' (expected 3.2 or 3.8)"

/-- The dialect that an environment value selects, 3.2 when it is unset or names none. -/
def ofEnvironment (value : Option String) : Dialect :=
  match value.map ofText with
  | some (.ok dialect) => dialect
  | _ => .v32

end Dialect

end IrAssembly
