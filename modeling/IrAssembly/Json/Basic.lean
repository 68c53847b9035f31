/-!
JSON values. Two things that no reader of this library accepts are kept without their details:
numbers with a fraction or an exponent, and strings whose escapes leave half of a surrogate pair.
-/

namespace IrAssembly

inductive Json where
  | null
  | bool (value : Bool)
  /-- A number written with digits alone, after a minus sign if it is negative. -/
  | int (negative : Bool) (magnitude : Nat)
  /-- A number with a fraction or an exponent. -/
  | real
  /-- A string, or nothing if it is no Unicode text. -/
  | str (text : Option String)
  | arr (items : List Json)
  | obj (members : List (Option String × Json))
  deriving Repr, Inhabited

namespace Json

def nat (value : Nat) : Json := .int false value

def integer (value : Int) : Json := .int (value < 0) value.natAbs

def text (value : String) : Json := .str (some value)

def option {α : Type} (write : α → Json) : Option α → Json
  | some value => write value
  | none => .null

def list {α : Type} (write : α → Json) (values : List α) : Json := .arr (values.map write)

/-- An object with these members in this order. -/
def record (members : List (String × Json)) : Json :=
  .obj (members.map fun (name, value) => (some name, value))

/-- A value marked with the name of its variant. -/
def tagged (name : String) (value : Json) : Json := record [(name, value)]

end Json

end IrAssembly
