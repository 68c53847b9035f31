import IrAssembly.FloatingPoint.Format
import IrAssembly.Json.Reader

/-!
Readers of the interchange form. A reader is given the number of containers that may still be
opened, so deeper nesting than the form allows is refused.
-/

namespace IrAssembly

/-- A reader of values of a type at a remaining nesting depth. -/
abbrev Reading (α : Type) := Nat → Json → Option α

namespace Reading

/-- The nesting that the interchange form allows. -/
def maxDepth : Nat := 127

/-- Read a whole text. -/
def ofText {α : Type} (read : Reading α) (text : String) : Option α := do
  read maxDepth (← Json.parse text)

def bool : Reading Bool
  | _, .bool value => some value
  | _, _ => none

def string : Reading String
  | _, .str text => text
  | _, _ => none

/-- A number below a bound, written without a sign. -/
def below (bound : Nat) : Reading Nat
  | _, .int false magnitude => if magnitude < bound then some magnitude else none
  | _, _ => none

/-- A position or index. -/
def index : Reading Nat := below (2 ^ 64)

def uint32 : Reading UInt32 := fun depth json => (below (2 ^ 32) depth json).map UInt32.ofNat

def uint64 : Reading UInt64 := fun depth json => (below (2 ^ 64) depth json).map UInt64.ofNat

def bits128 : Reading (BitVec 128) := fun depth json =>
  (below (2 ^ 128) depth json).map (BitVec.ofNat 128)

/-- A signed number of 64 bits. A zero has no minus sign. -/
def int64 : Reading Int64
  | _, .int false magnitude => if magnitude < 2 ^ 63 then some (.ofNat magnitude) else none
  | _, .int true magnitude =>
    if 0 < magnitude ∧ magnitude ≤ 2 ^ 63 then some (.ofInt (-magnitude)) else none
  | _, _ => none

/-- A value that may be absent, written as null. -/
def option {α : Type} (read : Reading α) : Reading (Option α)
  | _, .null => some none
  | depth, json => (read depth json).map some

def list {α : Type} (read : Reading α) : Reading (List α)
  | depth + 1, .arr items => items.mapM (read depth)
  | _, _ => none

def pair {α β : Type} (first : Reading α) (second : Reading β) : Reading (α × β)
  | depth + 1, .arr [left, right] => do return (← first depth left, ← second depth right)
  | _, _ => none

/-- The value of the only member with a name, if there is one; two of them are refused. -/
def member? (members : List (Option String × Json)) (name : String) : Option (Option Json) :=
  match members.filter fun member => member.1 == some name with
  | [] => some none
  | [(_, value)] => some (some value)
  | _ => none

/-- The fields of a record, and the depth that is left for them. An object gives them by name,
without regard to other members; an array gives all of them in order. -/
def fields (names : List String) : Reading (Nat × List (Option Json))
  | depth + 1, .obj members =>
    if members.any fun member => member.1.isNone then none
    else do return (depth, ← names.mapM (member? members))
  | depth + 1, .arr items =>
    if items.length = names.length then some (depth, items.map some) else none
  | _, _ => none

/-- A field that has to be there. -/
def required {α : Type} (read : Reading α) (depth : Nat) (field : Option Json) : Option α :=
  field.bind (read depth)

/-- A field that may be left out. -/
def optional {α : Type} (read : Reading α) (depth : Nat) (field : Option Json) :
    Option (Option α) :=
  match field with
  | some json => option read depth json
  | none => some none

/-- What follows the name of a variant. -/
inductive Payload where
  /-- The name stands alone. -/
  | none
  /-- A value and the depth that is left for it. -/
  | value (depth : Nat) (json : Json)

/-- The name of a variant and what follows it: a string, or an object with one member. -/
def variant : Reading (String × Payload)
  | _, .str (some name) => some (name, .none)
  | depth + 1, .obj [(some name, value)] => some (name, .value depth value)
  | _, _ => none

/-- Read the value of a variant. -/
def Payload.read {α : Type} (payload : Payload) (read : Reading α) : Option α :=
  match payload with
  | .value depth json => read depth json
  | .none => Option.none

/-- Whether a variant has no value: its name stands alone, or null follows it. -/
def Payload.isUnit : Payload → Bool
  | .none => true
  | .value _ .null => true
  | .value _ _ => false

/-- One of several variants without values, by its name. -/
def oneOf {α : Type} (name : α → String) (variants : List α) : Reading α := fun depth json => do
  let (given, payload) ← variant depth json
  if payload.isUnit then variants.find? fun candidate => name candidate == given else none

end Reading

end IrAssembly
