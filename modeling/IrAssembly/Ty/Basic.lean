import IrAssembly.FloatingPoint.Kind

/-!
The type system: integers of any width, floating point kinds, pointers, arrays, vectors,
structures, functions, and the types that values of a function body never have.
-/

namespace IrAssembly

inductive Ty where
  | void
  | int (bits : UInt32)
  | float (kind : FloatKind)
  | ptr (pointee : Ty)
  | array (len : UInt64) (element : Ty)
  | vector (len : UInt32) (element : Ty)
  /-- A structure, named (`%pair`) or literal (`{ i32, i8* }`). -/
  | struct (name : Option String) (fields : List Ty) (packed : Bool)
  | func (result : Ty) (params : List Ty) (vararg : Bool)
  /-- A named type whose body is unknown. -/
  | bodiless (name : String)
  | label
  | metadata
  deriving Repr, Inhabited

namespace Ty

mutual

/-- Structural equality, decided together with equality of type lists. -/
def beq : Ty → Ty → Bool
  | void, void => true
  | int left, int right => left == right
  | float left, float right => left == right
  | ptr left, ptr right => beq left right
  | array leftLen left, array rightLen right => leftLen == rightLen && beq left right
  | vector leftLen left, vector rightLen right => leftLen == rightLen && beq left right
  | struct leftName leftFields leftPacked, struct rightName rightFields rightPacked =>
    leftName == rightName && leftPacked == rightPacked && beqList leftFields rightFields
  | func leftResult leftParams leftVararg, func rightResult rightParams rightVararg =>
    leftVararg == rightVararg && beq leftResult rightResult && beqList leftParams rightParams
  | bodiless left, bodiless right => left == right
  | label, label => true
  | metadata, metadata => true
  | _, _ => false

def beqList : List Ty → List Ty → Bool
  | [], [] => true
  | left :: lefts, right :: rights => beq left right && beqList lefts rights
  | _, _ => false

end

mutual

theorem eq_of_beq : ∀ left right : Ty, beq left right = true → left = right
  | void, right, same | label, right, same | metadata, right, same => by
    cases right <;> simp_all [beq]
  | int _, right, same | float _, right, same | bodiless _, right, same => by
    cases right <;> simp_all [beq]
  | ptr left, right, same => by
    cases right <;> simp [beq] at same
    rw [eq_of_beq left _ same]
  | array len left, right, same => by
    cases right <;> simp [beq] at same
    rw [same.1, eq_of_beq left _ same.2]
  | vector len left, right, same => by
    cases right <;> simp [beq] at same
    rw [same.1, eq_of_beq left _ same.2]
  | struct name fields packed, right, same => by
    cases right <;> simp [beq] at same
    rw [same.1.1, same.1.2, eq_of_beqList fields _ same.2]
  | func result params vararg, right, same => by
    cases right <;> simp [beq] at same
    rw [same.1.1, eq_of_beq result _ same.1.2, eq_of_beqList params _ same.2]

theorem eq_of_beqList : ∀ lefts rights : List Ty, beqList lefts rights = true → lefts = rights
  | [], rights, same => by cases rights <;> simp_all [beqList]
  | left :: lefts, rights, same => by
    cases rights <;> simp [beqList] at same
    rw [eq_of_beq left _ same.1, eq_of_beqList lefts _ same.2]

end

mutual

theorem beq_refl : ∀ ty : Ty, beq ty ty = true
  | void | label | metadata | int _ | float _ | bodiless _ => by simp [beq]
  | ptr pointee => by simp [beq, beq_refl pointee]
  | array _ element | vector _ element => by simp [beq, beq_refl element]
  | struct _ fields _ => by simp [beq, beqList_refl fields]
  | func result params _ => by simp [beq, beq_refl result, beqList_refl params]

theorem beqList_refl : ∀ types : List Ty, beqList types types = true
  | [] => by simp [beqList]
  | ty :: types => by simp [beqList, beq_refl ty, beqList_refl types]

end

instance : DecidableEq Ty := fun left right =>
  if same : beq left right = true then isTrue (eq_of_beq left right same)
  else isFalse fun equal => same (equal ▸ beq_refl left)

def i1 : Ty := .int 1
def i8 : Ty := .int 8
def i32 : Ty := .int 32
def i64 : Ty := .int 64

def isInteger : Ty → Bool
  | int _ => true
  | _ => false

/-- Integers wider than 64 bits keep full precision in constants. -/
def isBigInteger : Ty → Bool
  | int bits => 64 < bits
  | _ => false

def isFloatingPoint : Ty → Bool
  | float _ => true
  | _ => false

def isPointer : Ty → Bool
  | ptr _ => true
  | _ => false

def isVector : Ty → Bool
  | vector _ _ => true
  | _ => false

def isVoid : Ty → Bool
  | void => true
  | _ => false

def integerWidth? : Ty → Option UInt32
  | int bits => some bits
  | _ => none

def pointee? : Ty → Option Ty
  | ptr pointee => some pointee
  | _ => none

/-- The element type of an array or a vector. -/
def element? : Ty → Option Ty
  | array _ element | vector _ element => some element
  | _ => none

/-- The type of the member at an index. Arrays and vectors have one type at every index;
structures select the field. -/
def member? (ty : Ty) (index : Nat) : Option Ty :=
  match ty with
  | array _ element | vector _ element => some element
  | struct _ fields _ => fields[index]?
  | _ => none

def elementCount? : Ty → Option Nat
  | array len _ => some len.toNat
  | vector len _ => some len.toNat
  | struct _ fields _ => some fields.length
  | _ => none

/-- The type below all pointer layers. -/
def stripPointers : Ty → Ty
  | ptr pointee => stripPointers pointee
  | ty => ty

end Ty

/-- The type of a function: what a call needs to know. -/
structure Signature where
  result : Ty
  params : List Ty
  vararg : Bool
  deriving DecidableEq, Repr, Inhabited

namespace Signature

def toTy (signature : Signature) : Ty :=
  .func signature.result signature.params signature.vararg

def returnsVoid (signature : Signature) : Bool := signature.result.isVoid

end Signature

/-- The signature of a function type. -/
def Ty.signature? : Ty → Option Signature
  | .func result params vararg => some ⟨result, params, vararg⟩
  | _ => none

end IrAssembly
