import IrAssembly.Ty.Basic

/-!
Constants. Integers are kept normalized to the width of their type, integers wider than 64 bits
keep full precision, and floating point constants are bit patterns.
-/

namespace IrAssembly

/-- Keep the low `width` bits of a number and read them as a signed number. Widths that leave a
64-bit number as it is, and the empty width, change nothing. -/
def signNormalize (value : Int64) (width : UInt32) : Int64 :=
  if width = 0 ∨ 64 ≤ width then value
  else .ofInt (value.toInt.bmod (2 ^ width.toNat))

/-- The low 64 bits of an integer in two's complement, read as a signed number. -/
def lowBits (value : Int) : Int64 := .ofInt value

/-- Inline assembly used as a call target. -/
structure InlineAsm where
  /-- A pointer to the function type of the snippet. -/
  ty : Ty
  body : String
  constraints : String
  sideEffects : Bool
  alignStack : Bool
  deriving DecidableEq, Repr

inductive Constant where
  /-- An integer of at most 64 bits. -/
  | int (ty : Ty) (value : Int64)
  /-- An integer wider than 64 bits. -/
  | bigInt (ty : Ty) (value : Int)
  | float (value : FloatConstant)
  | null (ty : Ty)
  | undef (ty : Ty)
  | zero (ty : Ty)
  /-- An array, structure or vector of constants. -/
  | aggregate (ty : Ty) (elements : List Constant)
  | inlineAsm (asm : InlineAsm)
  /-- A constant address computation. -/
  | elementPointer (ty : Ty) (base : Constant) (indices : List Constant) (inbounds : Bool)
  /-- The address of a global variable; the type is the pointer to it. -/
  | global (name : String) (ty : Ty)
  deriving Repr

namespace Constant

mutual

/-- Structural equality, decided together with equality of constant lists. -/
def beq : Constant → Constant → Bool
  | int leftTy left, int rightTy right => leftTy == rightTy && left == right
  | bigInt leftTy left, bigInt rightTy right => leftTy == rightTy && left == right
  | float left, float right => left == right
  | null left, null right => left == right
  | undef left, undef right => left == right
  | zero left, zero right => left == right
  | aggregate leftTy left, aggregate rightTy right => leftTy == rightTy && beqList left right
  | inlineAsm left, inlineAsm right => left == right
  | elementPointer leftTy left leftIndices leftInbounds,
    elementPointer rightTy right rightIndices rightInbounds =>
    leftTy == rightTy && leftInbounds == rightInbounds && beq left right
      && beqList leftIndices rightIndices
  | global leftName left, global rightName right => leftName == rightName && left == right
  | _, _ => false

def beqList : List Constant → List Constant → Bool
  | [], [] => true
  | left :: lefts, right :: rights => beq left right && beqList lefts rights
  | _, _ => false

end

mutual

theorem eq_of_beq : ∀ left right : Constant, beq left right = true → left = right
  | int _ _, right, same | bigInt _ _, right, same | float _, right, same | null _, right, same
  | undef _, right, same | zero _, right, same | inlineAsm _, right, same
  | global _ _, right, same => by
    cases right <;> simp_all [beq]
  | aggregate ty elements, right, same => by
    cases right <;> simp [beq] at same
    rw [same.1, eq_of_beqList elements _ same.2]
  | elementPointer ty base indices inbounds, right, same => by
    cases right <;> simp [beq] at same
    rw [same.1.1.1, same.1.1.2, eq_of_beq base _ same.1.2, eq_of_beqList indices _ same.2]

theorem eq_of_beqList :
    ∀ lefts rights : List Constant, beqList lefts rights = true → lefts = rights
  | [], rights, same => by cases rights <;> simp_all [beqList]
  | left :: lefts, rights, same => by
    cases rights <;> simp [beqList] at same
    rw [eq_of_beq left _ same.1, eq_of_beqList lefts _ same.2]

end

mutual

theorem beq_refl : ∀ constant : Constant, beq constant constant = true
  | int _ _ | bigInt _ _ | float _ | null _ | undef _ | zero _ | inlineAsm _ | global _ _ => by
    simp [beq]
  | aggregate _ elements => by simp [beq, beqList_refl elements]
  | elementPointer _ base indices _ => by simp [beq, beq_refl base, beqList_refl indices]

theorem beqList_refl : ∀ constants : List Constant, beqList constants constants = true
  | [] => by simp [beqList]
  | constant :: constants => by simp [beqList, beq_refl constant, beqList_refl constants]

end

instance : DecidableEq Constant := fun left right =>
  if same : beq left right = true then isTrue (eq_of_beq left right same)
  else isFalse fun equal => same (equal ▸ beq_refl left)

/-- An integer constant, normalized to the width of its type. -/
def integer (ty : Ty) (value : Int64) : Constant :=
  .int ty (signNormalize value (ty.integerWidth?.getD 64))

def i1 (value : Bool) : Constant := integer .i1 (if value then 1 else 0)
def i8 (value : Int64) : Constant := integer .i8 value
def i32 (value : Int64) : Constant := integer .i32 value
def i64 (value : Int64) : Constant := integer .i64 value

/-- The constant of a floating point kind nearest to a double. -/
def ofDouble (kind : FloatKind) (double : UInt64) : Constant := .float (.ofDouble kind double)

def ty : Constant → Ty
  | int ty _ | bigInt ty _ | null ty | undef ty | zero ty | aggregate ty _
  | elementPointer ty _ _ _ | global _ ty => ty
  | float value => .float value.kind
  | inlineAsm asm => asm.ty

/-- The value of an integer constant of at most 64 bits. -/
def asInteger? : Constant → Option Int64
  | int _ value => some value
  | _ => none

end Constant

end IrAssembly
