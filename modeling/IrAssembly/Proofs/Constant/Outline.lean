import IrAssembly.Proofs.Assembly.Printable
import IrAssembly.Proofs.FloatingPoint.Notation
import IrAssembly.Proofs.Ty.Outline

/-! Outlines of constants, and which constants are as the functions that make them leave them. -/

namespace IrAssembly

namespace Constant

mutual

/-- A constant with the bodies of the named types in its types left out. -/
def outline : Constant → Constant
  | int ty value => int ty.outline value
  | bigInt ty value => bigInt ty.outline value
  | float value => float value
  | null ty => null ty.outline
  | undef ty => undef ty.outline
  | zero ty => zero ty.outline
  | aggregate ty elements => aggregate ty.outline (outlines elements)
  | inlineAsm asm => inlineAsm { asm with ty := asm.ty.outline }
  | elementPointer ty base indices inbounds =>
    elementPointer ty.outline (outline base) (outlines indices) inbounds
  | global name ty => global name ty.outline

def outlines : List Constant → List Constant
  | [] => []
  | constant :: constants => outline constant :: outlines constants

end

mutual

/-- Constants that differ in nothing but the bodies of structures of one name in their types. -/
inductive SameButBodies : Constant → Constant → Prop where
  | float (value : FloatConstant) : SameButBodies (.float value) (.float value)
  | int {ty other : Ty} (types : ty.SameButBodies other) (value : Int64) :
      SameButBodies (.int ty value) (.int other value)
  | bigInt {ty other : Ty} (types : ty.SameButBodies other) (value : Int) :
      SameButBodies (.bigInt ty value) (.bigInt other value)
  | null {ty other : Ty} (types : ty.SameButBodies other) : SameButBodies (.null ty) (.null other)
  | undef {ty other : Ty} (types : ty.SameButBodies other) :
      SameButBodies (.undef ty) (.undef other)
  | zero {ty other : Ty} (types : ty.SameButBodies other) : SameButBodies (.zero ty) (.zero other)
  | aggregate {ty other : Ty} {elements others : List Constant} (types : ty.SameButBodies other)
      (each : AllSameButBodies elements others) :
      SameButBodies (.aggregate ty elements) (.aggregate other others)
  | inlineAsm {asm : InlineAsm} {other : Ty} (types : asm.ty.SameButBodies other) :
      SameButBodies (.inlineAsm asm) (.inlineAsm { asm with ty := other })
  | elementPointer {ty other : Ty} {base otherBase : Constant} {indices others : List Constant}
      {inbounds : Bool} (types : ty.SameButBodies other) (start : SameButBodies base otherBase)
      (each : AllSameButBodies indices others) : SameButBodies
        (.elementPointer ty base indices inbounds) (.elementPointer other otherBase others inbounds)
  | global {ty other : Ty} (name : String) (types : ty.SameButBodies other) :
      SameButBodies (.global name ty) (.global name other)

inductive AllSameButBodies : List Constant → List Constant → Prop where
  | nil : AllSameButBodies [] []
  | cons {constant other : Constant} {constants others : List Constant}
      (first : SameButBodies constant other) (rest : AllSameButBodies constants others) :
      AllSameButBodies (constant :: constants) (other :: others)

end

mutual

theorem SameButBodies.outline_eq :
    ∀ {left right : Constant}, SameButBodies left right → left.outline = right.outline
  | _, _, .float _ => rfl
  | _, _, .int types _ | _, _, .bigInt types _ | _, _, .null types | _, _, .undef types
  | _, _, .zero types | _, _, .inlineAsm types | _, _, .global _ types => by
    rw [outline, outline, types.outline_eq]
  | _, _, .aggregate types each => by rw [outline, outline, types.outline_eq, each.outlines_eq]
  | _, _, .elementPointer types start each => by
    rw [outline, outline, types.outline_eq, start.outline_eq, each.outlines_eq]

theorem AllSameButBodies.outlines_eq :
    ∀ {lefts rights : List Constant}, AllSameButBodies lefts rights →
      outlines lefts = outlines rights
  | _, _, .nil => rfl
  | _, _, .cons first rest => by rw [outlines, outlines, first.outline_eq, rest.outlines_eq]

end

end Constant

/-- At every depth types have plain names and numbers are normalized to their types. -/
inductive Constant.Canonical : Constant → Prop where
  | int {bits : UInt32} (filled : 1 ≤ bits) (short : bits ≤ 64)
      (normal : signNormalize value bits = value) : Canonical (.int (.int bits) value)
  | bigInt {bits : UInt32} (long : 64 < bits) : Canonical (.bigInt (.int bits) value)
  | float (normal : number.Normal) : Canonical (.float number)
  | null (plain : type.PlainlyNamed) : Canonical (.null type)
  | undef (plain : type.PlainlyNamed) : Canonical (.undef type)
  | zero (plain : type.PlainlyNamed) : Canonical (.zero type)
  | aggregate (plain : type.PlainlyNamed) (bracketed : type.Bracketed)
      (each : ∀ element ∈ items, Canonical element) : Canonical (.aggregate type items)
  | inlineAsm (plain : assembly.ty.PlainlyNamed) : Canonical (.inlineAsm assembly)
  | elementPointer (plain : type.PlainlyNamed) (start : Canonical base)
      (each : ∀ index ∈ indices, Canonical index) :
      Canonical (.elementPointer type base indices inbounds)
  | global (plain : type.PlainlyNamed) : Canonical (.global name type)

theorem Constant.Canonical.plain {constant : Constant} (canonical : constant.Canonical) :
    constant.ty.PlainlyNamed := by
  cases canonical with
  | int | bigInt | float => nofun
  | null plain | undef plain | zero plain | aggregate plain | inlineAsm plain
  | elementPointer plain | global plain => exact plain

end IrAssembly
