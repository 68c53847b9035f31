import IrAssembly.Proofs.Assembly.TypeNames
import IrAssembly.Proofs.Ty.Named

/-! Outlines of types: what is left of a type when every named part is replaced by its name. -/

namespace IrAssembly.Ty

mutual

/-- A type with the bodies of its named parts left out. A structure with a name becomes the type of
that name whose body is unknown. -/
def outline : Ty → Ty
  | ptr pointee => ptr (outline pointee)
  | array len element => array len (outline element)
  | vector len element => vector len (outline element)
  | struct (some name) _ _ => bodiless name
  | struct none fields packed => struct none (outlines fields) packed
  | func result params vararg => func (outline result) (outlines params) vararg
  | void => void
  | int bits => int bits
  | float kind => float kind
  | bodiless name => bodiless name
  | label => label
  | metadata => metadata

def outlines : List Ty → List Ty
  | [] => []
  | ty :: types => outline ty :: outlines types

end

mutual

/-- The body of a named type leaves no trace in the text. -/
theorem text_outline : ∀ ty : Ty, ty.outline.text = ty.text
  | void | int _ | float _ | label | metadata | bodiless _ => rfl
  | ptr pointee => by rw [outline, text, text, text_outline pointee]
  | array _ element => by rw [outline, text, text, text_outline element]
  | vector _ element => by rw [outline, text, text, text_outline element]
  | struct none fields _ => by rw [outline, text, text, texts_outlines fields]
  | struct (some _) _ _ => by rw [outline, text, text]
  | func result params _ => by
    rw [outline, text, text, text_outline result, texts_outlines params]

theorem texts_outlines : ∀ types : List Ty, texts (outlines types) = texts types
  | [] => rfl
  | ty :: types => by rw [outlines, texts, texts, text_outline ty, texts_outlines types]

end

mutual

/-- Types that differ in nothing but the bodies of structures of one name. Where one has a
structure the other has one as well, not a type whose body is unknown. -/
inductive SameButBodies : Ty → Ty → Prop where
  | refl (ty : Ty) : SameButBodies ty ty
  | named (name : String) (fields others : List Ty) (packed otherPacked : Bool) :
      SameButBodies (.struct (some name) fields packed) (.struct (some name) others otherPacked)
  | literal {fields others : List Ty} {packed : Bool} (each : AllSameButBodies fields others) :
      SameButBodies (.struct none fields packed) (.struct none others packed)
  | ptr {pointee other : Ty} (same : SameButBodies pointee other) :
      SameButBodies (.ptr pointee) (.ptr other)
  | array {len : UInt64} {element other : Ty} (same : SameButBodies element other) :
      SameButBodies (.array len element) (.array len other)
  | vector {len : UInt32} {element other : Ty} (same : SameButBodies element other) :
      SameButBodies (.vector len element) (.vector len other)
  | func {result other : Ty} {params others : List Ty} {vararg : Bool}
      (same : SameButBodies result other) (each : AllSameButBodies params others) :
      SameButBodies (.func result params vararg) (.func other others vararg)

inductive AllSameButBodies : List Ty → List Ty → Prop where
  | nil : AllSameButBodies [] []
  | cons {ty other : Ty} {types others : List Ty} (first : SameButBodies ty other)
      (rest : AllSameButBodies types others) : AllSameButBodies (ty :: types) (other :: others)

end

mutual

theorem SameButBodies.outline_eq :
    ∀ {left right : Ty}, SameButBodies left right → left.outline = right.outline
  | _, _, .refl _ | _, _, .named _ _ _ _ _ => rfl
  | _, _, .literal each => by rw [outline, outline, each.outlines_eq]
  | _, _, .ptr same => by rw [outline, outline, same.outline_eq]
  | _, _, .array same => by rw [outline, outline, same.outline_eq]
  | _, _, .vector same => by rw [outline, outline, same.outline_eq]
  | _, _, .func same each => by rw [outline, outline, same.outline_eq, each.outlines_eq]

theorem AllSameButBodies.outlines_eq :
    ∀ {lefts rights : List Ty}, AllSameButBodies lefts rights → outlines lefts = outlines rights
  | _, _, .nil => rfl
  | _, _, .cons first rest => by rw [outlines, outlines, first.outline_eq, rest.outlines_eq]

end

/-- All named structures and bodiless types in the type have names that need no quotes. -/
def PlainlyNamed (ty : Ty) : Prop :=
  ∀ part ∈ ty.namedParts, ∀ name, part.name? = some name → isPlainName name.toList = true

namespace PlainlyNamed

variable {ty element result : Ty} {fields params : List Ty} {packed vararg : Bool}

theorem ptr (plain : (Ty.ptr ty).PlainlyNamed) : ty.PlainlyNamed := by
  simpa only [PlainlyNamed, namedParts] using plain

theorem array {len : UInt64} (plain : (Ty.array len element).PlainlyNamed) :
    element.PlainlyNamed := by
  simpa only [PlainlyNamed, namedParts] using plain

theorem vector {len : UInt32} (plain : (Ty.vector len element).PlainlyNamed) :
    element.PlainlyNamed := by
  simpa only [PlainlyNamed, namedParts] using plain

theorem field (plain : (struct none fields packed).PlainlyNamed) :
    ∀ field ∈ fields, field.PlainlyNamed := by
  intro field member part inside
  refine plain part ?_
  rw [namedParts, namedPartsOf_eq_flatMap]
  exact List.mem_flatMap_of_mem member inside

theorem func (plain : (Ty.func result params vararg).PlainlyNamed) :
    result.PlainlyNamed ∧ ∀ param ∈ params, param.PlainlyNamed := by
  simp only [PlainlyNamed, namedParts, namedPartsOf_eq_flatMap, List.mem_append] at plain
  refine ⟨fun part inside => plain part (.inl inside), fun param member part inside => ?_⟩
  exact plain part (.inr (List.mem_flatMap_of_mem member inside))

/-- The name of a type is one of the names in it. -/
theorem name {own : String} (plain : ty.PlainlyNamed) (named : ty.name? = some own) :
    isPlainName own.toList = true := by
  refine plain ty ?_ own named
  cases ty with
  | struct _ fields packed =>
    cases named
    exact List.mem_cons_self ..
  | bodiless _ => exact List.mem_singleton_self ..
  | _ => cases named

end PlainlyNamed

end IrAssembly.Ty
