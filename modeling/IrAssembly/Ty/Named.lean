import IrAssembly.Ty.Basic

/-!
The named structures and bodiless types that occur in a type. A module has to define each of them
once, so they are collected without repetition, in the order in which they are first met.
-/

namespace IrAssembly.Ty

mutual

/-- Add the named types met in a type to those already seen. The fields of a named structure that
was seen before are not visited again. -/
def collectNamed : Ty → List Ty → List Ty
  | ptr pointee, seen => collectNamed pointee seen
  | array _ element, seen => collectNamed element seen
  | vector _ element, seen => collectNamed element seen
  | struct none fields _, seen => collectNamedList fields seen
  | struct (some name) fields packed, seen =>
    if struct (some name) fields packed ∈ seen then seen
    else collectNamedList fields (seen ++ [struct (some name) fields packed])
  | func result params _, seen => collectNamedList params (collectNamed result seen)
  | bodiless name, seen => if bodiless name ∈ seen then seen else seen ++ [bodiless name]
  | void, seen | int _, seen | float _, seen | label, seen | metadata, seen => seen

/-- Visit several types from left to right with one accumulator. -/
def collectNamedList : List Ty → List Ty → List Ty
  | [], seen => seen
  | ty :: types, seen => collectNamedList types (collectNamed ty seen)

end

/-- The named types of several types, each once, in order of first occurrence. -/
def namedTypes (types : List Ty) : List Ty := collectNamedList types []

end IrAssembly.Ty
