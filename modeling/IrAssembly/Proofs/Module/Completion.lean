import IrAssembly.Draft
import IrAssembly.Proofs.Ty.Named
import Mathlib.Data.List.Nodup

/-! Completion of a draft. However declarations and definitions come together, no name is declared
twice or both declared and defined; finishing keeps that, and adds nothing but the declarations and
type definitions that are missing. -/

namespace IrAssembly

namespace Module

/-- Declared names are distinct and none of them is defined. -/
structure Consistent (unit : Module) : Prop where
  distinct : (unit.declarations.map FunctionRef.name).Nodup
  undefined : ∀ declaration ∈ unit.declarations, ∀ function ∈ unit.functions,
    declaration.name ≠ function.name

variable {unit : Module}

theorem knows_eq_true_iff {name : String} : unit.knows name = true ↔
    (∃ function ∈ unit.functions, function.name = name) ∨
      ∃ declaration ∈ unit.declarations, declaration.name = name := by
  simp [knows]

namespace Consistent

theorem addDeclaration (consistent : unit.Consistent) (declaration : FunctionRef) :
    (unit.addDeclaration declaration).Consistent := by
  rw [Module.addDeclaration]
  split
  · exact consistent
  · rename_i unknown
    simp only [knows_eq_true_iff, not_or, not_exists, not_and] at unknown
    obtain ⟨notDefined, notDeclared⟩ := unknown
    constructor
    · rw [List.map_append, List.map_singleton, List.nodup_append]
      refine ⟨consistent.distinct, List.nodup_singleton _, ?_⟩
      rintro name declared other new rfl
      obtain ⟨known, member, named⟩ := List.mem_map.mp declared
      exact notDeclared known member (named.trans (List.mem_singleton.mp new))
    · intro other member function defined
      rcases List.mem_append.mp member with old | new
      · exact consistent.undefined other old function defined
      · rw [List.mem_singleton.mp new]
        exact fun same => notDefined function defined same.symm

end Consistent

/-! What additions leave alone -/

theorem addDeclaration_functions (unit : Module) (declaration : FunctionRef) :
    (unit.addDeclaration declaration).functions = unit.functions := by
  unfold addDeclaration
  split <;> rfl

theorem addDeclaration_globals (unit : Module) (declaration : FunctionRef) :
    (unit.addDeclaration declaration).globals = unit.globals := by
  unfold addDeclaration
  split <;> rfl

theorem addDeclaration_typeDefinitions (unit : Module) (declaration : FunctionRef) :
    (unit.addDeclaration declaration).typeDefinitions = unit.typeDefinitions := by
  unfold addDeclaration
  split <;> rfl

/-- A type definition changes no other part of a module. -/
theorem addTypeDefinition_eq (unit : Module) (ty : Ty) :
    unit.addTypeDefinition ty =
      { unit with typeDefinitions := Ty.addSeen unit.typeDefinitions ty } := by
  unfold addTypeDefinition Ty.addSeen
  split <;> rfl

theorem foldl_addTypeDefinition (types : List Ty) (unit : Module) :
    types.foldl addTypeDefinition unit =
      { unit with typeDefinitions := types.foldl Ty.addSeen unit.typeDefinitions } := by
  induction types generalizing unit with
  | nil => rfl
  | cons ty types ih => rw [List.foldl_cons, ih, addTypeDefinition_eq, List.foldl_cons]

/-- The named types that a module mentions without defining them, in the order of first mention. -/
def undefinedTypes (unit : Module) : List Ty :=
  ((unit.mentionedTys.flatMap Ty.namedParts).filter fun ty => ty ∉ unit.typeDefinitions).eraseDups

theorem functions_foldl_addDeclaration (callees : List FunctionRef) (unit : Module) :
    (callees.foldl addDeclaration unit).functions = unit.functions :=
  view_foldl_fixed addDeclaration_functions callees unit

end Module

theorem FunctionDef.mem_callees {function : FunctionDef} {callee : FunctionRef} :
    callee ∈ function.callees ↔ .function callee ∈ function.symbols := by
  rw [FunctionDef.callees, List.mem_filterMap]
  constructor
  · rintro ⟨value, member, found⟩
    cases value with
    | function other =>
      cases found
      exact member
    | _ => cases found
  · intro member
    exact ⟨.function callee, member, rfl⟩

namespace Draft

/-- The drafts that a caller can put together, in any order and with any repetitions. -/
inductive Reached : Draft → Prop where
  | start (name : String) : Reached (Draft.start name)
  | withLayout (parsed : Draft.withLayout name spec = .ok draft) : Reached draft
  | setTargetTriple (reached : Reached draft) (triple : String) :
      Reached (draft.setTargetTriple triple)
  | declareFunction (reached : Reached draft) (name : String) (signature : Signature) :
      Reached (draft.declareFunction name signature).2
  | addFunction (reached : Reached draft) (function : FunctionDef) :
      Reached (draft.addFunction function)
  | addTypeDefinition (reached : Reached draft) (ty : Ty) : Reached (draft.addTypeDefinition ty)
  | addGlobal (reached : Reached draft) (global : GlobalVariable) :
      Reached (draft.addGlobal global).2

variable {draft : Draft}

theorem unit_of_withLayout {name spec : String} (parsed : withLayout name spec = .ok draft) :
    draft.unit = { name := name, dataLayout := some spec } := by
  unfold withLayout at parsed
  cases layout : DataLayout.parse spec with
  | error error =>
    rw [layout] at parsed
    cases parsed
  | ok layout =>
    simp only [layout, bind, Except.bind, pure, Except.pure, Except.ok.injEq] at parsed
    rw [← parsed]

/-- A definition takes the place of its declaration. -/
theorem consistent_addFunction (consistent : draft.unit.Consistent) (function : FunctionDef) :
    (draft.addFunction function).unit.Consistent where
  distinct := consistent.distinct.sublist (List.filter_sublist.map _)
  undefined := by
    intro declaration declared defined member
    obtain ⟨kept, other⟩ := List.mem_filter.mp declared
    rcases List.mem_append.mp member with old | new
    · exact consistent.undefined declaration kept defined old
    · rw [List.mem_singleton.mp new]
      simpa using other

theorem Reached.consistent (reached : Reached draft) : draft.unit.Consistent := by
  induction reached with
  | start name => constructor <;> simp [Draft.start]
  | withLayout parsed => constructor <;> simp [unit_of_withLayout parsed]
  | setTargetTriple _ triple ih => exact ⟨ih.distinct, ih.undefined⟩
  | declareFunction _ name signature ih => exact ih.addDeclaration ⟨name, signature⟩
  | addFunction _ function ih => exact consistent_addFunction ih function
  | addTypeDefinition _ ty ih =>
    simp only [Draft.addTypeDefinition, Module.addTypeDefinition_eq]
    exact ⟨ih.distinct, ih.undefined⟩
  | addGlobal _ global ih => exact ⟨ih.distinct, ih.undefined⟩

/-- The finished module with its two additions apart. -/
theorem finish_eq (draft : Draft) :
    let declared := (draft.unit.functions.flatMap FunctionDef.callees).foldl Module.addDeclaration
      draft.unit
    draft.finish = { declared with
      typeDefinitions := draft.unit.typeDefinitions ++ draft.unit.undefinedTypes } := by
  dsimp only
  rw [finish, Module.foldl_addTypeDefinition, Ty.namedTypes_eq_foldl, Ty.foldl_addSeen_foldl,
    view_foldl_fixed Module.addDeclaration_typeDefinitions, List.foldl_nil, Ty.foldl_addSeen]
  rfl

end Draft

end IrAssembly
