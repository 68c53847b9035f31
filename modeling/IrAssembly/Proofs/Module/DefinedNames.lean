import IrAssembly.Proofs.Assembly.TypeNames
import IrAssembly.Proofs.Module.Definitions
import Mathlib.Data.Finset.Card

/-! Which names a finished module defines, and how often. Every type is defined once, but types are
compared as a whole and referred to by their names: two types of one name are both defined. -/

namespace IrAssembly

theorem Ty.nodup_foldl_addSeen {seen : List Ty} (nodup : seen.Nodup) (types : List Ty) :
    (types.foldl addSeen seen).Nodup := by
  induction types generalizing seen with
  | nil => exact nodup
  | cons ty types ih =>
    refine ih ?_
    rw [addSeen]
    split
    · exact nodup
    · rename_i absent
      exact List.concat_eq_append ▸ nodup.concat absent

/-- The names that a module defines, once for each definition. -/
def Module.definedNames (unit : Module) : List String :=
  unit.typeDefinitions.filterMap Ty.name?

namespace Draft

variable {draft : Draft}

theorem Reached.nodup_typeDefinitions (reached : Reached draft) :
    draft.unit.typeDefinitions.Nodup := by
  induction reached with
  | start name => exact List.nodup_nil
  | withLayout parsed => rw [unit_of_withLayout parsed]; exact List.nodup_nil
  | declareFunction _ name signature ih =>
    exact (Module.addDeclaration_typeDefinitions ..).symm ▸ ih
  | addTypeDefinition _ ty ih =>
    rw [Draft.addTypeDefinition, Module.addTypeDefinition_eq]
    exact Ty.nodup_foldl_addSeen ih [ty]
  | setTargetTriple _ _ ih | addFunction _ _ ih | addGlobal _ _ ih => exact ih

/-- No type is defined twice. -/
theorem Reached.nodup_finish_typeDefinitions (reached : Reached draft) :
    draft.finish.typeDefinitions.Nodup := by
  rw [finish_typeDefinitions, Module.undefinedTypes, ← Ty.foldl_addSeen]
  exact Ty.nodup_foldl_addSeen reached.nodup_typeDefinitions _

/-- The types that finishing defines: those that were given, and the named ones that occur in the
types of globals, signatures, operands and results. -/
def Defines (draft : Draft) (ty : Ty) : Prop :=
  ty ∈ draft.unit.typeDefinitions ∨
    ∃ mentioned ∈ draft.unit.mentionedTys, ty ∈ mentioned.namedParts

theorem mem_finish_typeDefinitions {ty : Ty} :
    ty ∈ draft.finish.typeDefinitions ↔ draft.Defines ty := by
  rw [finish_typeDefinitions, List.mem_append, mem_undefinedTypes, Defines]
  tauto

/-- Different types to be defined do not share the name. -/
def Unambiguous (draft : Draft) (name : String) : Prop :=
  ∀ first second, draft.Defines first → draft.Defines second →
    first.name? = some name → second.name? = some name → first = second

/-- Each definition of a name belongs to another type. -/
theorem count_definedNames (reached : Reached draft) (name : String) :
    draft.finish.definedNames.count name =
      (draft.finish.typeDefinitions.toFinset.filter fun ty => ty.name? = some name).card := by
  rw [Module.definedNames, List.count_filterMap, List.countP_eq_length_filter,
    ← List.toFinset_card_of_nodup (reached.nodup_finish_typeDefinitions.filter _),
    List.toFinset_filter]
  simp only [beq_iff_eq]

/-- In a finished module, however it was put together, no type has two definitions, and a name has
at most one just if no two different types of that name were given or are in use. -/
theorem name_defined_once_iff (reached : Reached draft) : draft.finish.typeDefinitions.Nodup ∧
    ∀ name, draft.finish.definedNames.count name ≤ 1 ↔ draft.Unambiguous name := by
  refine ⟨reached.nodup_finish_typeDefinitions, fun name => ?_⟩
  rw [count_definedNames reached, Finset.card_le_one]
  simp only [Finset.mem_filter, List.mem_toFinset, mem_finish_typeDefinitions]
  constructor
  · intro alone first second defined other named same
    exact alone first ⟨defined, named⟩ second ⟨other, same⟩
  · rintro unambiguous first ⟨defined, named⟩ second ⟨other, same⟩
    exact unambiguous first second defined other named same

/-- A structure that is defined, mentioned by a global and met again inside another one. -/
theorem pair_defined_once : ∃ draft : Draft, Reached draft ∧
    draft.finish.definedNames = ["pair", "outer"] ∧ draft.finish.typeDefinitions.Nodup ∧
    draft.Unambiguous "pair" := by
  let pair : Ty := .struct (some "pair") [.i32, .i32] false
  let outer : Ty := .struct (some "outer") [.ptr pair] false
  have reached := (((Reached.start "m").addTypeDefinition pair).addGlobal
    ⟨"g", outer, false, none, .external, 0⟩).addGlobal ⟨"h", pair, false, none, .external, 0⟩
  obtain ⟨nodup, once⟩ := name_defined_once_iff reached
  exact ⟨_, reached, by decide +kernel, nodup, (once "pair").mp (by decide +kernel)⟩

/-- Two structures of one name are both defined. -/
theorem pair_defined_twice : ∃ draft : Draft, Reached draft ∧
    draft.finish.typeDefinitions =
      [.struct (some "pair") [.i32] false, .struct (some "pair") [.i64] false] ∧
    ¬ draft.finish.definedNames.Nodup :=
  ⟨_, ((Reached.start "m").addTypeDefinition (.struct (some "pair") [.i32] false)).addTypeDefinition
    (.struct (some "pair") [.i64] false), by decide +kernel, by decide +kernel⟩

end Draft

end IrAssembly
