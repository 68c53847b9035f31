import IrAssembly.Proofs.Assembly.TypeNames
import IrAssembly.Proofs.Ty.Named
import Mathlib.Data.List.Induction

/-! Where types occur in types. The named types of a list of types are those that occur in it, in
the order in which they are met first when every type is read before what is inside it, from left
to right. -/

namespace IrAssembly.Ty

/-- The types directly inside a type, from left to right. -/
def children : Ty → List Ty
  | ptr pointee => [pointee]
  | array _ element | vector _ element => [element]
  | struct _ fields _ => fields
  | func result params _ => result :: params
  | void | int _ | float _ | bodiless _ | label | metadata => []

theorem sizeOf_of_mem_children {ty child : Ty} (inside : child ∈ ty.children) :
    sizeOf child < sizeOf ty := by
  cases ty with
  | struct name fields packed =>
    have smaller : sizeOf child < sizeOf fields := List.sizeOf_lt_of_mem inside
    rw [struct.sizeOf_spec]
    omega
  | func result params vararg =>
    rw [func.sizeOf_spec]
    rcases List.mem_cons.mp inside with rfl | param
    · omega
    · have smaller : sizeOf child < sizeOf params := List.sizeOf_lt_of_mem param
      omega
  | ptr | array | vector =>
    obtain rfl := List.mem_singleton.mp inside
    simp only [ptr.sizeOf_spec, array.sizeOf_spec, vector.sizeOf_spec]
    omega
  | _ => cases inside

/-- A type occurs in another one at some depth, or is this type. -/
inductive Occurs (part : Ty) : Ty → Prop where
  | here : Occurs part part
  | inside {child whole : Ty} (member : child ∈ whole.children) (occurs : Occurs part child) :
      Occurs part whole

/-- The types that occur in a type, as often as they do, each in front of what is inside it. -/
def preorder (ty : Ty) : List Ty :=
  ty :: ty.children.attach.flatMap fun child => preorder child.val
termination_by sizeOf ty
decreasing_by exact sizeOf_of_mem_children child.property

theorem preorder_eq (ty : Ty) : ty.preorder = ty :: ty.children.flatMap preorder := by
  rw [preorder, List.flatMap_subtype (fun _ _ => rfl), List.unattach_attach]

theorem occurs_of_mem_preorder {part whole : Ty} (member : part ∈ whole.preorder) :
    Occurs part whole := by
  rw [preorder_eq, List.mem_cons, List.mem_flatMap] at member
  rcases member with rfl | ⟨child, inside, further⟩
  · exact .here
  · exact .inside inside (occurs_of_mem_preorder further)
termination_by sizeOf whole
decreasing_by exact sizeOf_of_mem_children inside

theorem mem_preorder_iff {part whole : Ty} : part ∈ whole.preorder ↔ Occurs part whole := by
  refine ⟨occurs_of_mem_preorder, fun occurs => ?_⟩
  induction occurs with
  | here => rw [preorder_eq]; exact List.mem_cons_self ..
  | inside member _ ih =>
    rw [preorder_eq]
    exact List.mem_cons_of_mem _ (List.mem_flatMap_of_mem member ih)

/-- The named parts are what is named of all that occurs. -/
theorem filter_preorder (ty : Ty) : ty.preorder.filter (·.name?.isSome) = ty.namedParts := by
  have parts : ∀ child ∈ ty.children, child.preorder.filter (·.name?.isSome) = child.namedParts :=
    fun child _ => filter_preorder child
  rw [preorder_eq, List.filter_cons, List.filter_flatMap, List.flatMap_congr parts]
  cases ty with
  | struct name fields packed =>
    cases name <;> simp [name?, children, namedParts, namedPartsOf_eq_flatMap]
  | _ => simp [name?, children, namedParts, namedPartsOf_eq_flatMap]
termination_by sizeOf ty
decreasing_by exact sizeOf_of_mem_children ‹_›

/-- Types that are chosen from a list and collected come in the order of their first places. -/
theorem pairwise_idxOf (chosen : Ty → Bool) (types : List Ty) :
    ((types.filter chosen).foldl addSeen []).Pairwise fun first later =>
      types.idxOf first < types.idxOf later := by
  induction types using List.reverseRecOn with
  | nil => exact .nil
  | append_singleton types ty ih =>
    have listed : ∀ part ∈ (types.filter chosen).foldl addSeen [], part ∈ types := by
      intro part member
      simpa using (mem_foldl_addSeen.mp member).imp_right List.mem_of_mem_filter
    have kept : ((types.filter chosen).foldl addSeen []).Pairwise fun first later =>
        (types ++ [ty]).idxOf first < (types ++ [ty]).idxOf later := by
      refine ih.imp_of_mem fun earlier other lt => ?_
      rwa [List.idxOf_append_of_mem (listed _ earlier), List.idxOf_append_of_mem (listed _ other)]
    rw [List.filter_append, List.foldl_append]
    cases taken : chosen ty with
    | false => simpa [taken] using kept
    | true =>
      rw [List.filter_cons_of_pos taken, List.filter_nil, List.foldl_cons, List.foldl_nil, addSeen]
      split
      · exact kept
      · rename_i absent
        have new : ty ∉ types := fun old =>
          absent (mem_foldl_addSeen.mpr (.inr (List.mem_filter.mpr ⟨old, taken⟩)))
        refine List.pairwise_append.mpr ⟨kept, List.pairwise_singleton .., ?_⟩
        intro first member last same
        rw [List.mem_singleton.mp same, List.idxOf_append_of_mem (listed _ member),
          List.idxOf_append_of_notMem new]
        exact Nat.lt_add_right _ (List.idxOf_lt_length_of_mem (listed _ member))

/-- The named types of several types are those that occur in them, each once, in the order of their
first occurrences. -/
theorem namedTypes_occur (types : List Ty) :
    (namedTypes types).Nodup ∧
    (∀ ty, ty ∈ namedTypes types ↔ ty.name?.isSome ∧ ∃ whole ∈ types, Occurs ty whole) ∧
    (namedTypes types).Pairwise fun first later =>
      (types.flatMap preorder).idxOf first < (types.flatMap preorder).idxOf later := by
  have collected : namedTypes types =
      ((types.flatMap preorder).filter (·.name?.isSome)).foldl addSeen [] := by
    rw [namedTypes_eq_foldl, List.filter_flatMap, funext filter_preorder]
  have ordered := pairwise_idxOf (·.name?.isSome) (types.flatMap preorder)
  rw [← collected] at ordered
  refine ⟨ordered.imp fun lt same => ?_, fun ty => ?_, ordered⟩
  · exact absurd lt (same ▸ Nat.lt_irrefl _)
  · rw [collected, mem_foldl_addSeen, List.mem_filter, List.mem_flatMap]
    simp only [mem_preorder_iff, List.not_mem_nil, false_or]
    exact and_comm

end IrAssembly.Ty
