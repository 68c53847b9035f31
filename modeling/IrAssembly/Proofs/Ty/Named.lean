import IrAssembly.Ty.Named
import Mathlib.Data.List.Basic

/-! The named types of a list of types are its named parts, read from left to right with a structure
in front of its fields, each at its first occurrence. Not visiting a structure again loses nothing,
since its parts were collected when it was met. -/

namespace IrAssembly

/-- Collecting entries one by one, unless they are known, appends the first entry of each kind that
was not known to begin with. -/
theorem view_foldl_add {Store Entry : Type} (view : Store → List Entry)
    (known : Store → Entry → Bool) (same : Entry → Entry → Bool) {add : Store → Entry → Store}
    (present : ∀ store entry, known store entry = true → add store entry = store)
    (absent : ∀ store entry, known store entry = false →
      view (add store entry) = view store ++ [entry] ∧
        ∀ other, known (add store entry) other = (known store other || same other entry))
    (entries : List Entry) (store : Store) :
    view (entries.foldl add store) =
      view store ++ (entries.filter fun entry => !known store entry).eraseDupsBy same := by
  induction entries generalizing store with
  | nil => simp
  | cons entry entries ih =>
    rw [List.foldl_cons, ih]
    cases found : known store entry with
    | true => rw [present store entry found, List.filter_cons_of_neg (by simp [found])]
    | false =>
      obtain ⟨appended, knows⟩ := absent store entry found
      rw [appended, List.filter_cons_of_pos (by simp [found]), List.eraseDupsBy_cons,
        List.filter_filter, List.append_assoc, List.singleton_append]
      simp [knows, Bool.and_comm]

/-- What no single addition changes is left alone by all of them. -/
theorem view_foldl_fixed {Store Entry Part : Type} {view : Store → Part}
    {add : Store → Entry → Store} (fixed : ∀ store entry, view (add store entry) = view store)
    (entries : List Entry) (store : Store) : view (entries.foldl add store) = view store := by
  induction entries generalizing store with
  | nil => rfl
  | cons entry entries ih => rw [List.foldl_cons, ih, fixed]

namespace Ty

mutual

/-- The named structures and bodiless types in a type at any depth, as often as they occur, a
structure in front of what is inside it. -/
def namedParts : Ty → List Ty
  | ptr pointee => namedParts pointee
  | array _ element | vector _ element => namedParts element
  | struct none fields _ => namedPartsOf fields
  | struct (some name) fields packed => struct (some name) fields packed :: namedPartsOf fields
  | func result params _ => namedParts result ++ namedPartsOf params
  | bodiless name => [bodiless name]
  | void | int _ | float _ | label | metadata => []

def namedPartsOf : List Ty → List Ty
  | [] => []
  | ty :: types => namedParts ty ++ namedPartsOf types

end

theorem namedPartsOf_eq_flatMap (types : List Ty) :
    namedPartsOf types = types.flatMap namedParts := by
  induction types with
  | nil => rfl
  | cons ty types ih => rw [namedPartsOf, ih, List.flatMap_cons]

mutual

theorem sizeOf_of_mem_namedParts : ∀ {ty part : Ty}, part ∈ namedParts ty → sizeOf part ≤ sizeOf ty
  | ptr _, part, member | array _ _, part, member | vector _ _, part, member => by
    have := sizeOf_of_mem_namedParts (by simpa [namedParts] using member)
    simp
    omega
  | struct none _ _, part, member => by
    have := sizeOf_of_mem_namedPartsOf (by simpa [namedParts] using member)
    simp
    omega
  | struct (some _) _ _, part, member => by
    rcases List.mem_cons.mp (by simpa only [namedParts] using member) with rfl | inside
    · exact Nat.le_refl _
    · have := sizeOf_of_mem_namedPartsOf inside
      simp
      omega
  | func _ _ _, part, member => by
    rcases List.mem_append.mp (by simpa only [namedParts] using member) with inside | inside
    · have := sizeOf_of_mem_namedParts inside
      simp
      omega
    · have := sizeOf_of_mem_namedPartsOf inside
      simp
      omega
  | bodiless _, part, member => by
    rw [namedParts, List.mem_singleton] at member
    exact member ▸ Nat.le_refl _
  | void, part, member | int _, part, member | float _, part, member | label, part, member
  | metadata, part, member => by
    simp [namedParts] at member

theorem sizeOf_of_mem_namedPartsOf : ∀ {types : List Ty} {part : Ty},
    part ∈ namedPartsOf types → sizeOf part < sizeOf types
  | [], part, member => by simp [namedPartsOf] at member
  | ty :: types, part, member => by
    rcases List.mem_append.mp (by simpa only [namedPartsOf] using member) with inside | inside
    · have := sizeOf_of_mem_namedParts inside
      simp
      omega
    · have := sizeOf_of_mem_namedPartsOf inside
      simp
      omega

end

mutual

/-- The parts of a part are parts. -/
theorem namedParts_subset : ∀ {ty part : Ty}, part ∈ namedParts ty →
    namedParts part ⊆ namedParts ty
  | ptr _, part, member | array _ _, part, member | vector _ _, part, member => by
    simpa only [namedParts] using namedParts_subset (by simpa only [namedParts] using member)
  | struct none _ _, part, member => by
    simpa only [namedParts] using namedPartsOf_subset (by simpa only [namedParts] using member)
  | struct (some _) _ _, part, member => by
    rcases List.mem_cons.mp (by simpa only [namedParts] using member) with rfl | inside
    · exact List.Subset.refl _
    · rw [namedParts]
      exact List.subset_cons_of_subset _ (namedPartsOf_subset inside)
  | func _ _ _, part, member => by
    rw [namedParts]
    rcases List.mem_append.mp (by simpa only [namedParts] using member) with inside | inside
    · exact List.subset_append_of_subset_left _ (namedParts_subset inside)
    · exact List.subset_append_of_subset_right _ (namedPartsOf_subset inside)
  | bodiless _, part, member => by
    rw [namedParts, List.mem_singleton] at member
    exact member ▸ List.Subset.refl _
  | void, part, member | int _, part, member | float _, part, member | label, part, member
  | metadata, part, member => by
    simp [namedParts] at member

theorem namedPartsOf_subset : ∀ {types : List Ty} {part : Ty}, part ∈ namedPartsOf types →
    namedParts part ⊆ namedPartsOf types
  | [], part, member => by simp [namedPartsOf] at member
  | ty :: types, part, member => by
    rw [namedPartsOf]
    rcases List.mem_append.mp (by simpa only [namedPartsOf] using member) with inside | inside
    · exact List.subset_append_of_subset_left _ (namedParts_subset inside)
    · exact List.subset_append_of_subset_right _ (namedPartsOf_subset inside)

end

/-- Append a type unless it is there. -/
def addSeen (seen : List Ty) (ty : Ty) : List Ty := if ty ∈ seen then seen else seen ++ [ty]

theorem mem_foldl_addSeen {types seen : List Ty} {ty : Ty} :
    ty ∈ types.foldl addSeen seen ↔ ty ∈ seen ∨ ty ∈ types := by
  induction types generalizing seen with
  | nil => simp
  | cons first types ih =>
    rw [List.foldl_cons, ih, addSeen]
    split
    · rename_i present
      grind
    · grind

theorem foldl_addSeen_of_subset {types seen : List Ty} (present : types ⊆ seen) :
    types.foldl addSeen seen = seen := by
  induction types with
  | nil => rfl
  | cons ty types ih =>
    obtain ⟨first, others⟩ := List.cons_subset.mp present
    rw [List.foldl_cons, addSeen, if_pos first]
    exact ih others

theorem foldl_addSeen (types seen : List Ty) :
    types.foldl addSeen seen = seen ++ (types.filter fun ty => ty ∉ seen).eraseDups := by
  have present (seen : List Ty) (ty : Ty) (found : decide (ty ∈ seen) = true) :
      addSeen seen ty = seen := if_pos (of_decide_eq_true found)
  have collected := view_foldl_add id (fun seen ty => decide (ty ∈ seen)) (· == ·) present ?_
    types seen
  · simpa [List.eraseDups] using collected
  · intro seen ty found
    have absent : ty ∉ seen := of_decide_eq_false found
    simp [addSeen, absent, beq_eq_decide]

/-- Types that were collected on their own first are added as they would be one by one. -/
theorem foldl_addSeen_foldl (types collected seen : List Ty) :
    (types.foldl addSeen collected).foldl addSeen seen =
      types.foldl addSeen (collected.foldl addSeen seen) := by
  induction types generalizing collected with
  | nil => rfl
  | cons ty types ih =>
    rw [List.foldl_cons, List.foldl_cons, ih]
    by_cases present : ty ∈ collected
    · have old : ty ∈ collected.foldl addSeen seen := mem_foldl_addSeen.mpr (.inr present)
      rw [addSeen, if_pos present, addSeen, if_pos old]
    · rw [addSeen, if_neg present, List.foldl_append, List.foldl_cons, List.foldl_nil]

/-- The parts of every type among the collected ones have been collected, as far as they are met
again in some further parts. -/
def Explored (seen parts : List Ty) : Prop := ∀ ty ∈ seen, ty ∈ parts → namedParts ty ⊆ seen

theorem Explored.next {seen first second : List Ty} (explored : Explored seen (first ++ second))
    (closed : ∀ ty ∈ first, namedParts ty ⊆ first) :
    Explored (first.foldl addSeen seen) second := by
  intro ty member met part inside
  rw [mem_foldl_addSeen] at member ⊢
  rcases member with old | new
  · exact .inl (explored ty old (List.mem_append_right _ met) inside)
  · exact .inr (closed ty new inside)

mutual

theorem collectNamed_eq_foldl : ∀ (ty : Ty) (seen : List Ty), Explored seen (namedParts ty) →
    collectNamed ty seen = (namedParts ty).foldl addSeen seen
  | ptr pointee, seen, explored => by
    rw [namedParts] at explored ⊢
    exact collectNamed_eq_foldl pointee seen explored
  | array _ element, seen, explored | vector _ element, seen, explored => by
    rw [namedParts] at explored ⊢
    exact collectNamed_eq_foldl element seen explored
  | struct none fields _, seen, explored => by
    rw [namedParts] at explored ⊢
    exact collectNamedList_eq_foldl fields seen explored
  | struct (some name) fields packed, seen, explored => by
    rw [namedParts] at explored
    rw [collectNamed, namedParts, List.foldl_cons, addSeen]
    split
    · -- the structure was explored when it was met first
      rename_i present
      have inside := explored _ present (List.mem_cons_self ..)
      rw [namedParts] at inside
      exact (foldl_addSeen_of_subset (List.cons_subset.mp inside).2).symm
    · rename_i absent
      apply collectNamedList_eq_foldl
      intro ty member met
      rcases List.mem_append.mp member with old | new
      · exact List.subset_append_of_subset_left _ (explored ty old (List.mem_cons_of_mem _ met))
      · -- a structure is no part of its own fields
        rw [List.mem_singleton] at new
        subst new
        have := sizeOf_of_mem_namedPartsOf met
        simp at this
        omega
  | func result params _, seen, explored => by
    rw [namedParts] at explored
    have front : Explored seen (namedParts result) := fun ty member met =>
      explored ty member (List.mem_append_left _ met)
    rw [collectNamed, namedParts, List.foldl_append, collectNamed_eq_foldl result seen front]
    exact collectNamedList_eq_foldl params _ (explored.next fun _ => namedParts_subset)
  | bodiless name, seen, _ => rfl
  | void, _, _ | int _, _, _ | float _, _, _ | label, _, _ | metadata, _, _ => rfl

theorem collectNamedList_eq_foldl : ∀ (types seen : List Ty), Explored seen (namedPartsOf types) →
    collectNamedList types seen = (namedPartsOf types).foldl addSeen seen
  | [], seen, _ => rfl
  | ty :: types, seen, explored => by
    rw [namedPartsOf] at explored
    have front : Explored seen (namedParts ty) := fun part member met =>
      explored part member (List.mem_append_left _ met)
    rw [collectNamedList, namedPartsOf, List.foldl_append, collectNamed_eq_foldl ty seen front]
    exact collectNamedList_eq_foldl types _ (explored.next fun _ => namedParts_subset)

end

theorem namedTypes_eq_foldl (types : List Ty) :
    namedTypes types = (types.flatMap namedParts).foldl addSeen [] := by
  have explored : Explored [] (namedPartsOf types) := by
    intro ty member
    cases member
  rw [namedTypes, collectNamedList_eq_foldl types [] explored, namedPartsOf_eq_flatMap]

end Ty

end IrAssembly
