import IrAssembly.Proofs.Layout.Alignment

/-! What raises the alignment of a type. Arrays and structures are aligned to what their elements
and fields are aligned to; a packed structure hides its fields. -/

namespace IrAssembly

/-- A part of a type that takes part in its alignment. -/
inductive Ty.Exposes : Ty → Ty → Prop where
  | self (ty : Ty) : Exposes ty ty
  | element (inside : Exposes element part) : Exposes (.array len element) part
  | field (member : field ∈ fields) (inside : Exposes field part) :
      Exposes (.struct name fields false) part

theorem le_foldl_max_iff {bound start : Nat} {aligns : List Nat} :
    bound ≤ aligns.foldl max start ↔ bound ≤ start ∨ ∃ align ∈ aligns, bound ≤ align := by
  induction aligns generalizing start with
  | nil => simp
  | cons align aligns ih =>
    have either : bound ≤ max start align ↔ bound ≤ start ∨ bound ≤ align := by omega
    simp only [List.foldl_cons, ih, either, List.mem_cons, exists_eq_or_imp, or_assoc]

namespace DataLayout

/-- The alignment that a type has whatever its elements and fields are aligned to. -/
def ownAlign (layout : DataLayout) : Ty → Nat
  | .array _ _ => 1
  | .struct _ _ packed => if packed then 1 else abiBytes layout.aggregateAbi
  | ty => layout.alignOf ty

variable {layout : DataLayout} {bound : Nat}

theorem le_alignOf_struct_iff {name : Option String} {fields : List Ty} :
    bound ≤ layout.alignOf (.struct name fields false) ↔
      bound ≤ abiBytes layout.aggregateAbi ∨ ∃ field ∈ fields, bound ≤ layout.alignOf field := by
  have unpacked : layout.alignOf (.struct name fields false) =
      ((fields.map layout.extent).map Extent.align).foldl max (abiBytes layout.aggregateAbi) := by
    rw [alignOf, extent, extents_eq_map]
    rfl
  rw [unpacked, le_foldl_max_iff, List.map_map]
  simp [alignOf]

mutual

/-- A type is aligned as far as some part that it exposes. -/
theorem le_alignOf_iff (proper : 1 < bound) : ∀ ty : Ty,
    bound ≤ layout.alignOf ty ↔ ∃ part, ty.Exposes part ∧ bound ≤ layout.ownAlign part
  | .array len element => by
    have own : ¬ bound ≤ layout.ownAlign (.array len element) := Nat.not_le.mpr proper
    rw [show layout.alignOf (.array len element) = layout.alignOf element from rfl,
      le_alignOf_iff proper element]
    constructor
    · rintro ⟨part, inside, le⟩
      exact ⟨part, .element inside, le⟩
    · rintro ⟨part, exposes, le⟩
      cases exposes with
      | self => exact absurd le own
      | element inside => exact ⟨part, inside, le⟩
  | .struct name fields true => by
    have own : ¬ bound ≤ layout.ownAlign (.struct name fields true) := Nat.not_le.mpr proper
    constructor
    · exact fun le => absurd le (Nat.not_le.mpr proper)
    · rintro ⟨part, exposes, le⟩
      cases exposes
      exact absurd le own
  | .struct name fields false => by
    rw [le_alignOf_struct_iff]
    constructor
    · rintro (own | ⟨field, member, le⟩)
      · exact ⟨_, .self _, own⟩
      · obtain ⟨part, inside, le⟩ := (le_alignOf_iff_of_mem proper fields field member).mp le
        exact ⟨part, .field member inside, le⟩
    · rintro ⟨part, exposes, le⟩
      cases exposes with
      | self => exact .inl le
      | field member inside =>
        exact .inr ⟨_, member,
          (le_alignOf_iff_of_mem proper fields _ member).mpr ⟨part, inside, le⟩⟩
  | .void | .int _ | .float _ | .ptr _ | .vector _ _ | .func _ _ _ | .bodiless _ | .label
  | .metadata => by
    constructor
    · exact fun le => ⟨_, .self _, le⟩
    · rintro ⟨part, exposes, le⟩
      cases exposes
      exact le

theorem le_alignOf_iff_of_mem (proper : 1 < bound) : ∀ types : List Ty, ∀ ty ∈ types,
    (bound ≤ layout.alignOf ty ↔ ∃ part, ty.Exposes part ∧ bound ≤ layout.ownAlign part)
  | [], _, member => by cases member
  | first :: types, ty, member => by
    rcases List.mem_cons.mp member with same | others
    · rw [same]
      exact le_alignOf_iff proper first
    · exact le_alignOf_iff_of_mem proper types ty others

end

/-- A power of two divides another one just if it is no greater. -/
theorem dvd_iff_le_of_isPowerOfTwo {small great : Nat} (first : small.isPowerOfTwo)
    (second : great.isPowerOfTwo) : small ∣ great ↔ small ≤ great := by
  obtain ⟨low, rfl⟩ := first
  obtain ⟨high, rfl⟩ := second
  rw [Nat.pow_dvd_pow_iff_le_right (by decide), Nat.pow_le_pow_iff_right (by decide)]

end DataLayout

end IrAssembly
