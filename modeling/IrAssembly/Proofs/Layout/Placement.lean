import IrAssembly.Proofs.Layout.Alignment
import Mathlib.Algebra.Ring.Nat
import Mathlib.Data.List.Chain

/-! Where the parts of a type lie. Sizes are multiples of alignments, and the fields of a structure
body follow one another as closely as their alignments allow. -/

namespace IrAssembly

/-! Rounding -/

theorem le_roundUp (value align : Nat) : value ≤ roundUp value align := by
  unfold roundUp
  split
  · exact Nat.le_refl _
  · have whole := Nat.div_add_mod (value + (align - 1)) align
    have rest := Nat.mod_lt (value + (align - 1)) (by omega : align > 0)
    rw [Nat.mul_comm] at whole
    omega

/-- Rounding up does not go past a multiple. -/
theorem roundUp_le_of_dvd {value align bound : Nat} (divides : align ∣ bound)
    (le : value ≤ bound) : roundUp value align ≤ bound := by
  unfold roundUp
  split
  · exact le
  · obtain ⟨factor, rfl⟩ := divides
    have below : (value + (align - 1)) / align < factor + 1 := by
      rw [Nat.div_lt_iff_lt_mul (by omega), Nat.succ_mul, Nat.mul_comm factor]
      omega
    rw [Nat.mul_comm align]
    exact Nat.mul_le_mul_right _ (Nat.le_of_lt_succ below)

/-- Multiples alone are rounded up to themselves. -/
theorem eq_roundUp_iff {value align : Nat} (proper : 1 < align) :
    value = roundUp value align ↔ align ∣ value := by
  constructor
  · intro same
    rw [roundUp, if_neg (Nat.not_le.mpr proper)] at same
    exact ⟨_, same.trans (Nat.mul_comm ..)⟩
  · exact fun divides =>
      Nat.le_antisymm (le_roundUp ..) (roundUp_le_of_dvd divides (Nat.le_refl _))

theorem dvd_roundUp {align : Nat} (positive : 0 < align) (value : Nat) :
    align ∣ roundUp value align := by
  unfold roundUp
  split
  · rename_i trivial
    obtain rfl : align = 1 := by omega
    exact Nat.one_dvd _
  · exact Nat.dvd_mul_left ..

/-- Less than an alignment is added. -/
theorem roundUp_lt {align : Nat} (positive : 0 < align) (value : Nat) :
    roundUp value align < value + align := by
  unfold roundUp
  split
  · omega
  · have le := Nat.div_mul_le_self (value + (align - 1)) align
    omega

namespace DataLayout

variable {layout : DataLayout}

/-! Sizes -/

theorem alignOf_dvd_sizeOf (layout : DataLayout) :
    ∀ ty : Ty, layout.alignOf ty ∣ layout.sizeOf ty
  | .int bits => dvd_roundUp (layout.alignOf_pos (.int bits)) _
  | .float kind => dvd_roundUp (layout.alignOf_pos (.float kind)) _
  | .ptr pointee => dvd_roundUp (layout.alignOf_pos (.ptr pointee)) _
  | .vector len element => dvd_roundUp (layout.alignOf_pos (.vector len element)) _
  | .array len element => Nat.dvd_mul_left_of_dvd (layout.alignOf_dvd_sizeOf element) len.toNat
  | .struct _ _ true => Nat.one_dvd _
  | .struct name fields false => dvd_roundUp (layout.alignOf_pos (.struct name fields false)) _
  | .void | .func _ _ _ | .bodiless _ | .label | .metadata => Nat.one_dvd _

theorem storeSizeOf_le_sizeOf (layout : DataLayout) (ty : Ty) :
    layout.storeSizeOf ty ≤ layout.sizeOf ty := by
  cases ty with
  | int | float | ptr | vector => exact le_roundUp ..
  | _ => exact Nat.le_refl _

/-! Structure bodies -/

/-- Where a field ends that lies at an offset. -/
def endOf (layout : DataLayout) (field : Ty × Nat) : Nat := field.2 + layout.sizeOf field.1

/-- The end of the last of several fields, zero if there is none. -/
def lastEnd (layout : DataLayout) (fields : List (Ty × Nat)) : Nat :=
  (fields.getLast?.map layout.endOf).getD 0

/-- The second field lies behind the first one, and the gap between them is smaller than its
alignment. -/
def Follows (layout : DataLayout) (field next : Ty × Nat) : Prop :=
  layout.endOf field ≤ next.2 ∧ next.2 < layout.endOf field + layout.alignOf next.1

/-- How the fields of a structure body that is not packed lie in its bytes: aligned, in order, and
with no more room around them than alignments ask for. -/
structure Spread (layout : DataLayout) (fields : List Ty) (offsets : List Nat) (align size : Nat) :
    Prop where
  length : offsets.length = fields.length
  first : ∀ offset ∈ offsets.head?, offset = 0
  aligned : ∀ field ∈ fields.zip offsets, layout.alignOf field.1 ∣ field.2
  follows : (fields.zip offsets).IsChain layout.Follows
  multiple : align ∣ size
  holds : layout.lastEnd (fields.zip offsets) ≤ size
  tail : size < layout.lastEnd (fields.zip offsets) + align

/-- Fields that are not packed, from an offset on, each with the offset that it comes to. -/
def spreadFrom (layout : DataLayout) (fields : List Ty) (offset : Nat) : List (Ty × Nat) :=
  fields.zip (Extent.offsets false (layout.extents fields) offset)

theorem spreadFrom_cons (field : Ty) (fields : List Ty) (offset : Nat) :
    layout.spreadFrom (field :: fields) offset =
      (field, roundUp offset (layout.alignOf field)) :: layout.spreadFrom fields
        (roundUp offset (layout.alignOf field) + layout.sizeOf field) :=
  rfl

theorem aligned_spreadFrom (fields : List Ty) (offset : Nat) :
    ∀ field ∈ layout.spreadFrom fields offset, layout.alignOf field.1 ∣ field.2 := by
  induction fields generalizing offset with
  | nil => exact fun _ member => nomatch member
  | cons field fields ih =>
    rw [spreadFrom_cons]
    exact List.forall_mem_cons.mpr ⟨dvd_roundUp (layout.alignOf_pos field) offset, ih _⟩

theorem follows_spreadFrom (fields : List Ty) (offset : Nat) :
    (layout.spreadFrom fields offset).IsChain layout.Follows := by
  induction fields generalizing offset with
  | nil => exact .nil
  | cons field fields ih =>
    rw [spreadFrom_cons]
    refine List.isChain_cons.mpr ⟨?_, ih _⟩
    cases fields with
    | nil => exact fun _ member => nomatch member
    | cons next fields =>
      rintro _ ⟨⟩
      exact ⟨le_roundUp .., roundUp_lt (layout.alignOf_pos next) _⟩

/-- The end that the size is computed from is that of the last field. -/
theorem fieldsEnd_eq (fields : List Ty) (offset : Nat) :
    Extent.fieldsEnd (layout.extents fields) offset =
      ((layout.spreadFrom fields offset).getLast?.map layout.endOf).getD offset := by
  induction fields generalizing offset with
  | nil => rfl
  | cons field fields ih =>
    have goesOn : Extent.fieldsEnd (layout.extents (field :: fields)) offset =
        Extent.fieldsEnd (layout.extents fields)
          (roundUp offset (layout.alignOf field) + layout.sizeOf field) := rfl
    rw [goesOn, ih, spreadFrom_cons, List.getLast?_cons]
    cases (layout.spreadFrom fields _).getLast? <;> rfl

theorem sizeOf_struct (layout : DataLayout) (name : Option String) (fields : List Ty) :
    layout.sizeOf (.struct name fields false) =
      roundUp (layout.lastEnd (layout.spreadFrom fields 0))
        (layout.alignOf (.struct name fields false)) := by
  rw [lastEnd, ← fieldsEnd_eq]
  rfl

theorem length_offsets (packed : Bool) (fields : List Extent) (offset : Nat) :
    (Extent.offsets packed fields offset).length = fields.length := by
  induction fields generalizing offset with
  | nil => rfl
  | cons field fields ih => exact congrArg (· + 1) (ih _)

theorem spread_struct (layout : DataLayout) (name : Option String) (fields : List Ty) :
    layout.Spread fields (layout.fieldOffsets fields false)
      (layout.alignOf (.struct name fields false)) (layout.sizeOf (.struct name fields false)) := by
  have positive := layout.alignOf_pos (.struct name fields false)
  rw [sizeOf_struct]
  refine ⟨?_, ?_, aligned_spreadFrom fields 0, follows_spreadFrom fields 0,
    dvd_roundUp positive _, le_roundUp .., roundUp_lt positive _⟩
  · rw [fieldOffsets, length_offsets, extents_eq_map, List.length_map]
  · cases fields with
    | nil => exact fun _ member => nomatch member
    | cons field fields =>
      rintro _ ⟨⟩
      exact Nat.le_zero.mp (roundUp_le_of_dvd (Nat.dvd_zero _) (Nat.le_refl 0))

/-- Every field ends before the last one does. -/
theorem endOf_le_lastEnd {placed : List (Ty × Nat)} (follows : placed.IsChain layout.Follows) :
    ∀ field ∈ placed, layout.endOf field ≤ layout.lastEnd placed := by
  induction placed with
  | nil => exact fun _ member => nomatch member
  | cons first others ih =>
    cases others with
    | nil =>
      rintro field member
      obtain rfl := List.mem_singleton.mp member
      exact Nat.le_refl _
    | cons second others =>
      obtain ⟨before, behind⟩ := List.isChain_cons_cons.mp follows
      have same : layout.lastEnd (first :: second :: others) =
          layout.lastEnd (second :: others) := by
        rw [lastEnd, List.getLast?_cons_cons, lastEnd]
      have later := same ▸ ih behind
      refine List.forall_mem_cons.mpr ⟨?_, later⟩
      have start : second.2 ≤ layout.endOf second := Nat.le_add_right ..
      exact Nat.le_trans before.1 (Nat.le_trans start (later second (.head _)))

/-- Where a field lies. -/
theorem exists_fieldOffset (layout : DataLayout) (name : Option String) {field : Ty}
    {fields : List Ty} {index : Nat} (found : fields[index]? = some field) :
    ∃ start, (layout.fieldOffsets fields false)[index]? = some start ∧
      layout.alignOf field ∣ start ∧
      start + layout.sizeOf field ≤ layout.sizeOf (.struct name fields false) := by
  have spread := layout.spread_struct name fields
  have inside : index < (layout.fieldOffsets fields false).length :=
    spread.length ▸ (List.getElem?_eq_some_iff.mp found).1
  have starts := List.getElem?_eq_getElem inside
  have placed : (field, (layout.fieldOffsets fields false)[index]) ∈
      fields.zip (layout.fieldOffsets fields false) :=
    List.mem_of_getElem? (List.getElem?_zip_eq_some.mpr ⟨found, starts⟩)
  refine ⟨_, starts, spread.aligned _ placed, ?_⟩
  exact Nat.le_trans (endOf_le_lastEnd spread.follows _ placed) spread.holds

theorem offsets_packed (fields : List Ty) (offset : Nat) :
    Extent.offsets true (layout.extents fields) offset =
      (List.range fields.length).map fun position =>
        offset + ((fields.take position).map layout.sizeOf).sum := by
  induction fields generalizing offset with
  | nil => rfl
  | cons field fields ih =>
    rw [extents, Extent.offsets, if_pos rfl, ih, List.length_cons, List.range_succ_eq_map]
    simp [Nat.add_assoc, sizeOf, Function.comp_def]

theorem sizeOf_packed (name : Option String) (fields : List Ty) :
    layout.sizeOf (.struct name fields true) = (fields.map layout.sizeOf).sum := by
  have packed : layout.sizeOf (.struct name fields true) =
      ((fields.map layout.extent).map Extent.size).foldl (· + ·) 0 := by
    rw [sizeOf, extent, extents_eq_map]
    rfl
  rw [packed, List.map_map, List.sum_eq_foldl]
  rfl

/-- Under every layout, sizes are multiples of alignments and leave room for what is stored. The
offsets of fields and the size of the whole fit together: fields that are not packed lie aligned and
in order, with gaps that alignments need, and the size is the end of the last one, rounded up;
packed ones lie without gaps, and the size is the sum of theirs. -/
theorem sizeOf_fits_offsets (layout : DataLayout) :
    (∀ ty, layout.alignOf ty ∣ layout.sizeOf ty ∧ layout.storeSizeOf ty ≤ layout.sizeOf ty) ∧
    ∀ (name : Option String) (fields : List Ty),
      layout.Spread fields (layout.fieldOffsets fields false)
        (layout.alignOf (.struct name fields false))
        (layout.sizeOf (.struct name fields false)) ∧
      layout.fieldOffsets fields true = (List.range fields.length).map (fun position =>
        ((fields.take position).map layout.sizeOf).sum) ∧
      layout.sizeOf (.struct name fields true) = (fields.map layout.sizeOf).sum := by
  refine ⟨fun ty => ⟨layout.alignOf_dvd_sizeOf ty, layout.storeSizeOf_le_sizeOf ty⟩, ?_⟩
  intro name fields
  refine ⟨layout.spread_struct name fields, ?_, sizeOf_packed name fields⟩
  rw [fieldOffsets, offsets_packed]
  simp only [Nat.zero_add]

end DataLayout

end IrAssembly
