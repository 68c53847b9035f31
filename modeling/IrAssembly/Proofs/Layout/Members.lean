import IrAssembly.Proofs.Execution.Machine
import IrAssembly.Proofs.Layout.Default
import IrAssembly.Proofs.Layout.Exposure

/-! Members of types at any depth. Where the listed alignments are powers of two, a member that lies
inside arrays and structures is aligned as it would be on its own, and within the whole. -/

namespace IrAssembly

/-- A path of indices leads from a type to a member, through elements of arrays and through fields
of structures that are not packed. -/
inductive Ty.Leads : Ty → List Nat → Ty → Prop where
  | here (ty : Ty) : Leads ty [] ty
  | element {len : UInt64} {index : Nat} {path : List Nat} {element member : Ty}
      (inside : index < len.toNat) (further : Leads element path member) :
      Leads (.array len element) (index :: path) member
  | field {name : Option String} {fields : List Ty} {index : Nat} {path : List Nat}
      {field member : Ty} (found : fields[index]? = some field)
      (further : Leads field path member) :
      Leads (.struct name fields false) (index :: path) member

namespace DataLayout

variable {layout : DataLayout} {ty member field : Ty} {path : List Nat} {name : Option String}
  {fields : List Ty}

/-- What a field asks for is asked for by the structure. -/
theorem alignOf_field_dvd (lists : layout.ListsOnly Nat.isPowerOfTwo) (inside : field ∈ fields) :
    layout.alignOf field ∣ layout.alignOf (.struct name fields false) := by
  have power := fun ty => lists.extent (fun _ power => power) ty
  refine (dvd_iff_le_of_isPowerOfTwo (power field) (power _)).mpr ?_
  exact le_alignOf_struct_iff.mpr (.inr ⟨field, inside, Nat.le_refl _⟩)

theorem alignOf_dvd_of_leads (lists : layout.ListsOnly Nat.isPowerOfTwo)
    (leads : ty.Leads path member) : layout.alignOf member ∣ layout.alignOf ty := by
  induction leads with
  | here ty => exact Nat.dvd_refl _
  | element inside further ih => exact ih
  | field found further ih =>
    exact Nat.dvd_trans ih (alignOf_field_dvd lists (List.mem_of_getElem? found))

/-- However deep a member lies, its offset is a multiple of its own alignment, and it ends within
the whole. -/
theorem members_aligned (lists : layout.ListsOnly Nat.isPowerOfTwo)
    (leads : ty.Leads path member) :
    ∃ offset : Nat, layout.memberOffset? ty (path.map Nat.cast) = some (offset : Int) ∧
      layout.alignOf member ∣ offset ∧ offset + layout.sizeOf member ≤ layout.sizeOf ty := by
  induction leads with
  | here ty => exact ⟨0, rfl, Nat.dvd_zero _, Nat.le_of_eq (Nat.zero_add _)⟩
  | @element len index path element member inside further ih =>
    obtain ⟨offset, reached, aligned, holds⟩ := ih
    refine ⟨index * layout.sizeOf element + offset, ?_, ?_, ?_⟩
    · rw [List.map_cons, memberOffset?, reached]
      simp
    · refine Nat.dvd_add (Nat.dvd_mul_left_of_dvd ?_ _) aligned
      exact Nat.dvd_trans (alignOf_dvd_of_leads lists further) (layout.alignOf_dvd_sizeOf element)
    · change _ ≤ len.toNat * layout.sizeOf element
      have whole : (index + 1) * layout.sizeOf element ≤ len.toNat * layout.sizeOf element :=
        Nat.mul_le_mul_right _ inside
      rw [Nat.succ_mul] at whole
      omega
  | @field name fields index path field member found further ih =>
    obtain ⟨offset, reached, aligned, holds⟩ := ih
    obtain ⟨start, starts, fieldAligned, fieldHolds⟩ := layout.exists_fieldOffset name found
    refine ⟨start + offset, ?_, ?_, by omega⟩
    · have position : ((index : Nat) : Int).toNat? = some index := rfl
      rw [List.map_cons, memberOffset?, position]
      simp [found, starts, reached]
    · exact Nat.dvd_add (Nat.dvd_trans (alignOf_dvd_of_leads lists further) fieldAligned) aligned

/-- The second field of the last of three pairs, behind a byte. -/
theorem members_aligned_of_nested :
    x86_64.memberOffset?
        (.struct none [.int 8, .array 3 (.struct none [.int 32, .int 64] false)] false) [1, 2, 1] =
          some 48 ∧
      x86_64.alignOf (.int 64) ∣ 48 ∧
      48 + x86_64.sizeOf (.int 64) ≤ x86_64.sizeOf
        (.struct none [.int 8, .array 3 (.struct none [.int 32, .int 64] false)] false) := by
  have leads : Ty.Leads
      (.struct none [.int 8, .array 3 (.struct none [.int 32, .int 64] false)] false) [1, 2, 1]
      (.int 64) := .field rfl (.element (by decide) (.field rfl (.here _)))
  have placed : x86_64.memberOffset?
      (.struct none [.int 8, .array 3 (.struct none [.int 32, .int 64] false)] false) [1, 2, 1] =
        some 48 := by decide
  obtain ⟨offset, reached, aligned, inside⟩ := members_aligned x86_64_listsOnly leads
  obtain rfl : offset = 48 := Int.natCast_inj.mp (Option.some.inj (reached.symm.trans placed))
  exact ⟨placed, aligned, inside⟩

end DataLayout

end IrAssembly
