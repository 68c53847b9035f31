import IrAssembly.Proofs.Layout.Placement

/-! Sizes and alignments under the default layout. -/

namespace IrAssembly

namespace DataLayout

theorem x86_64_listsOnly : x86_64.ListsOnly Nat.isPowerOfTwo := by
  have floats : ∀ entry ∈ x86_64.floats, (abiBytes entry.abi).isPowerOfTwo := by decide
  exact ⟨by decide, by decide, by decide, fun entry member _ _ => floats entry member, by decide⟩

theorem x86_64_power (ty : Ty) : (x86_64.alignOf ty).isPowerOfTwo :=
  x86_64_listsOnly.extent (fun _ power => power) ty

/-- No integer is aligned to more than a register. -/
theorem x86_64_integerAlign_dvd (bits : UInt32) : x86_64.integerAlign bits ∣ 8 := by
  have listed : ∀ entry ∈ x86_64.integers, abiBytes entry.abi ∣ 8 := by decide
  unfold integerAlign
  extract_lets exact wider
  split
  · rename_i entry found
    apply listed
    rcases (Option.orElse_eq_some ..).mp found with own | ⟨_, other⟩
    · exact List.mem_of_find?_eq_some own
    · rcases (Option.orElse_eq_some ..).mp other with next | ⟨_, last⟩
      · exact List.mem_of_find?_eq_some next
      · exact List.mem_of_getLast? last
  · rename_i none
    have last : x86_64.integers.getLast? = some ⟨64, 64, 64⟩ := rfl
    simp [last] at none

theorem x86_64_sizeOf_int_le_iff (bits : UInt32) :
    x86_64.sizeOf (.int bits) ≤ 8 ↔ bits.toNat ≤ 64 := by
  change roundUp (bytesFor bits.toNat) (x86_64.integerAlign bits) ≤ 8 ↔ _
  constructor
  · intro fits
    have le := Nat.le_trans (le_roundUp ..) fits
    unfold bytesFor at le
    omega
  · intro narrow
    refine roundUp_le_of_dvd (x86_64_integerAlign_dvd bits) ?_
    unfold bytesFor
    omega

end DataLayout

end IrAssembly
