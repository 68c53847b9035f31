import IrAssembly.Proofs.Function.Typing
import IrAssembly.Proofs.Wire.Ty
import IrAssembly.Wire.Instruction

/-! Instructions are read back from their interchange form. -/

namespace IrAssembly

/-- Handles of blocks are half a machine word. -/
def BlockRef.Fits (ref : BlockRef) : Prop := ref.id < 2 ^ 32

instance : DecidablePred BlockRef.Fits := fun ref =>
  inferInstanceAs (Decidable (ref.id < 2 ^ 32))

/-- All operands and blocks of the instruction have numbers that can be held. -/
structure Instruction.Fits (instruction : Instruction) : Prop where
  operands : ∀ index ∈ instruction.operands, IsWord index
  blocks : ∀ ref ∈ instruction.blocks, ref.Fits

namespace Reading

variable {bound depth : Nat}

/-! Parts of instructions -/

theorem operand_nat {index : SymbolIndex} (small : IsWord index) (depth : Nat) :
    operand depth (some (.nat index)) = some index :=
  index_nat small depth

theorem successor_toJson {ref : BlockRef} (fits : ref.Fits) (depth : Nat) :
    successor depth (some ref.toJson) = some ref := by
  rw [successor, required_some, blockRef, BlockRef.toJson, below_nat fits]
  rfl

theorem blockRef_recovers {ref : BlockRef} (fits : ref.Fits) :
    Recovers bound blockRef ref.toJson ref :=
  fun depth _ _ => successor_toJson fits depth

theorem words_recovers {words : List Nat} (small : ∀ word ∈ words, IsWord word) :
    Recovers bound (list index) (.list .nat words) words :=
  .list fun word member depth _ _ => index_nat (small word member) depth

theorem operands_json {indices : List SymbolIndex} (small : ∀ index ∈ indices, IsWord index)
    (nests : (operandsJson indices).nesting ≤ depth) :
    operands depth (some (operandsJson indices)) = some indices :=
  words_recovers small depth (Nat.le_refl _) nests

theorem arms_json {α : Type} {key : Reading α} {write : α → Json} {given : List (α × BlockRef)}
    (keys : ∀ arm ∈ given, ∀ depth, key depth (write arm.1) = some arm.1)
    (fits : ∀ arm ∈ given, arm.2.Fits) (nests : (armsJson write given).nesting ≤ depth) :
    arms key depth (some (armsJson write given)) = some given := by
  have each : ∀ arm ∈ given, Recovers depth (pair key blockRef)
      (.arr [write arm.1, arm.2.toJson]) arm :=
    fun arm member => .pair (fun depth _ _ => keys arm member depth)
      (blockRef_recovers (fits arm member))
  exact Recovers.list each depth (Nat.le_refl _) nests

theorem memoryAccess_recovers (bound : Nat) (access : MemoryAccess) :
    Recovers bound memoryAccess access.toJson access := by
  intro depth le nests
  obtain ⟨inner, innerLe, within, found⟩ := fields_record le nests (by simp)
  simp only [List.map_cons, List.map_nil] at found
  simp [memoryAccess, MemoryAccess.toJson, found]

theorem resultFields_record {result : ResultSlot} {members : List (String × Json)}
    (le : depth ≤ bound)
    (nests : (Json.record (("result", .text result.name) ::
      ("result_type", result.ty.toJson) :: members)).nesting ≤ depth)
    (distinct : ("result" :: "result_type" :: members.map Prod.fst).Nodup) :
    ∃ inner ≤ bound, (∀ member ∈ members, member.2.nesting ≤ inner) ∧
      resultFields (members.map Prod.fst) depth
        (.record (("result", .text result.name) :: ("result_type", result.ty.toJson) :: members)) =
        some (result, inner, members.map fun member => some member.2) := by
  obtain ⟨inner, innerLe, within, found⟩ := fields_record le nests distinct
  simp only [List.map_cons, List.forall_mem_cons] at within found
  have given := ty_recovers bound result.ty inner innerLe within.2.1
  refine ⟨inner, innerLe, within.2.2, ?_⟩
  simp [resultFields, resultSlot, found, given]

/-! Variants -/

/-- An instruction with a result is recovered if the fields behind the result are. -/
theorem resultJson_recovers {name : String} {result : ResultSlot} {members : List (String × Json)}
    {given : Instruction} (other : name ≠ "Unreachable")
    (distinct : ("result" :: "result_type" :: members.map Prod.fst).Nodup)
    (reads : ∀ depth inner json, (∀ member ∈ members, member.2.nesting ≤ inner) →
      resultFields (members.map Prod.fst) depth json =
        some (result, inner, members.map fun member => some member.2) →
      resultInstruction name depth json = some given) :
    Recovers bound instruction (Instruction.resultJson name result members) given := by
  intro depth le nests
  obtain ⟨outer, rfl, within, found⟩ := variant_tagged nests
  obtain ⟨inner, _, inside, fieldsRead⟩ :=
    resultFields_record (Nat.le_refl outer) within distinct
  have read := reads outer inner _ inside fieldsRead
  simp [instruction, Instruction.resultJson, found, other, Payload.read, read]

/-- An instruction without a result is recovered if its fields are. -/
theorem effectJson_recovers {name : String} {members : List (String × Json)}
    {given : Instruction} (other : name ≠ "Unreachable")
    (silent : ∀ depth json, resultInstruction name depth json = none)
    (distinct : (members.map Prod.fst).Nodup)
    (reads : ∀ depth inner json, (∀ member ∈ members, member.2.nesting ≤ inner) →
      fields (members.map Prod.fst) depth json =
        some (inner, members.map fun member => some member.2) →
      effectInstruction name depth json = some given) :
    Recovers bound instruction (.tagged name (.record members)) given := by
  intro depth le nests
  obtain ⟨outer, rfl, within, found⟩ := variant_tagged nests
  obtain ⟨inner, _, inside, fieldsRead⟩ := fields_record (Nat.le_refl outer) within distinct
  have read := reads outer inner _ inside fieldsRead
  simp [instruction, found, other, Payload.read, silent, read]

theorem instruction_recovers {given : Instruction} (fits : given.Fits) :
    Recovers bound instruction given.toJson given := by
  obtain ⟨operands, blocks⟩ := fits
  cases given with
  | allocate result allocated count align =>
    simp only [Instruction.operands, List.forall_mem_cons] at operands
    refine resultJson_recovers (by decide) (by simp) fun depth inner json within found => ?_
    simp only [List.map_cons, List.map_nil, List.forall_mem_cons] at within found
    have given := ty_recovers inner allocated inner (Nat.le_refl _) within.1
    simp [resultInstruction, found, given, operand_nat operands.1]
  | load result source access =>
    simp only [Instruction.operands, List.forall_mem_cons] at operands
    refine resultJson_recovers (by decide) (by simp) fun depth inner json within found => ?_
    simp only [List.map_cons, List.map_nil, List.forall_mem_cons] at within found
    have accessRead := memoryAccess_recovers inner access inner (Nat.le_refl _) within.2.1
    simp [resultInstruction, found, accessRead, operand_nat operands.1]
  | store destination source access =>
    simp only [Instruction.operands, List.forall_mem_cons] at operands
    refine effectJson_recovers (by decide) (fun _ _ => rfl) (by simp)
      fun depth inner json within found => ?_
    simp only [List.map_cons, List.map_nil, List.forall_mem_cons] at within found
    have accessRead := memoryAccess_recovers inner access inner (Nat.le_refl _) within.2.2.1
    simp [effectInstruction, found, accessRead, operand_nat operands.1, operand_nat operands.2.1]
  | binary result operator flags lhs rhs =>
    simp only [Instruction.operands, List.forall_mem_cons] at operands
    refine resultJson_recovers (by decide) (by simp) fun depth inner json within found => ?_
    simp only [List.map_cons, List.map_nil, List.forall_mem_cons] at within found
    have flagsRead : list binaryFlag inner (.list (fun flag => .text flag.wireName) flags) =
        some flags :=
      Recovers.list (fun flag _ depth _ _ => binaryFlag_wireName depth flag) inner (Nat.le_refl _)
        within.2.1
    simp [resultInstruction, found, flagsRead, operand_nat operands.1, operand_nat operands.2.1]
  | compare result operator lhs rhs =>
    simp only [Instruction.operands, List.forall_mem_cons] at operands
    refine resultJson_recovers (by decide) (by simp) fun depth inner json within found => ?_
    simp only [List.map_cons, List.map_nil] at found
    simp [resultInstruction, found, operand_nat operands.1, operand_nat operands.2.1]
  | cast result operator value =>
    simp only [Instruction.operands, List.forall_mem_cons] at operands
    refine resultJson_recovers (by decide) (by simp) fun depth inner json within found => ?_
    simp only [List.map_cons, List.map_nil] at found
    simp [resultInstruction, found, operand_nat operands.1]
  | call result target arguments =>
    simp only [Instruction.operands, List.forall_mem_cons] at operands
    refine resultJson_recovers (by decide) (by simp) fun depth inner json within found => ?_
    simp only [List.map_cons, List.map_nil, List.forall_mem_cons] at within found
    simp [resultInstruction, found, operand_nat operands.1, operands_json operands.2 within.2.1]
  | voidCall target arguments =>
    simp only [Instruction.operands, List.forall_mem_cons] at operands
    refine effectJson_recovers (by decide) (fun _ _ => rfl) (by simp)
      fun depth inner json within found => ?_
    simp only [List.map_cons, List.map_nil, List.forall_mem_cons] at within found
    simp [effectInstruction, found, operand_nat operands.1, operands_json operands.2 within.2.1]
  | branch target =>
    simp only [Instruction.blocks, Instruction.successors, List.forall_mem_cons] at blocks
    refine effectJson_recovers (by decide) (fun _ _ => rfl) (by simp)
      fun depth inner json within found => ?_
    simp only [List.map_cons, List.map_nil] at found
    simp [effectInstruction, found, successor_toJson blocks.1]
  | conditionalBranch condition onTrue onFalse =>
    simp only [Instruction.operands, List.forall_mem_cons] at operands
    simp only [Instruction.blocks, Instruction.successors, List.forall_mem_cons] at blocks
    refine effectJson_recovers (by decide) (fun _ _ => rfl) (by simp)
      fun depth inner json within found => ?_
    simp only [List.map_cons, List.map_nil] at found
    simp [effectInstruction, found, operand_nat operands.1, successor_toJson blocks.1,
      successor_toJson blocks.2.1]
  | indirectBranch address successors =>
    simp only [Instruction.operands, List.forall_mem_cons] at operands
    simp only [Instruction.blocks, Instruction.successors] at blocks
    refine effectJson_recovers (by decide) (fun _ _ => rfl) (by simp)
      fun depth inner json within found => ?_
    simp only [List.map_cons, List.map_nil, List.forall_mem_cons] at within found
    have blocksRead := Recovers.list (fun ref member => blockRef_recovers (blocks ref member)) inner
      (Nat.le_refl _) within.2.1
    simp [effectInstruction, found, operand_nat operands.1, blocksRead]
  | switch condition default cases =>
    simp only [Instruction.operands, List.forall_mem_cons] at operands
    simp only [Instruction.blocks, Instruction.successors, List.forall_mem_cons] at blocks
    simp only [List.forall_mem_map] at operands blocks
    refine effectJson_recovers (by decide) (fun _ _ => rfl) (by simp)
      fun depth inner json within found => ?_
    simp only [List.map_cons, List.map_nil, List.forall_mem_cons] at within found
    have casesRead := arms_json (fun arm member => index_nat (operands.2 arm member)) blocks.2
      within.2.2.1
    simp [effectInstruction, found, operand_nat operands.1, successor_toJson blocks.1, casesRead]
  | literalSwitch condition default cases =>
    simp only [Instruction.operands, List.forall_mem_cons] at operands
    simp only [Instruction.blocks, Instruction.successors, List.forall_mem_cons] at blocks
    simp only [List.forall_mem_map] at blocks
    refine effectJson_recovers (by decide) (fun _ _ => rfl) (by simp)
      fun depth inner json within found => ?_
    simp only [List.map_cons, List.map_nil, List.forall_mem_cons] at within found
    have casesRead := arms_json (fun arm _ depth => int64_integer depth arm.1) blocks.2
      within.2.2.1
    simp [effectInstruction, found, operand_nat operands.1, successor_toJson blocks.1, casesRead]
  | phi result incoming =>
    simp only [Instruction.operands, List.forall_mem_map] at operands
    simp only [Instruction.blocks, List.forall_mem_map] at blocks
    refine resultJson_recovers (by decide) (by simp) fun depth inner json within found => ?_
    simp only [List.map_cons, List.map_nil, List.forall_mem_cons] at within found
    have incomingRead := arms_json (fun arm member => index_nat (operands arm member)) blocks
      within.1
    simp [resultInstruction, found, incomingRead]
  | elementPointer result base indices inbounds =>
    simp only [Instruction.operands, List.forall_mem_cons] at operands
    refine resultJson_recovers (by decide) (by simp) fun depth inner json within found => ?_
    simp only [List.map_cons, List.map_nil, List.forall_mem_cons] at within found
    simp [resultInstruction, found, operand_nat operands.1, operands_json operands.2 within.2.1]
  | extractElement result vector index =>
    simp only [Instruction.operands, List.forall_mem_cons] at operands
    refine resultJson_recovers (by decide) (by simp) fun depth inner json within found => ?_
    simp only [List.map_cons, List.map_nil] at found
    simp [resultInstruction, found, operand_nat operands.1, operand_nat operands.2.1]
  | insertElement result vector value index =>
    simp only [Instruction.operands, List.forall_mem_cons] at operands
    refine resultJson_recovers (by decide) (by simp) fun depth inner json within found => ?_
    simp only [List.map_cons, List.map_nil] at found
    simp [resultInstruction, found, operand_nat operands.1, operand_nat operands.2.1,
      operand_nat operands.2.2.1]
  | extractValue result aggregate index =>
    simp only [Instruction.operands, List.forall_mem_cons] at operands
    refine resultJson_recovers (by decide) (by simp) fun depth inner json within found => ?_
    simp only [List.map_cons, List.map_nil] at found
    simp [resultInstruction, found, operand_nat operands.1]
  | insertValue result aggregate value index =>
    simp only [Instruction.operands, List.forall_mem_cons] at operands
    refine resultJson_recovers (by decide) (by simp) fun depth inner json within found => ?_
    simp only [List.map_cons, List.map_nil] at found
    simp [resultInstruction, found, operand_nat operands.1, operand_nat operands.2.1]
  | select result condition onTrue onFalse =>
    simp only [Instruction.operands, List.forall_mem_cons] at operands
    refine resultJson_recovers (by decide) (by simp) fun depth inner json within found => ?_
    simp only [List.map_cons, List.map_nil] at found
    simp [resultInstruction, found, operand_nat operands.1, operand_nat operands.2.1,
      operand_nat operands.2.2.1]
  | shuffleVector result first second mask =>
    simp only [Instruction.operands, List.forall_mem_cons] at operands
    refine resultJson_recovers (by decide) (by simp) fun depth inner json within found => ?_
    simp only [List.map_cons, List.map_nil] at found
    simp [resultInstruction, found, operand_nat operands.1, operand_nat operands.2.1,
      operand_nat operands.2.2.1]
  | ret value =>
    simp only [Instruction.operands, Option.mem_toList] at operands
    refine effectJson_recovers (by decide) (fun _ _ => rfl) (by simp)
      fun depth inner json within found => ?_
    simp only [List.map_cons, List.map_nil, List.forall_mem_cons] at within found
    have valueRead := Recovers.option (fun index member depth _ _ =>
      index_nat (operands index member) depth) (fun _ same => by cases same) inner (Nat.le_refl _)
      within.1
    simp [effectInstruction, found, valueRead]
  | unreachable =>
    intro depth _ _
    simp [instruction, Instruction.toJson, Payload.isUnit]

end Reading

end IrAssembly
