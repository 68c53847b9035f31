import IrAssembly.Proofs.Function.Coherence

/-! The instructions of a function as they are read, block after block. New blocks are empty, so the
sequence grows only where an instruction is appended, and it grows at its end if all blocks behind
that place are empty. -/

namespace IrAssembly.FunctionDef

/-- The instructions of the block with a handle, by their numbers. -/
def idsOf (function : FunctionDef) (ref : BlockRef) : List InstId :=
  (function.block? ref).elim [] Block.instructions

/-- The numbers of all instructions, in the order of the blocks. -/
def sequence (function : FunctionDef) : List InstId := function.order.flatMap function.idsOf

variable {function : FunctionDef}

theorem flatMap_orderedBlocks (function : FunctionDef) :
    function.orderedBlocks.flatMap Block.instructions = function.sequence := by
  rw [orderedBlocks, sequence]
  induction function.order with
  | nil => rfl
  | cons ref refs ih =>
    rw [List.flatMap_cons, ← ih, idsOf]
    cases found : function.block? ref <;> simp [found]

theorem idsOf_eq_getD (function : FunctionDef) (ref : BlockRef) :
    function.idsOf ref = ((function.blocks.map Block.instructions)[ref.id]?).getD [] := by
  rw [idsOf, block?, List.getElem?_map]
  cases function.blocks[ref.id]? <;> rfl

theorem idsOf_of_not_hasBlock {ref : BlockRef} (absent : ¬ function.HasBlock ref) :
    function.idsOf ref = [] := by
  rw [idsOf, block?, List.getElem?_eq_none (Nat.le_of_not_lt absent)]
  rfl

theorem idsOf_of_mem_freshRefs {count : Nat} {ref : BlockRef}
    (new : ref ∈ function.freshRefs count) : function.idsOf ref = [] := by
  obtain ⟨offset, found⟩ := List.getElem?_of_mem new
  obtain ⟨_, rfl⟩ := getElem?_freshRefs found
  exact idsOf_of_not_hasBlock (Nat.not_lt.mpr (Nat.le_add_right ..))

/-! Instructions of a block after a change -/

theorem idsOf_reserve (function : FunctionDef) (count : Nat) :
    (function.reserve count).idsOf = function.idsOf := by
  funext ref
  have lists := map_withEmptyBlocks Block.instructions (fun _ _ => rfl) function
    function.order.length (count - function.order.length)
  simp only [withEmptyBlocks] at lists
  rw [idsOf_eq_getD, idsOf_eq_getD]
  simp only [reserve, lists]
  exact getD_append_replicate ..

theorem idsOf_splice (function : FunctionDef) (position count : Nat) :
    (function.splice position count).2.idsOf = function.idsOf := by
  funext ref
  have lists := map_withEmptyBlocks Block.instructions (fun _ _ => rfl) function
    (min position function.order.length) count
  simp only [withEmptyBlocks] at lists
  rw [idsOf_eq_getD, idsOf_eq_getD]
  simp only [splice]
  rw [map_renumber Block.instructions (fun _ _ => rfl), lists]
  exact getD_append_replicate ..

theorem idsOf_nameBlock (function : FunctionDef) (ref : BlockRef) (name : Option String) :
    (function.nameBlock ref name).idsOf = function.idsOf := by
  funext other
  rw [idsOf_eq_getD, idsOf_eq_getD]
  simp only [nameBlock]
  rw [map_modify Block.instructions (by intro; rfl)]

theorem idsOf_push_self {target : BlockRef} (inArena : function.HasBlock target)
    (instruction : Instruction) : (function.push target instruction).2.idsOf target =
      function.idsOf target ++ [function.instructions.length] := by
  have inList : target.id < function.blocks.length := inArena
  simp [idsOf, block?, push, inList]

theorem idsOf_push_ne {target other : BlockRef} (differ : other ≠ target)
    (instruction : Instruction) :
    (function.push target instruction).2.idsOf other = function.idsOf other := by
  have ids : target.id ≠ other.id := fun same => differ (by cases other; cases target; simp_all)
  simp [idsOf, block?, push, List.getElem?_modify_ne _ _ ids]

/-! The sequence after a change -/

theorem sequence_reserve (function : FunctionDef) (count : Nat) :
    (function.reserve count).sequence = function.sequence := by
  have fresh : (function.freshRefs (count - function.order.length)).flatMap function.idsOf = [] :=
    List.flatMap_eq_nil_iff.mpr fun _ => idsOf_of_mem_freshRefs
  rw [sequence, idsOf_reserve]
  simp only [reserve]
  rw [List.flatMap_append, fresh, List.append_nil]
  rfl

theorem sequence_splice (function : FunctionDef) (position count : Nat) :
    (function.splice position count).2.sequence = function.sequence := by
  have fresh : (function.freshRefs count).flatMap function.idsOf = [] :=
    List.flatMap_eq_nil_iff.mpr fun _ => idsOf_of_mem_freshRefs
  rw [sequence, idsOf_splice]
  simp only [splice]
  rw [List.flatMap_append, List.flatMap_append, fresh, List.append_nil, ← List.flatMap_append,
    List.take_append_drop]
  rfl

/-- An instruction that is appended in front of nothing but empty blocks comes last. -/
theorem sequence_push (coherent : function.Coherent) {position : Nat} {target : BlockRef}
    (placed : function.order[position]? = some target)
    (empty : ∀ ref ∈ function.order.drop (position + 1), function.idsOf ref = [])
    (instruction : Instruction) : (function.push target instruction).2.sequence =
      function.sequence ++ [function.instructions.length] := by
  obtain ⟨bound, at_position⟩ := List.getElem?_eq_some_iff.mp placed
  have split : function.order =
      function.order.take position ++ target :: function.order.drop (position + 1) := by
    rw [← at_position, ← List.drop_eq_getElem_cons bound, List.take_append_drop]
  have distinct := coherent.order_nodup
  rw [split, List.nodup_middle, List.nodup_cons, List.mem_append, not_or] at distinct
  obtain ⟨⟨notFront, notBehind⟩, _⟩ := distinct
  -- only the list of the target changes
  have kept {refs : List BlockRef} (absent : target ∉ refs) :
      refs.flatMap (function.push target instruction).2.idsOf = refs.flatMap function.idsOf :=
    List.flatMap_congr fun ref member =>
      idsOf_push_ne (ne_of_mem_of_not_mem member absent) instruction
  have behind : (function.order.drop (position + 1)).flatMap function.idsOf = [] :=
    List.flatMap_eq_nil_iff.mpr empty
  have order : (function.push target instruction).2.order = function.order := rfl
  rw [sequence, order, sequence, split, List.flatMap_append, List.flatMap_append, List.flatMap_cons,
    List.flatMap_cons, kept notFront, kept notBehind, behind,
    idsOf_push_self (coherent.hasBlock_of_order placed), List.append_nil, List.append_nil,
    List.append_assoc]

end IrAssembly.FunctionDef
