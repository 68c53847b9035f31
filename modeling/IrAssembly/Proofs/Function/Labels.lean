import IrAssembly.Proofs.Function.Coherence

/-! The labels of the blocks, read by position. New blocks have none, and a block keeps its label
wherever it is moved to, so each change of a function says which position a label comes from. -/

namespace IrAssembly.FunctionDef

/-- The label of a block, if it is there and has one. -/
def labelOf (function : FunctionDef) (ref : BlockRef) : Option String :=
  (function.block? ref).bind Block.name

/-- The label of the block at a position. -/
def labelAt (function : FunctionDef) (position : Nat) : Option String :=
  (function.order[position]?).bind function.labelOf

variable {function : FunctionDef}

theorem labelOf_eq_getD (function : FunctionDef) (ref : BlockRef) :
    function.labelOf ref = ((function.blocks.map Block.name)[ref.id]?).getD none := by
  rw [labelOf, block?, List.getElem?_map]
  cases function.blocks[ref.id]? <;> rfl

theorem labelOf_of_not_hasBlock {ref : BlockRef} (absent : ¬ function.HasBlock ref) :
    function.labelOf ref = none := by
  rw [labelOf, block?, List.getElem?_eq_none (Nat.le_of_not_lt absent)]
  rfl

/-! Positions -/

theorem Coherent.indexOf_of_order (coherent : function.Coherent) {position : Nat} {ref : BlockRef}
    (placed : function.order[position]? = some ref) : function.indexOf ref = position := by
  obtain ⟨block, found, index⟩ := coherent.positions position ref placed
  simp [indexOf, found, index]

/-- A block of the arena stands at its position. -/
theorem Coherent.order_indexOf (coherent : function.Coherent) {ref : BlockRef}
    (inArena : function.HasBlock ref) : function.order[function.indexOf ref]? = some ref := by
  obtain ⟨position, placed⟩ := List.getElem?_of_mem ((coherent.mem_order_iff ref).mpr inArena)
  rw [coherent.indexOf_of_order placed]
  exact placed

/-- Where no block is, there is no label. -/
theorem labelAt_of_length_le {position : Nat} (beyond : function.order.length ≤ position) :
    function.labelAt position = none := by
  rw [labelAt, List.getElem?_eq_none beyond]
  rfl

theorem labelAt_of_order {position : Nat} {ref : BlockRef}
    (placed : function.order[position]? = some ref) :
    function.labelAt position = function.labelOf ref := by
  rw [labelAt, placed]
  rfl

/-! Changes -/

@[simp] theorem labelOf_push (function : FunctionDef) (target : BlockRef)
    (instruction : Instruction) (ref : BlockRef) :
    (function.push target instruction).2.labelOf ref = function.labelOf ref := by
  rw [labelOf_eq_getD, labelOf_eq_getD]
  simp only [push]
  rw [map_modify Block.name (by intro; rfl)]

@[simp] theorem labelAt_push (function : FunctionDef) (target : BlockRef)
    (instruction : Instruction) (position : Nat) :
    (function.push target instruction).2.labelAt position = function.labelAt position := by
  simp only [labelAt]
  exact congrArg _ (funext (labelOf_push function target instruction))

theorem labelOf_reserve (function : FunctionDef) (count : Nat) (ref : BlockRef) :
    (function.reserve count).labelOf ref = function.labelOf ref := by
  rw [labelOf_eq_getD, labelOf_eq_getD]
  have names := map_withEmptyBlocks Block.name (fun _ _ => rfl) function
    function.order.length (count - function.order.length)
  simp only [withEmptyBlocks] at names
  simp only [reserve, names]
  exact getD_append_replicate ..

theorem labelOf_splice (function : FunctionDef) (position count : Nat) (ref : BlockRef) :
    (function.splice position count).2.labelOf ref = function.labelOf ref := by
  rw [labelOf_eq_getD, labelOf_eq_getD]
  have names := map_withEmptyBlocks Block.name (fun _ _ => rfl) function
    (min position function.order.length) count
  simp only [withEmptyBlocks] at names
  simp only [splice]
  rw [map_renumber Block.name (fun _ _ => rfl), names]
  exact getD_append_replicate ..

theorem labelOf_freshRefs {count offset : Nat} {ref : BlockRef}
    (new : (function.freshRefs count)[offset]? = some ref) : function.labelOf ref = none := by
  obtain ⟨_, rfl⟩ := getElem?_freshRefs new
  exact labelOf_of_not_hasBlock (Nat.not_lt.mpr (Nat.le_add_right ..))

@[simp] theorem labelAt_reserve (function : FunctionDef) (count position : Nat) :
    (function.reserve count).labelAt position = function.labelAt position := by
  cases placed : (function.reserve count).order[position]? with
  | none =>
    have beyond := List.getElem?_eq_none_iff.mp placed
    have longer : function.order.length ≤ (function.reserve count).order.length := by
      simp [reserve]
    rw [labelAt_of_length_le beyond, labelAt_of_length_le (longer.trans beyond)]
  | some ref =>
    rw [labelAt_of_order placed, labelOf_reserve]
    rcases getElem?_append_cases placed with old | ⟨offset, rfl, new⟩
    · rw [labelAt_of_order old]
    · rw [labelOf_freshRefs new, labelAt_of_length_le (Nat.le_add_right ..)]

/-- Inserted blocks have no label, and the ones behind them take theirs along. -/
theorem labelAt_splice {start count : Nat} (bound : start ≤ function.order.length)
    (position : Nat) :
    (function.splice start count).2.labelAt position =
      if position < start then function.labelAt position
      else if position < start + count then none
      else function.labelAt (position - count) := by
  have front : (function.order.take start).length = start := List.length_take_of_le bound
  have order : (function.splice start count).2.order =
      function.order.take start ++ (function.freshRefs count ++ function.order.drop start) := by
    simp [splice, Nat.min_eq_left bound]
  have labels : (function.splice start count).2.labelOf = function.labelOf :=
    funext (labelOf_splice function start count)
  rw [labelAt, order, labels]
  by_cases kept : position < start
  · rw [if_pos kept, List.getElem?_append_left (front.symm ▸ kept), List.getElem?_take_of_lt kept]
    rfl
  · rw [if_neg kept, List.getElem?_append_right (by omega), front]
    by_cases new : position < start + count
    · have bounded : position - start < count := by omega
      rw [if_pos new, List.getElem?_append_left (by simpa using bounded),
        getElem?_freshRefs_of_lt bounded]
      exact labelOf_freshRefs (getElem?_freshRefs_of_lt bounded)
    · have offset : start + (position - start - count) = position - count := by omega
      rw [if_neg new, List.getElem?_append_right (by simp; omega), length_freshRefs,
        List.getElem?_drop, offset]
      rfl

theorem labelOf_nameBlock {ref : BlockRef} (inArena : function.HasBlock ref)
    (name : Option String) (other : BlockRef) :
    (function.nameBlock ref name).labelOf other =
      if other = ref then name else function.labelOf other := by
  have inList : ref.id < function.blocks.length := inArena
  simp only [labelOf, block?, nameBlock, List.getElem?_modify]
  by_cases same : other = ref
  · simp [same, List.getElem?_eq_getElem inList]
  · have differ : ref.id ≠ other.id := fun ids => same (by cases other; cases ref; simp_all)
    simp [same, differ]

/-- Labelling the block at a position concerns that position only. -/
theorem labelAt_nameBlock (coherent : function.Coherent) {position : Nat} {ref : BlockRef}
    (placed : function.order[position]? = some ref) (name : Option String) (other : Nat) :
    (function.nameBlock ref name).labelAt other =
      if other = position then name else function.labelAt other := by
  have inArena := coherent.hasBlock_of_order placed
  have order : (function.nameBlock ref name).order = function.order := rfl
  rw [labelAt, order]
  by_cases same : other = position
  · rw [if_pos same, same, placed, Option.bind_some, labelOf_nameBlock inArena, if_pos rfl]
  · rw [if_neg same, labelAt]
    cases found : function.order[other]? with
    | none => rfl
    | some stranger =>
      have differ : stranger ≠ ref := by
        intro equal
        subst equal
        exact same ((coherent.indexOf_of_order found).symm.trans (coherent.indexOf_of_order placed))
      rw [Option.bind_some, Option.bind_some, labelOf_nameBlock inArena, if_neg differ]

end IrAssembly.FunctionDef
