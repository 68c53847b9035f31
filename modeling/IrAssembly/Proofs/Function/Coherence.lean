import IrAssembly.Function.Basic
import Mathlib.Data.List.Perm.Basic
import Mathlib.Data.List.Nodup
import Mathlib.Data.List.Range

/-! The arenas and the block order of a function definition agree after every change of the
function: the order lists each block of the arena once, handles and positions match, and every
instruction stands in exactly one block. -/

namespace IrAssembly

/-- Whether a handle names a block of the arena. -/
def FunctionDef.HasBlock (function : FunctionDef) (ref : BlockRef) : Prop :=
  ref.id < function.blocks.length

structure FunctionDef.Coherent (function : FunctionDef) : Prop where
  /-- The order is a permutation of all handles. -/
  order : function.order.Perm ((List.range function.blocks.length).map BlockRef.mk)
  /-- A block carries its own place in the arena as its handle. -/
  ids : ∀ (id : Nat) (block : Block), function.blocks[id]? = some block → block.id = ⟨id⟩
  /-- A block carries its position in the order. -/
  positions : ∀ (position : Nat) (ref : BlockRef), function.order[position]? = some ref →
    ∃ block, function.block? ref = some block ∧ block.index = position
  increasing : ∀ block ∈ function.blocks, block.instructions.Pairwise (· < ·)
  /-- The blocks together hold every instruction of the arena once. -/
  instructions : (function.blocks.flatMap Block.instructions).Perm
    (List.range function.instructions.length)
  parameters : ∀ (index : Nat) (parameter : Parameter),
    function.parameters[index]? = some parameter → parameter.index = index

namespace FunctionDef

variable {function : FunctionDef}

theorem Coherent.fresh (name : String) (signature : Signature) :
    Coherent { name := name, signature := signature } := by
  constructor <;> simp

namespace Coherent

theorem mem_order_iff (coherent : function.Coherent) (ref : BlockRef) :
    ref ∈ function.order ↔ function.HasBlock ref := by
  rw [coherent.order.mem_iff, HasBlock]
  constructor
  · intro listed
    obtain ⟨id, inRange, same⟩ := List.mem_map.mp listed
    subst same
    exact List.mem_range.mp inRange
  · intro inArena
    exact List.mem_map.mpr ⟨ref.id, List.mem_range.mpr inArena, rfl⟩

theorem order_nodup (coherent : function.Coherent) : function.order.Nodup := by
  rw [coherent.order.nodup_iff]
  refine List.Nodup.map ?_ List.nodup_range
  intro first second same
  exact congrArg BlockRef.id same

theorem hasBlock_of_order (coherent : function.Coherent) {position : Nat} {ref : BlockRef}
    (placed : function.order[position]? = some ref) : function.HasBlock ref :=
  (coherent.mem_order_iff ref).mp (List.mem_of_getElem? placed)

/-- The block that is found at a position of the order is there. -/
theorem placed (coherent : function.Coherent) {position : Nat}
    (bound : position < function.order.length) :
    function.HasBlock ((function.refAt? position).getD ⟨0⟩) := by
  have found : (function.refAt? position).getD ⟨0⟩ = function.order[position] := by
    simp [refAt?, bound]
  rw [found]
  exact (coherent.mem_order_iff _).mp (List.getElem_mem bound)

theorem instruction_lt (coherent : function.Coherent) {block : Block} {id : InstId}
    (held : block ∈ function.blocks) (member : id ∈ block.instructions) :
    id < function.instructions.length := by
  have listed : id ∈ function.blocks.flatMap Block.instructions :=
    List.mem_flatMap.mpr ⟨block, held, member⟩
  exact List.mem_range.mp (coherent.instructions.mem_iff.mp listed)

end Coherent

/-- Register several operands from left to right. -/
def withSymbols (function : FunctionDef) (values : List Value) : FunctionDef :=
  { function with symbols := function.symbols ++ values }

theorem withSymbols_withSymbols (function : FunctionDef) (first second : List Value) :
    (function.withSymbols first).withSymbols second = function.withSymbols (first ++ second) := by
  simp [withSymbols]

@[simp] theorem withSymbols_nil (function : FunctionDef) : function.withSymbols [] = function := by
  simp [withSymbols]

/-! New blocks -/

theorem lt_length_order_reserve {count position : Nat} (bound : position < count) :
    position < (function.reserve count).order.length := by
  simp only [reserve, List.length_append, freshRefs, List.length_map, List.length_range']
  omega

@[simp] theorem length_freshRefs (function : FunctionDef) (count : Nat) :
    (function.freshRefs count).length = count := by
  simp [freshRefs]

@[simp] theorem length_emptyBlocks (refs : List BlockRef) (position : Nat) :
    (emptyBlocks refs position).length = refs.length := by
  simp [emptyBlocks]

theorem getElem?_freshRefs {count offset : Nat} {ref : BlockRef}
    (found : (function.freshRefs count)[offset]? = some ref) :
    offset < count ∧ ref = ⟨function.blocks.length + offset⟩ := by
  have bound : offset < count := by
    simpa using (List.getElem?_eq_some_iff.mp found).1
  simp only [freshRefs, List.getElem?_map, List.getElem?_range' bound, Option.map_some,
    Option.some.injEq, Nat.one_mul] at found
  exact ⟨bound, found.symm⟩

theorem getElem?_freshRefs_of_lt {count offset : Nat} (bound : offset < count) :
    (function.freshRefs count)[offset]? = some ⟨function.blocks.length + offset⟩ := by
  simp [freshRefs, List.getElem?_range' bound]

/-- The arena with new empty blocks behind the old ones. -/
def withEmptyBlocks (function : FunctionDef) (position count : Nat) : List Block :=
  function.blocks ++ emptyBlocks (function.freshRefs count) position

theorem getElem?_withEmptyBlocks_old {position count id : Nat}
    (old : id < function.blocks.length) :
    (function.withEmptyBlocks position count)[id]? = function.blocks[id]? := by
  rw [withEmptyBlocks, List.getElem?_append_left old]

theorem getElem?_withEmptyBlocks_new {position count offset : Nat} (bound : offset < count) :
    (function.withEmptyBlocks position count)[function.blocks.length + offset]? =
      some ⟨⟨function.blocks.length + offset⟩, position + offset, none, []⟩ := by
  rw [withEmptyBlocks, List.getElem?_append_right (Nat.le_add_right ..)]
  simp [emptyBlocks, getElem?_freshRefs_of_lt bound]

theorem mem_withEmptyBlocks {position count : Nat} {block : Block}
    (member : block ∈ function.withEmptyBlocks position count) :
    block ∈ function.blocks ∨ block.instructions = [] := by
  rcases List.mem_append.mp member with old | new
  · exact .inl old
  · obtain ⟨offset, bound, same⟩ := List.mem_mapIdx.mp new
    exact .inr (same ▸ rfl)

theorem flatMap_withEmptyBlocks (function : FunctionDef) (position count : Nat) :
    (function.withEmptyBlocks position count).flatMap Block.instructions =
      function.blocks.flatMap Block.instructions := by
  have none :
      (emptyBlocks (function.freshRefs count) position).flatMap Block.instructions = [] := by
    apply List.flatMap_eq_nil_iff.mpr
    intro block member
    obtain ⟨offset, bound, same⟩ := List.mem_mapIdx.mp member
    exact same ▸ rfl
  rw [withEmptyBlocks, List.flatMap_append, none, List.append_nil]

/-- New blocks are blank in every respect but handle and position. -/
theorem map_withEmptyBlocks {α : Type} (view : Block → α) {blank : α}
    (new : ∀ id index, view ⟨id, index, none, []⟩ = blank) (function : FunctionDef)
    (position count : Nat) : (function.withEmptyBlocks position count).map view =
      function.blocks.map view ++ List.replicate count blank := by
  rw [withEmptyBlocks, List.map_append]
  congr 1
  apply List.ext_getElem
  · simp
  · intro offset _ _
    simp [emptyBlocks, new]

/-- Blank entries at the end read like entries that are not there. -/
theorem getD_append_replicate {α : Type} {entries : List α} {blank : α} (count index : Nat) :
    ((entries ++ List.replicate count blank)[index]?).getD blank =
      (entries[index]?).getD blank := by
  by_cases old : index < entries.length
  · rw [List.getElem?_append_left old]
  · have beyond : entries.length ≤ index := Nat.le_of_not_lt old
    rw [List.getElem?_append_right beyond, List.getElem?_eq_none beyond, List.getElem?_replicate]
    split <;> rfl

theorem ids_withEmptyBlocks (coherent : function.Coherent) {position count id : Nat} {block : Block}
    (found : (function.withEmptyBlocks position count)[id]? = some block) : block.id = ⟨id⟩ := by
  by_cases old : id < function.blocks.length
  · rw [getElem?_withEmptyBlocks_old old] at found
    exact coherent.ids id block found
  · have bound : id < function.blocks.length + count := by
      simpa [withEmptyBlocks] using (List.getElem?_eq_some_iff.mp found).1
    obtain ⟨offset, rfl⟩ := Nat.exists_eq_add_of_le (Nat.le_of_not_lt old)
    rw [getElem?_withEmptyBlocks_new (by omega)] at found
    cases found
    rfl

/-- Old and new handles together are the handles of the grown arena. -/
theorem perm_withEmptyBlocks (coherent : function.Coherent) (position count : Nat) :
    (function.order ++ function.freshRefs count).Perm
      ((List.range (function.withEmptyBlocks position count).length).map BlockRef.mk) := by
  have length : (function.withEmptyBlocks position count).length =
      function.blocks.length + count := by
    simp [withEmptyBlocks]
  rw [length, List.range_eq_range', ← List.range'_append_1, List.map_append]
  refine List.Perm.append ?_ ?_
  · simpa [List.range_eq_range'] using coherent.order
  · simp [freshRefs]

/-! Renumbering -/

theorem map_modify {α : Type} (view : Block → α) {change : Block → Block}
    (blind : ∀ block, view (change block) = view block) (blocks : List Block) (id : Nat) :
    (blocks.modify id change).map view = blocks.map view := by
  apply List.ext_getElem?
  intro other
  simp only [List.getElem?_map, List.getElem?_modify]
  split
  · simp [Function.comp_def, blind]
  · simp

theorem renumber_of_not_mem {refs : List BlockRef} {id : Nat} (absent : ⟨id⟩ ∉ refs)
    (position : Nat) (blocks : List Block) :
    (renumber refs position blocks)[id]? = blocks[id]? := by
  induction refs generalizing position blocks with
  | nil => rfl
  | cons ref refs ih =>
    rw [List.mem_cons, not_or] at absent
    have other : ref.id ≠ id := fun same => absent.1 (same ▸ rfl)
    rw [renumber, ih absent.2, List.getElem?_modify_ne _ _ other]

theorem renumber_of_mem {refs : List BlockRef} (distinct : refs.Nodup) {offset id : Nat}
    (found : refs[offset]? = some ⟨id⟩) (position : Nat) (blocks : List Block) :
    (renumber refs position blocks)[id]? =
      blocks[id]?.map fun block => { block with index := position + offset } := by
  induction refs generalizing offset position blocks with
  | nil => simp at found
  | cons ref refs ih =>
    obtain ⟨absent, distinct⟩ := List.nodup_cons.mp distinct
    cases offset with
    | zero =>
      rw [List.getElem?_cons_zero, Option.some.injEq] at found
      subst found
      rw [renumber, renumber_of_not_mem absent]
      simp
    | succ offset =>
      rw [List.getElem?_cons_succ] at found
      have other : ref.id ≠ id := by
        intro same
        subst same
        exact absent (List.mem_of_getElem? found)
      rw [renumber, ih distinct found, List.getElem?_modify_ne _ _ other]
      simp [Nat.add_comm, Nat.add_left_comm]

/-- Renumbering keeps everything but positions. -/
theorem map_renumber {α : Type} (view : Block → α)
    (blind : ∀ block index, view { block with index := index } = view block)
    (refs : List BlockRef) (position : Nat) (blocks : List Block) :
    (renumber refs position blocks).map view = blocks.map view := by
  induction refs generalizing position blocks with
  | nil => rfl
  | cons ref refs ih =>
    rw [renumber, ih, map_modify view (fun block => blind block position)]

theorem flatMap_renumber (refs : List BlockRef) (position : Nat) (blocks : List Block) :
    (renumber refs position blocks).flatMap Block.instructions =
      blocks.flatMap Block.instructions := by
  rw [List.flatMap_def, List.flatMap_def, map_renumber Block.instructions (fun _ _ => rfl)]

@[simp] theorem length_renumber (refs : List BlockRef) (position : Nat) (blocks : List Block) :
    (renumber refs position blocks).length = blocks.length := by
  simpa using congrArg List.length
    (map_renumber Block.id (fun _ _ => rfl) refs position blocks)

theorem mem_renumber {refs : List BlockRef} {position : Nat} {blocks : List Block} {block : Block}
    (member : block ∈ renumber refs position blocks) :
    ∃ old ∈ blocks, old.instructions = block.instructions := by
  have listed : block.instructions ∈ (renumber refs position blocks).map Block.instructions :=
    List.mem_map_of_mem member
  rw [map_renumber Block.instructions (fun _ _ => rfl)] at listed
  exact List.mem_map.mp listed

/-! A splice at `start` leaves three groups of blocks: those in front of it keep their positions,
the new ones take the positions behind, and the rest moves back. -/

private def splicedArena (function : FunctionDef) (start count : Nat) : List Block :=
  renumber (function.order.drop start) (start + count) (function.withEmptyBlocks start count)

private theorem splicedArena_front (coherent : function.Coherent) (start count : Nat)
    {index : Nat} {ref : BlockRef} (kept : (function.order.take start)[index]? = some ref) :
    ∃ block, (function.splicedArena start count)[ref.id]? = some block ∧ block.index = index := by
  have distinct := coherent.order_nodup
  rw [← List.take_append_drop start function.order] at distinct
  have absent : ref ∉ function.order.drop start := fun moved =>
    List.disjoint_of_nodup_append distinct (List.mem_of_getElem? kept) moved
  have old : function.order[index]? = some ref := by
    have bound := (List.getElem?_eq_some_iff.mp kept).1
    rw [List.length_take] at bound
    rwa [List.getElem?_take_of_lt (by omega)] at kept
  obtain ⟨block, found, same⟩ := coherent.positions index ref old
  refine ⟨block, ?_, same⟩
  rw [splicedArena, renumber_of_not_mem absent]
  exact (getElem?_withEmptyBlocks_old (coherent.hasBlock_of_order old)).trans found

private theorem splicedArena_new (coherent : function.Coherent) (start count : Nat)
    {offset : Nat} {ref : BlockRef} (new : (function.freshRefs count)[offset]? = some ref) :
    ∃ block, (function.splicedArena start count)[ref.id]? = some block ∧
      block.index = start + offset := by
  obtain ⟨bounded, rfl⟩ := getElem?_freshRefs new
  have absent : ⟨function.blocks.length + offset⟩ ∉ function.order.drop start := by
    intro moved
    have old := (coherent.mem_order_iff _).mp (List.mem_of_mem_drop moved)
    exact absurd old (Nat.not_lt.mpr (Nat.le_add_right ..))
  refine ⟨⟨⟨function.blocks.length + offset⟩, start + offset, none, []⟩, ?_, rfl⟩
  rw [splicedArena, renumber_of_not_mem absent]
  exact getElem?_withEmptyBlocks_new bounded

private theorem splicedArena_moved (coherent : function.Coherent) (start count : Nat)
    {offset : Nat} {ref : BlockRef} (moved : (function.order.drop start)[offset]? = some ref) :
    ∃ block, (function.splicedArena start count)[ref.id]? = some block ∧
      block.index = start + count + offset := by
  have distinct : (function.order.drop start).Nodup := coherent.order_nodup.drop
  have old : function.HasBlock ref :=
    (coherent.mem_order_iff ref).mp (List.mem_of_mem_drop (List.mem_of_getElem? moved))
  have found : (function.withEmptyBlocks start count)[ref.id]? = some function.blocks[ref.id] :=
    (getElem?_withEmptyBlocks_old old).trans (List.getElem?_eq_getElem old)
  refine ⟨{ function.blocks[ref.id] with index := start + count + offset }, ?_, rfl⟩
  rw [splicedArena, renumber_of_mem distinct moved, found]
  rfl

/-! Changes -/

/-- An entry of two lists in a row stands in the first or, counted from its start, in the second. -/
theorem getElem?_append_cases {α : Type} {front back : List α} {index : Nat} {entry : α}
    (found : (front ++ back)[index]? = some entry) :
    front[index]? = some entry ∨
      ∃ offset, index = front.length + offset ∧ back[offset]? = some entry := by
  rw [List.getElem?_append] at found
  split at found
  · exact .inl found
  · exact .inr ⟨index - front.length, by omega, found⟩

namespace Coherent

theorem withParameter (coherent : function.Coherent) (ty : Ty) (name : String) :
    (function.withParameter ty name).2.Coherent where
  order := coherent.order
  ids := coherent.ids
  positions := coherent.positions
  increasing := coherent.increasing
  instructions := coherent.instructions
  parameters := by
    intro index parameter found
    simp only [FunctionDef.withParameter] at found
    rcases getElem?_append_cases found with old | ⟨offset, rfl, new⟩
    · exact coherent.parameters index parameter old
    · obtain ⟨rfl, rfl⟩ : offset = 0 ∧ _ = parameter := by
        simpa [List.getElem?_singleton] using new
      rfl

theorem withSymbols (coherent : function.Coherent) (values : List Value) :
    (function.withSymbols values).Coherent :=
  ⟨coherent.order, coherent.ids, coherent.positions, coherent.increasing, coherent.instructions,
    coherent.parameters⟩

theorem finish (coherent : function.Coherent) (finished : Bool) :
    Coherent { function with finished := finished } :=
  ⟨coherent.order, coherent.ids, coherent.positions, coherent.increasing, coherent.instructions,
    coherent.parameters⟩

theorem reserve (coherent : function.Coherent) (count : Nat) :
    (function.reserve count).Coherent where
  order := perm_withEmptyBlocks coherent ..
  ids := fun _ _ found => ids_withEmptyBlocks coherent found
  positions := by
    intro position ref placed
    rcases getElem?_append_cases placed with old | ⟨offset, rfl, new⟩
    · obtain ⟨block, found, index⟩ := coherent.positions position ref old
      refine ⟨block, ?_, index⟩
      exact (getElem?_withEmptyBlocks_old (coherent.hasBlock_of_order old)).trans found
    · obtain ⟨bound, rfl⟩ := getElem?_freshRefs new
      exact ⟨_, getElem?_withEmptyBlocks_new bound, rfl⟩
  increasing := by
    intro block member
    rcases mem_withEmptyBlocks member with old | empty
    · exact coherent.increasing block old
    · simp [empty]
  instructions := (flatMap_withEmptyBlocks function ..).symm ▸ coherent.instructions
  parameters := coherent.parameters

theorem splice (coherent : function.Coherent) (position count : Nat) :
    (function.splice position count).2.Coherent := by
  have bound : min position function.order.length ≤ function.order.length := Nat.min_le_right ..
  simp only [FunctionDef.splice]
  generalize min position function.order.length = start at bound
  constructor
  · have rearranged : (function.order.take start ++ function.freshRefs count
        ++ function.order.drop start).Perm (function.order ++ function.freshRefs count) := by
      rw [List.append_assoc]
      refine (List.perm_append_comm.append_left _).trans ?_
      rw [← List.append_assoc, List.take_append_drop]
    rw [length_renumber]
    exact rearranged.trans (perm_withEmptyBlocks coherent start count)
  · intro id block found
    have listed : ((function.splicedArena start count).map Block.id)[id]? = some block.id := by
      rw [List.getElem?_map]
      exact congrArg (Option.map Block.id) found
    rw [splicedArena, map_renumber Block.id (fun _ _ => rfl), List.getElem?_map] at listed
    obtain ⟨old, found, same⟩ := Option.map_eq_some_iff.mp listed
    rw [← same]
    exact ids_withEmptyBlocks coherent found
  · intro index ref placed
    have front : (function.order.take start).length = start := List.length_take_of_le bound
    rcases getElem?_append_cases placed with inFront | ⟨offset, rfl, moved⟩
    · rcases getElem?_append_cases inFront with kept | ⟨offset, rfl, new⟩
      · exact splicedArena_front coherent start count kept
      · rw [front]
        exact splicedArena_new coherent start count new
    · rw [List.length_append, front, length_freshRefs]
      exact splicedArena_moved coherent start count moved
  · intro block member
    obtain ⟨old, held, same⟩ := mem_renumber member
    rw [← same]
    rcases mem_withEmptyBlocks held with old | empty
    · exact coherent.increasing _ old
    · simp [empty]
  · rw [flatMap_renumber]
    exact (flatMap_withEmptyBlocks function start count).symm ▸ coherent.instructions
  · exact coherent.parameters

/-- The order depends on handles and positions only. -/
theorem withBlocks (coherent : function.Coherent) {blocks : List Block}
    {instructions : List Instruction} (ids : blocks.map Block.id = function.blocks.map Block.id)
    (positions : blocks.map Block.index = function.blocks.map Block.index)
    (increasing : ∀ block ∈ blocks, block.instructions.Pairwise (· < ·))
    (held : (blocks.flatMap Block.instructions).Perm (List.range instructions.length)) :
    Coherent { function with blocks := blocks, instructions := instructions } where
  order := by
    have length : blocks.length = function.blocks.length := by
      simpa using congrArg List.length ids
    simpa only [length] using coherent.order
  ids := by
    intro id block found
    have listed : (function.blocks.map Block.id)[id]? = some block.id := by
      rw [← ids, List.getElem?_map]
      exact congrArg (Option.map Block.id) found
    rw [List.getElem?_map] at listed
    obtain ⟨old, found, same⟩ := Option.map_eq_some_iff.mp listed
    exact same ▸ coherent.ids id old found
  positions := by
    intro position ref placed
    obtain ⟨old, found, same⟩ := coherent.positions position ref placed
    have listed : (blocks.map Block.index)[ref.id]? = some position := by
      rw [positions, List.getElem?_map]
      exact (congrArg (Option.map Block.index) found).trans (congrArg some same)
    rw [List.getElem?_map] at listed
    exact Option.map_eq_some_iff.mp listed
  increasing := increasing
  instructions := held
  parameters := coherent.parameters

theorem nameBlock (coherent : function.Coherent) (ref : BlockRef) (name : Option String) :
    (function.nameBlock ref name).Coherent := by
  have unchanged : (function.nameBlock ref name).blocks.map Block.instructions =
      function.blocks.map Block.instructions := map_modify Block.instructions (by intro; rfl) ..
  apply coherent.withBlocks
  · exact map_modify Block.id (by intro; rfl) ..
  · exact map_modify Block.index (by intro; rfl) ..
  · intro block member
    have listed : block.instructions ∈ function.blocks.map Block.instructions := by
      rw [← unchanged]
      exact List.mem_map_of_mem member
    obtain ⟨old, held, same⟩ := List.mem_map.mp listed
    exact same ▸ coherent.increasing old held
  · have same := congrArg List.flatten unchanged
    rw [← List.flatMap_def, ← List.flatMap_def] at same
    exact same ▸ coherent.instructions

/-- The name of a result is no part of the arrangement. -/
theorem renameResult (coherent : function.Coherent) (id : InstId) (name : String) :
    (function.renameResult id name).Coherent := by
  apply coherent.withBlocks rfl rfl coherent.increasing
  rw [List.length_modify]
  exact coherent.instructions

/-- An instruction goes to the end of one block, with the next number of the arena. -/
theorem push (coherent : function.Coherent) {ref : BlockRef} (inArena : function.HasBlock ref)
    (instruction : Instruction) : (function.push ref instruction).2.Coherent := by
  let next := function.instructions.length
  obtain ⟨front, block, back, arena, place, pushed⟩ := List.exists_of_modify
    (fun block : Block => { block with instructions := block.instructions ++ [next] }) inArena
  apply coherent.withBlocks
  · exact map_modify Block.id (by intro; rfl) ..
  · exact map_modify Block.index (by intro; rfl) ..
  · intro other member
    rw [pushed] at member
    have own : block ∈ function.blocks := by simp [arena]
    rcases List.mem_append.mp member with inFront | behind
    · exact coherent.increasing other (by simp [arena, inFront])
    · rcases List.mem_cons.mp behind with rfl | inBack
      · refine List.pairwise_append.mpr ⟨coherent.increasing block own, by simp, ?_⟩
        intro earlier held last new
        rw [List.mem_singleton.mp new]
        exact coherent.instruction_lt own held
      · exact coherent.increasing other (by simp [arena, inBack])
  · have old := coherent.instructions
    rw [arena] at old
    rw [pushed, List.length_append, List.length_singleton, List.range_succ]
    refine List.Perm.trans ?_ (old.append_right [next])
    simp only [List.flatMap_append, List.flatMap_cons, List.append_assoc]
    exact (List.perm_append_comm.append_left _).append_left _

end Coherent

end FunctionDef

end IrAssembly
