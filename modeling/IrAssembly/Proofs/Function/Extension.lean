import IrAssembly.Proofs.Function.Growth
import IrAssembly.Proofs.Function.Labels
import Mathlib.Order.Monotone.Defs

/-! What every change of a function leaves as it was: handles, instructions and labels of the blocks
that are there, and their order. Positions change only behind inserted blocks. -/

namespace IrAssembly

/-- The second block goes on from the first: instructions only come behind, and a label stays. -/
structure Block.Extends (block later : Block) : Prop where
  id : later.id = block.id
  instructions : block.instructions <+: later.instructions
  name : ∀ name, block.name = some name → later.name = some name

namespace Block.Extends

theorem refl (block : Block) : block.Extends block :=
  ⟨rfl, List.prefix_refl _, fun _ named => named⟩

theorem trans {first second third : Block} (before : first.Extends second)
    (after : second.Extends third) : first.Extends third :=
  ⟨after.id.trans before.id, before.instructions.trans after.instructions,
    fun name named => after.name name (before.name name named)⟩

end Block.Extends

namespace FunctionDef

/-- The second function goes on from the first: its tables begin with those of the first, and every
block of the first goes on in it. The block at a position is found at `place position`. -/
structure Extends (place : Nat → Nat) (before after : FunctionDef) : Prop
    extends before.Grows after where
  kept : ∀ ref block, before.block? ref = some block →
    ∃ later, after.block? ref = some later ∧ block.Extends later
  order : before.order.Sublist after.order
  positions : ∀ (position : Nat) (ref : BlockRef), before.order[position]? = some ref →
    after.order[place position]? = some ref

/-- Where the block at a position stands after `count` blocks are inserted behind that at `last`. -/
def movedBehind (last count position : Nat) : Nat :=
  if position ≤ last then position else position + count

@[simp] theorem movedBehind_none (last : Nat) : movedBehind last 0 = id := by
  funext position
  simp [movedBehind]

theorem strictMono_movedBehind (last count : Nat) : StrictMono (movedBehind last count) := by
  intro position other less
  unfold movedBehind
  split <;> split <;> omega

namespace Extends

variable {first second place : Nat → Nat} {before middle after : FunctionDef}

theorem refl (function : FunctionDef) : Extends id function function where
  toGrows := .refl function
  kept := fun _ block found => ⟨block, found, .refl block⟩
  order := List.Sublist.refl _
  positions := fun _ _ placed => placed

theorem trans (front : Extends first before middle) (back : Extends second middle after) :
    Extends (second ∘ first) before after where
  toGrows := front.toGrows.trans back.toGrows
  kept := by
    intro ref block found
    obtain ⟨between, there, begun⟩ := front.kept ref block found
    obtain ⟨later, here, ended⟩ := back.kept ref between there
    exact ⟨later, here, begun.trans ended⟩
  order := front.order.trans back.order
  positions := fun position ref placed => back.positions _ ref (front.positions position ref placed)

/-- The position of a block in coherent functions follows the order. -/
theorem indexOf (extended : Extends place before after) (coherent : before.Coherent)
    (laterCoherent : after.Coherent) {ref : BlockRef} (inArena : before.HasBlock ref) :
    after.indexOf ref = place (before.indexOf ref) :=
  laterCoherent.indexOf_of_order
    (extended.positions _ ref (coherent.order_indexOf inArena))

theorem labelOf (extended : Extends place before after) {ref : BlockRef} {name : String}
    (labelled : before.labelOf ref = some name) : after.labelOf ref = some name := by
  obtain ⟨block, found, named⟩ := Option.bind_eq_some_iff.mp labelled
  obtain ⟨later, here, goesOn⟩ := extended.kept ref block found
  rw [FunctionDef.labelOf, here]
  exact goesOn.name name named

/-! Changes -/

variable (function : FunctionDef)

/-- Changes that touch neither the blocks nor their order. -/
theorem of_tables (grows : before.Grows after) (blocks : after.blocks = before.blocks)
    (order : after.order = before.order) : Extends id before after where
  toGrows := grows
  kept := by
    intro ref block found
    rw [block?, blocks]
    exact ⟨block, found, .refl block⟩
  order := order ▸ List.Sublist.refl _
  positions := by
    intro position ref placed
    rw [order]
    exact placed

theorem withSymbols (values : List Value) : Extends id function (function.withSymbols values) :=
  of_tables (.withSymbols ..) rfl rfl

theorem withParameter (ty : Ty) (name : String) :
    Extends id function (function.withParameter ty name).2 :=
  of_tables (.withParameter ..) rfl rfl

/-- A change of one block that goes on from it. -/
theorem of_modify {target : BlockRef} {change : Block → Block} (grows : before.Grows after)
    (blocks : after.blocks = before.blocks.modify target.id change)
    (order : after.order = before.order)
    (goesOn : ∀ block, before.block? target = some block → block.Extends (change block)) :
    Extends id before after where
  toGrows := grows
  kept := by
    intro ref block found
    have read : after.block? ref = (before.block? ref).map fun block =>
        if target.id = ref.id then change block else block := by
      rw [block?, blocks, List.getElem?_modify]
      rfl
    rw [read, found, Option.map_some]
    by_cases same : target.id = ref.id
    · have own : target = ref := by
        cases target
        cases ref
        exact congrArg BlockRef.mk same
      rw [if_pos same]
      exact ⟨change block, rfl, goesOn block (own ▸ found)⟩
    · rw [if_neg same]
      exact ⟨block, rfl, .refl block⟩
  order := order ▸ List.Sublist.refl _
  positions := by
    intro position ref placed
    rw [order]
    exact placed

theorem push (target : BlockRef) (instruction : Instruction) :
    Extends id function (function.push target instruction).2 := by
  refine of_modify (.push ..) rfl rfl fun block _ => ?_
  exact ⟨rfl, List.prefix_append .., fun _ named => named⟩

/-- A block without a label may be given one. -/
theorem nameBlock {target : BlockRef} (unlabelled : function.labelOf target = none)
    (name : Option String) : Extends id function (function.nameBlock target name) := by
  refine of_modify (.nameBlock ..) rfl rfl fun block found => ⟨rfl, List.prefix_refl _, ?_⟩
  intro other named
  rw [FunctionDef.labelOf, found, Option.bind_some, named] at unlabelled
  cases unlabelled

theorem reserve (count : Nat) : Extends id function (function.reserve count) where
  toGrows := .reserve ..
  kept := by
    intro ref block found
    have inArena : ref.id < function.blocks.length := (List.getElem?_eq_some_iff.mp found).1
    refine ⟨block, ?_, .refl block⟩
    simp only [FunctionDef.reserve, block?]
    exact (List.getElem?_append_left inArena).trans found
  order := List.sublist_append_left ..
  positions := by
    intro position ref placed
    have bound := (List.getElem?_eq_some_iff.mp placed).1
    simp only [FunctionDef.reserve]
    exact (List.getElem?_append_left bound).trans placed

/-- Renumbering changes no more than the position of a block. -/
theorem getElem?_renumber {refs : List BlockRef} {position id : Nat} {blocks : List Block}
    {block : Block} (found : blocks[id]? = some block) :
    ∃ index, (renumber refs position blocks)[id]? = some { block with index := index } := by
  induction refs generalizing position blocks block with
  | nil => exact ⟨block.index, found⟩
  | cons ref refs ih =>
    by_cases same : ref.id = id
    · have moved : (blocks.modify ref.id fun block => { block with index := position })[id]? =
          some { block with index := position } := by
        simp [found, same]
      obtain ⟨index, renumbered⟩ := ih moved
      exact ⟨index, renumbered⟩
    · exact ih (by rwa [List.getElem?_modify_ne _ _ same])

/-- Inserted blocks come behind a position that the function has. -/
theorem splice {last : Nat} (bound : last < function.order.length) (count : Nat) :
    Extends (movedBehind last count) function (function.splice (last + 1) count).2 := by
  have start : min (last + 1) function.order.length = last + 1 := Nat.min_eq_left bound
  have front : (function.order.take (last + 1)).length = last + 1 := List.length_take_of_le bound
  have order : (function.splice (last + 1) count).2.order = function.order.take (last + 1) ++
      (function.freshRefs count ++ function.order.drop (last + 1)) := by
    simp [FunctionDef.splice, start]
  refine ⟨.splice .., ?_, ?_, ?_⟩
  · intro ref block found
    have inArena : ref.id < function.blocks.length := (List.getElem?_eq_some_iff.mp found).1
    simp only [FunctionDef.splice, block?]
    obtain ⟨index, renumbered⟩ := getElem?_renumber
      ((List.getElem?_append_left inArena).trans found)
    exact ⟨_, renumbered, rfl, List.prefix_refl _, fun _ named => named⟩
  · rw [order]
    conv_lhs => rw [← List.take_append_drop (last + 1) function.order]
    exact (List.Sublist.refl _).append (List.sublist_append_right ..)
  · intro position ref placed
    rw [order, movedBehind]
    by_cases inFront : position ≤ last
    · rw [if_pos inFront, List.getElem?_append_left (by omega),
        List.getElem?_take_of_lt (by omega)]
      exact placed
    · have offset : position + count - (last + 1) - count = position - (last + 1) := by omega
      have back : last + 1 + (position - (last + 1)) = position := by omega
      rw [if_neg inFront, List.getElem?_append_right (by omega), front,
        List.getElem?_append_right (by simp; omega), length_freshRefs, offset, List.getElem?_drop,
        back]
      exact placed

end Extends

end FunctionDef

end IrAssembly
