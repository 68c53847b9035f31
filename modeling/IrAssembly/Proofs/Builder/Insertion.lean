import IrAssembly.Proofs.Builder.Frame

/-! Inserting blocks and building instructions do not disturb each other. An instruction mentions
blocks by their handles and is kept by its block, so it is the same whether blocks are inserted
before it is built or afterwards. -/

namespace IrAssembly

namespace FunctionDef

/-- Positions may be given before or after a change that does not concern them. -/
theorem renumber_modify {change : Block → Block}
    (apart : ∀ (block : Block) (index : Nat),
      change { block with index := index } = { change block with index := index })
    (refs : List BlockRef) (position id : Nat) (blocks : List Block) :
    renumber refs position (blocks.modify id change) =
      (renumber refs position blocks).modify id change := by
  induction refs generalizing position blocks with
  | nil => rfl
  | cons ref refs ih =>
    simp only [renumber]
    by_cases same : ref.id = id
    · rw [← ih, same, List.modify_modify_eq, List.modify_modify_eq]
      congr 2
      funext block
      exact (apart block position).symm
    · rw [← ih, List.modify_modify_ne _ _ _ same]

theorem modify_append {α : Type} {front : List α} {index : Nat} (bound : index < front.length)
    (change : α → α) (back : List α) :
    (front ++ back).modify index change = front.modify index change ++ back := by
  induction front generalizing index with
  | nil => cases bound
  | cons head tail ih =>
    cases index with
    | zero => rfl
    | succ index => simp [ih (Nat.lt_of_succ_lt_succ bound)]

/-- An instruction goes to the same block, and blocks are inserted in the same place. -/
theorem splice_push {function : FunctionDef} {ref : BlockRef} (inArena : function.HasBlock ref)
    (instruction : Instruction) (position count : Nat) :
    ((function.push ref instruction).2.splice position count).2 =
      ((function.splice position count).2.push ref instruction).2 := by
  have fresh : (function.push ref instruction).2.freshRefs count = function.freshRefs count := by
    simp only [push, freshRefs, List.length_modify]
  simp only [splice, fresh]
  simp only [push]
  rw [← modify_append inArena, renumber_modify fun _ _ => rfl]

theorem indexOf_push (function : FunctionDef) (target : BlockRef) (instruction : Instruction)
    (ref : BlockRef) :
    (function.push target instruction).2.indexOf ref = function.indexOf ref := by
  simp only [indexOf, block?, push, List.getElem?_modify]
  cases function.blocks[ref.id]? with
  | none => rfl
  | some block =>
    simp only [Option.map_eq_map, Option.map_some, Option.elim_some]
    split <;> rfl

end FunctionDef

namespace Builder

variable {builder : Builder}

theorem spendName_insertBlocks (builder : Builder) (count : Nat) :
    (builder.insertBlocks count).spendName = builder.spendName.insertBlocks count := by
  rcases builder with ⟨_, _, _, _, _, name⟩
  cases name <;> rfl

theorem push_insertBlocks (current : builder.function.HasBlock builder.current)
    (instruction : Instruction) (count : Nat) :
    (builder.insertBlocks count).push instruction =
      (builder.push instruction).insertBlocks count := by
  have position : (builder.push instruction).position = builder.position :=
    FunctionDef.indexOf_push ..
  simp only [insertBlocks, position]
  simp only [push, FunctionDef.splice_push current]

end Builder

namespace Build

variable {α : Type} {layout : DataLayout} {given : List Nat} {makes : Bool} {step : Build α}
  {builder : Builder}

/-- A step that stays in the current block gives what it gives, and leaves what it leaves, whether
blocks are inserted before it or afterwards. -/
theorem Straight.run_insertBlocks (straight : Straight layout given false makes step)
    (same : builder.layout = layout) (isOpen : builder.function.finished = false)
    (current : builder.function.HasBlock builder.current) (count : Nat) :
    step.run (builder.insertBlocks count) =
      ((step.run builder).1, (step.run builder).2.insertBlocks count) := by
  generalize stays : false = moves at straight
  induction straight generalizing builder with
  | done value => rfl
  | refuse error => rfl
  | @look α next blind rest ih =>
    change (next (builder.insertBlocks count)).run (builder.insertBlocks count) = _
    rw [blind]
    exact ih builder same isOpen current
  | byLayout rest ih =>
    have known := ih same isOpen current
    subst same
    exact known
  | encoded asked =>
    unfold Build.encoded
    split <;> rfl
  | symbol value =>
    have insertedOpen : (builder.insertBlocks count).function.finished = false := isOpen
    rw [((ends_symbol isOpen value).mpr ⟨rfl, rfl⟩).run_eq,
      ((ends_symbol insertedOpen value).mpr ⟨rfl, rfl⟩).run_eq]
    rfl
  | emit instruction =>
    have insertedOpen : (builder.insertBlocks count).function.finished = false := isOpen
    rw [((ends_emit isOpen instruction).mpr ⟨rfl, rfl⟩).run_eq,
      ((ends_emit insertedOpen instruction).mpr ⟨rfl, rfl⟩).run_eq,
      Builder.push_insertBlocks current]
  | emitValue ty instruction =>
    have insertedOpen : (builder.insertBlocks count).function.finished = false := isOpen
    have spent : builder.spendName.function.HasBlock builder.spendName.current := by
      simpa using current
    rw [((ends_emitValue isOpen ty instruction).mpr ⟨rfl, rfl⟩).run_eq,
      ((ends_emitValue insertedOpen ty instruction).mpr ⟨rfl, rfl⟩).run_eq,
      Builder.spendName_insertBlocks, Builder.push_insertBlocks spent]
    rfl
  | createParameter allowed ty =>
    have insertedOpen : (builder.insertBlocks count).function.finished = false := isOpen
    rw [((ends_createParameter isOpen ty).mpr ⟨rfl, rfl⟩).run_eq,
      ((ends_createParameter insertedOpen ty).mpr ⟨rfl, rfl⟩).run_eq]
    rfl
  | setNextName name => rfl
  | nextBlock allowed => exact absurd (stays.trans allowed) Bool.false_ne_true
  | @bind α β step next first rest firstIh restIh =>
    subst stays
    rw [run_bind, run_bind, firstIh same isOpen current]
    have continues := first.continues same isOpen
    unfold Ends at continues
    generalize step.run builder = ended at continues
    obtain ⟨outcome, middle⟩ := ended
    cases outcome with
    | error failure => rfl
    | ok value =>
      -- the first part has stayed in the current block, which is still there
      refine restIh value (continues.layout.trans same) (continues.finished.trans isOpen) ?_
      rw [continues.current rfl]
      exact continues.function.hasBlock current

end Build

namespace Operation

variable {builder : Builder}

theorem step_of_insertBlocks (ready : builder.Ready) {operation : Operation}
    (apart : operation.concernsOrder = false) (count : Nat) :
    operation.step (builder.insertBlocks count) =
      ((operation.step builder).1, (operation.step builder).2.insertBlocks count) := by
  have straight : Build.Straight builder.layout operation.alignments false _ operation.run :=
    operation.run_straight apart
  exact straight.run_insertBlocks rfl ready.isOpen ready.current count

/-- Blocks may as well be inserted after any number of such operations. -/
theorem carryOut_insertBlocks (ready : builder.Ready) {operations : List Operation}
    (apart : ∀ operation ∈ operations, operation.concernsOrder = false) (count : Nat) :
    (builder.insertBlocks count).carryOut operations =
      (builder.carryOut operations).insertBlocks count := by
  induction operations generalizing builder with
  | nil => rfl
  | cons operation operations ih =>
    obtain ⟨first, others⟩ := List.forall_mem_cons.mp apart
    have state : (operation.step (builder.insertBlocks count)).2 =
        (operation.step builder).2.insertBlocks count :=
      congrArg Prod.snd (step_of_insertBlocks ready first count)
    have afterReady := (operation.step_effects ready).1.ready ready
    change Builder.carryOut (operation.step (builder.insertBlocks count)).2 operations = _
    rw [state]
    exact ih afterReady others

/-- An operation that does not concern the order of the blocks, and an insertion of blocks, may
change places: each gives what it gave, also an error, and both leave the same state. -/
theorem step_insertBlocks_comm (reachable : builder.Reachable) {operation : Operation}
    (apart : operation.concernsOrder = false) (count : Nat) :
    let built := operation.step builder
    let builtAndInserted := (insertBlocks count).step built.2
    let inserted := (insertBlocks count).step builder
    let insertedAndBuilt := operation.step inserted.2
    builtAndInserted.2 = insertedAndBuilt.2 ∧ built.1 = insertedAndBuilt.1 ∧
      builtAndInserted.1 = inserted.1 := by
  intro built builtAndInserted inserted insertedAndBuilt
  have ready := reachable.ready
  have straight : Build.Straight builder.layout operation.alignments false _ operation.run :=
    operation.run_straight apart
  have continues : builder.Continues false built.2 :=
    (straight.continues rfl ready.isOpen).state
  have stillOpen : built.2.function.finished = false := continues.finished.trans ready.isOpen
  have first : inserted = _ := step_insertBlocks ready.isOpen count
  have last : builtAndInserted = _ := step_insertBlocks stillOpen count
  have swapped : insertedAndBuilt = (built.1, built.2.insertBlocks count) := by
    simp only [insertedAndBuilt, first]
    exact step_of_insertBlocks ready apart count
  refine ⟨?_, ?_, ?_⟩
  · rw [last, swapped]
  · rw [swapped]
  · have fresh : built.2.function.freshRefs count = builder.function.freshRefs count := by
      rw [FunctionDef.freshRefs, continues.arena rfl]
      rfl
    rw [last, first, fresh]

/-- A branch to a block that was asked for before: two blocks are inserted in front of its target,
and it aims at the same block in both orders. -/
theorem branch_insertBlocks_comm : ∃ builder : Builder, builder.Reachable ∧
    let aim := Operation.branch ⟨1⟩
    let inserted := (insertBlocks 2).step builder
    inserted.1 = .ok (.blocks [⟨2⟩, ⟨3⟩]) ∧
    ((insertBlocks 2).step (aim.step builder).2).1 = inserted.1 ∧
    ((insertBlocks 2).step (aim.step builder).2).2 = (aim.step inserted.2).2 ∧
    (aim.step inserted.2).2.function.order = [⟨0⟩, ⟨2⟩, ⟨3⟩, ⟨1⟩] ∧
    (aim.step inserted.2).2.function.instructions = [.branch ⟨1⟩] := by
  have reachable := Builder.Reachable.run (.fresh "f" ⟨.void, [], false⟩)
    (Builder.run_start rfl .x86_64) [.getBlock 1]
  have apart : (Operation.branch ⟨1⟩).concernsOrder = false := rfl
  obtain ⟨states, _, handles⟩ := step_insertBlocks_comm reachable apart 2
  exact ⟨_, reachable, by decide, handles, states, by decide, by decide⟩

end Operation

end IrAssembly
