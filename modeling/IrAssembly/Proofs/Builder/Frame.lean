import IrAssembly.Proofs.Builder.StraightLine
import IrAssembly.Proofs.Builder.Construction
import IrAssembly.Proofs.Builder.Naming
import IrAssembly.Proofs.Function.Extension

/-! What operations leave as it was. Tables grow at their ends, blocks keep their handles, their
instructions and their labels, and only inserted blocks move others. -/

namespace IrAssembly

/-- What straight-line steps keep: the function goes on in place, under the same layout, and stays
open if it was. Only a step that moves leaves the current block or makes a new one. -/
structure Builder.Continues (moves : Bool) (builder after : Builder) : Prop where
  function : builder.function.Extends id after.function
  layout : after.layout = builder.layout
  finished : after.function.finished = builder.function.finished
  current : moves = false → after.current = builder.current
  arena : moves = false → after.function.blocks.length = builder.function.blocks.length

namespace Builder.Continues

variable {moves : Bool} {builder middle after : Builder}

theorem refl (builder : Builder) : builder.Continues moves builder :=
  ⟨.refl _, rfl, rfl, fun _ => rfl, fun _ => rfl⟩

theorem trans (first : builder.Continues moves middle) (second : middle.Continues moves after) :
    builder.Continues moves after where
  function := first.function.trans second.function
  layout := second.layout.trans first.layout
  finished := second.finished.trans first.finished
  current := fun stays => (second.current stays).trans (first.current stays)
  arena := fun stays => (second.arena stays).trans (first.arena stays)

theorem register (builder : Builder) (values : List Value) :
    builder.Continues moves (builder.register values) :=
  ⟨.withSymbols .., rfl, rfl, fun _ => rfl, fun _ => rfl⟩

theorem addParameter (builder : Builder) (ty : Ty) :
    builder.Continues moves (builder.addParameter ty) :=
  ⟨.withParameter .., rfl, rfl, fun _ => rfl, fun _ => rfl⟩

theorem spendName (builder : Builder) : builder.Continues moves builder.spendName := by
  unfold Builder.spendName
  split <;> exact ⟨.refl _, rfl, rfl, fun _ => rfl, fun _ => rfl⟩

theorem push (builder : Builder) (instruction : Instruction) :
    builder.Continues moves (builder.push instruction) := by
  refine ⟨.push .., rfl, rfl, fun _ => rfl, fun _ => ?_⟩
  exact List.length_modify ..

/-- A block that is entered gets a label only if it has none. -/
theorem enterNext (builder : Builder) : builder.Continues true builder.enterNext := by
  have reserved : builder.function.Extends id
      (builder.reserve (builder.position + 1 + 1)).function := .reserve ..
  simp only [Builder.enterNext, Builder.enter]
  split
  · rename_i unlabelled
    have named := FunctionDef.Extends.nameBlock _ (Option.isNone_iff_eq_none.mp unlabelled)
    exact ⟨reserved.trans (named _), rfl, rfl, Bool.noConfusion, Bool.noConfusion⟩
  · exact ⟨reserved, rfl, rfl, Bool.noConfusion, Bool.noConfusion⟩

end Builder.Continues

namespace Build

variable {α : Type} {layout : DataLayout} {given : List Nat} {moves makes : Bool} {step : Build α}
  {builder : Builder}

/-- Straight-line steps keep every block in its place, however they end. -/
theorem Straight.continues (straight : Straight layout given moves makes step)
    (same : builder.layout = layout) (isOpen : builder.function.finished = false) :
    Ends step builder (fun _ after => builder.Continues moves after)
      fun _ after => builder.Continues moves after := by
  induction straight generalizing builder with
  | done value => exact .refl builder
  | refuse error => exact .refl builder
  | look blind rest ih =>
    rw [ends_bind, ends_get]
    exact ih builder same isOpen
  | byLayout rest ih =>
    rw [ends_bind, ends_layout, same]
    exact ih same isOpen
  | encoded asked => exact ends_encoded (fun _ => .refl builder) fun _ _ => .refl builder
  | symbol value =>
    rw [ends_symbol isOpen]
    exact .register ..
  | emit instruction =>
    rw [ends_emit isOpen]
    exact .push ..
  | emitValue ty instruction =>
    rw [ends_emitValue isOpen]
    exact (Builder.Continues.spendName builder).trans (.push ..)
  | createParameter allowed ty =>
    rw [ends_createParameter isOpen]
    exact .addParameter ..
  | setNextName name => exact ⟨.refl _, rfl, rfl, fun _ => rfl, fun _ => rfl⟩
  | nextBlock allowed =>
    rw [ends_nextBlock isOpen, allowed]
    exact .enterNext builder
  | bind first rest firstIh restIh =>
    rw [ends_bind]
    refine (firstIh same isOpen).mono ?_ fun _ _ continues => continues
    intro value middle continues
    refine (restIh value (continues.layout.trans same)
      (continues.finished.trans isOpen)).mono ?_ ?_
    · exact fun _ _ further => continues.trans further
    · exact fun _ _ further => continues.trans further

end Build

open Build

namespace Operation

/-- The number of blocks that an operation inserts behind the current one. -/
def insertedBlocks : Operation → Nat
  | insertBlocks count => count
  | vaArg _ ty => if (RegisterClass.ofTy? ty).isSome then 3 else 0
  | _ => 0

end Operation

/-- What an operation does to the order of the blocks before its straight-line steps, which insert
no blocks. -/
inductive Builder.Opening (builder : Builder) : Nat → Builder → Prop where
  | nothing : Opening builder 0 builder
  | reserve (count : Nat) : Opening builder 0 (builder.reserve count)
  | insert (count : Nat) : Opening builder count (builder.insertBlocks count)

namespace Builder.Opening

variable {builder opened : Builder} {count : Nat}

theorem layout (opening : builder.Opening count opened) : opened.layout = builder.layout := by
  cases opening <;> rfl

theorem finished (opening : builder.Opening count opened) :
    opened.function.finished = builder.function.finished := by
  cases opening <;> rfl

theorem function (opening : builder.Opening count opened) (ready : builder.Ready) :
    builder.function.Extends (FunctionDef.movedBehind builder.position count)
      opened.function := by
  cases opening with
  | nothing =>
    rw [FunctionDef.movedBehind_none]
    exact .refl _
  | reserve count =>
    rw [FunctionDef.movedBehind_none]
    exact .reserve ..
  | insert count => exact .splice _ ready.position_lt count

end Builder.Opening

namespace Operation

variable {builder : Builder}

theorem step_getBlock (isOpen : builder.function.finished = false) (index : Nat) :
    (getBlock index).step builder =
      (.ok (.block (((builder.reserve (index + 1)).function.refAt? index).getD ⟨0⟩)),
        builder.reserve (index + 1)) := by
  apply Ends.run_eq
  rw [run, ends_map, ends_getBlock isOpen]
  exact ⟨rfl, rfl⟩

theorem step_insertBlocks (isOpen : builder.function.finished = false) (count : Nat) :
    (insertBlocks count).step builder =
      (.ok (.blocks (builder.function.freshRefs count)), builder.insertBlocks count) := by
  apply Ends.run_eq
  rw [run, ends_map, ends_insertBlocks isOpen]
  exact ⟨rfl, rfl⟩

/-- What an operation comes to: it may change the order of the blocks, then it takes straight-line
steps. -/
theorem exists_opening (operation : Operation) (isOpen : builder.function.finished = false) :
    ∃ (opened : Builder) (rest : Build Answer),
      builder.Opening operation.insertedBlocks opened ∧
      Straight builder.layout operation.alignments true operation.makesParameter rest ∧
      operation.step builder = rest.run opened := by
  -- operations that do nothing but change the order
  have only {opened : Builder} {answer : Answer}
      (opening : builder.Opening operation.insertedBlocks opened)
      (comes : operation.step builder = (.ok answer, opened)) :
      ∃ (opened : Builder) (rest : Build Answer),
        builder.Opening operation.insertedBlocks opened ∧
        Straight builder.layout operation.alignments true operation.makesParameter rest ∧
        operation.step builder = rest.run opened :=
    ⟨opened, pure answer, opening, .done answer, comes⟩
  cases operation with
  | nextBlock => exact ⟨builder, _, .nothing, .map (.nextBlock rfl) _, rfl⟩
  | getNextBlock =>
    have same : getNextBlock.step builder = (getBlock (builder.position + 1)).step builder := rfl
    exact only (.reserve _) (same.trans (step_getBlock isOpen _))
  | getBlock index => exact only (.reserve _) (step_getBlock isOpen index)
  | blockIndex block => exact only .nothing rfl
  | insertBlocks count => exact only (.insert count) (step_insertBlocks isOpen count)
  | vaArg list ty =>
    rw [insertedBlocks]
    cases inRegisters : RegisterClass.ofTy? ty with
    | none =>
      refine ⟨builder, run (.vaArg list ty), .nothing, ?_, rfl⟩
      rw [run, vaArg_of_inMemory inRegisters]
      exact .map (.refuse _) _
    | some registers =>
      obtain ⟨rest, same, straight⟩ := exists_vaArg_straight inRegisters list
      have inserted := ((ends_insertBlocks isOpen 3).mpr ⟨rfl, rfl⟩).run_eq
      refine ⟨_, _, .insert 3, (straight (builder.function.freshRefs 3)).map .value, ?_⟩
      rw [step, run, same, map_bind, run_bind, inserted]
  | _ => exact ⟨builder, _, .nothing, run_straight _ rfl, rfl⟩

/-- However an operation ends, it leaves what was built, and moves back the blocks behind the
current one by the number of blocks that it inserts. -/
theorem step_extends (operation : Operation) (ready : builder.Ready) :
    builder.function.Extends
      (FunctionDef.movedBehind builder.position operation.insertedBlocks)
      (operation.step builder).2.function := by
  obtain ⟨opened, rest, opening, straight, comes⟩ := operation.exists_opening ready.isOpen
  have continues : opened.Continues true (rest.run opened).2 :=
    (straight.continues opening.layout (opening.finished.trans ready.isOpen)).state
  rw [comes]
  exact (opening.function ready).trans continues.function

theorem step_layout (operation : Operation) (ready : builder.Ready) :
    (operation.step builder).2.layout = builder.layout := by
  obtain ⟨opened, rest, opening, straight, comes⟩ := operation.exists_opening ready.isOpen
  have continues : opened.Continues true (rest.run opened).2 :=
    (straight.continues opening.layout (opening.finished.trans ready.isOpen)).state
  rw [comes]
  exact continues.layout.trans opening.layout

/-- Handles and values that were taken at any time are good at any later time, and the blocks are
still in the order that they were in. -/
theorem carryOut_extends (ready : builder.Ready) (operations : List Operation) :
    ∃ place : Nat → Nat, StrictMono place ∧
      builder.function.Extends place (builder.carryOut operations).function := by
  induction operations generalizing builder with
  | nil => exact ⟨id, strictMono_id, .refl _⟩
  | cons operation operations ih =>
    have moved := FunctionDef.strictMono_movedBehind builder.position operation.insertedBlocks
    obtain ⟨place, ordered, extended⟩ := ih ((operation.step_effects ready).1.ready ready)
    exact ⟨_, ordered.comp moved, (operation.step_extends ready).trans extended⟩

/-- Whatever operation a builder carries out, and however it ends: tables begin with what they
held, handles stay valid, blocks keep their instructions, their labels and their order, and stand
where they stood unless blocks were inserted in front of them. -/
theorem step_extends_of_reachable (operation : Operation) (reachable : builder.Reachable) :
    let after := (operation.step builder).2.function
    let moved := FunctionDef.movedBehind builder.position operation.insertedBlocks
    builder.function.Extends moved after ∧
      ∀ ref, builder.function.HasBlock ref →
        after.HasBlock ref ∧ after.indexOf ref = moved (builder.function.indexOf ref) := by
  intro after moved
  have ready := reachable.ready
  have extended : builder.function.Extends moved after := operation.step_extends ready
  have afterReady := (operation.step_effects ready).1.ready ready
  refine ⟨extended, ?_⟩
  intro ref inArena
  exact ⟨extended.hasBlock inArena, extended.indexOf ready.coherent afterReady.coherent inArena⟩

/-- The parameter is no list of arguments, so the pattern stops behind its first step; the three
inserted blocks stay, and the block that was the second is the fifth. -/
theorem blocks_moved_of_refused : ∃ builder : Builder, builder.Reachable ∧
    let fetch := Operation.vaArg (.parameter ⟨0, "arg_1", .i32⟩) .i32
    let after := (fetch.step builder).2.function
    (fetch.step builder).1 = .error (.refused (.notAPointer "getelementptr" .i32)) ∧
    builder.function.order = [⟨0⟩, ⟨1⟩] ∧ after.order = [⟨0⟩, ⟨2⟩, ⟨3⟩, ⟨4⟩, ⟨1⟩] ∧
    builder.function.Extends (FunctionDef.movedBehind 0 3) after ∧ after.indexOf ⟨1⟩ = 4 := by
  have reachable := Builder.Reachable.run (.fresh "f" ⟨.void, [.i32], false⟩)
    (Builder.run_start rfl .x86_64) [.nextParameter, .getBlock 1]
  obtain ⟨extended, places⟩ := step_extends_of_reachable
    (.vaArg (.parameter ⟨0, "arg_1", .i32⟩) .i32) reachable
  refine ⟨_, reachable, by decide, by decide, by decide, extended, ?_⟩
  exact (places ⟨1⟩ (by unfold FunctionDef.HasBlock; decide)).2

end Operation

end IrAssembly
