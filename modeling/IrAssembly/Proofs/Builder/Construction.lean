import IrAssembly.Proofs.Builder.Session

/-! Functions under construction: direct changes of a function and the operations of builders that
were started on it, in any order. The order of the blocks and the arenas agree throughout. -/

namespace IrAssembly

/-- An unfinished function, and the builders that were started on it. A builder goes on from the
function as the last change of any kind left it. -/
structure Construction where
  function : FunctionDef
  builders : List Builder

namespace Construction

def edit {α : Type} (site : Construction) (change : Edit α) : Construction :=
  { site with function := (change.run site.function).2 }

def startBuilder (site : Construction) (layout : DataLayout) : Construction :=
  match (Builder.start layout).run site.function with
  | (.ok builder, function) => ⟨function, builder :: site.builders⟩
  | (.error _, function) => { site with function := function }

/-- Carry out an operation of one of the builders, failed or not. -/
def operate (site : Construction) (index : Nat) (operation : Operation) : Construction :=
  match site.builders[index]? with
  | some builder =>
    let after := (operation.step { builder with function := site.function }).2
    ⟨after.function, site.builders.set index after⟩
  | none => site

inductive Reached : Construction → Prop where
  | fresh (name : String) (signature : Signature) :
      Reached ⟨{ name := name, signature := signature }, []⟩
  | reserve (reached : Reached site) (count : Nat) : Reached (site.edit (.reserveBlocks count))
  | splice (reached : Reached site) (position count : Nat) :
      Reached (site.edit (.spliceBlocks position count))
  | push (reached : Reached site) (instruction : Instruction)
      (existing : site.function.HasBlock ref) :
      Reached (site.edit (.pushInstruction ref instruction))
  | parameter (reached : Reached site) (ty : Ty) (name : String) :
      Reached (site.edit (.addParameter ty name))
  | symbol (reached : Reached site) (value : Value) : Reached (site.edit (.addSymbol value))
  | start (reached : Reached site) (layout : DataLayout) : Reached (site.startBuilder layout)
  | operate (reached : Reached site) (index : Nat) (operation : Operation) :
      Reached (site.operate index operation)

/-- The function is open and coherent, and every builder stands at one of its blocks. -/
structure Sound (site : Construction) : Prop where
  isOpen : site.function.finished = false
  coherent : site.function.Coherent
  current : ∀ builder ∈ site.builders, site.function.HasBlock builder.current

namespace Sound

variable {site : Construction}

/-- A change that succeeds and keeps the function coherent leaves the builders where they are. -/
theorem edit {α : Type} (sound : site.Sound) {change : Edit α} {result : Except Violation α}
    {function : FunctionDef} (ran : change.run site.function = (result, function))
    (isOpen : function.finished = false) (coherent : function.Coherent)
    (grows : site.function.Grows function) : (site.edit change).Sound := by
  have left : (site.edit change).function = function := congrArg Prod.snd ran
  refine ⟨left ▸ isOpen, left ▸ coherent, ?_⟩
  intro builder member
  rw [left]
  exact grows.hasBlock (sound.current builder member)

theorem startBuilder (sound : site.Sound) (layout : DataLayout) :
    (site.startBuilder layout).Sound := by
  have started := Builder.run_start sound.isOpen layout
  obtain ⟨ready, _, _⟩ := Builder.start_ready sound.isOpen sound.coherent started
  rw [Construction.startBuilder, started]
  refine ⟨ready.isOpen, ready.coherent, ?_⟩
  intro builder member
  rcases List.mem_cons.mp member with rfl | old
  · exact ready.current
  · exact (FunctionDef.Grows.reserve ..).hasBlock (sound.current builder old)

theorem operate (sound : site.Sound) (index : Nat) (operation : Operation) :
    (site.operate index operation).Sound := by
  unfold Construction.operate
  split
  · rename_i builder found
    have ready : Builder.Ready { builder with function := site.function } :=
      ⟨sound.isOpen, sound.coherent, sound.current builder (List.mem_of_getElem? found)⟩
    obtain ⟨effects, _⟩ := operation.step_effects ready
    have after := effects.ready ready
    refine ⟨after.isOpen, after.coherent, ?_⟩
    intro other member
    rcases List.mem_or_eq_of_mem_set member with old | rfl
    · exact effects.grows.hasBlock (sound.current other old)
    · exact after.current
  · exact sound

end Sound

theorem Reached.sound {site : Construction} (reached : Reached site) : site.Sound := by
  induction reached with
  | fresh name signature => exact ⟨rfl, .fresh .., by simp⟩
  | reserve _ count ih =>
    exact ih.edit (Edit.run_reserveBlocks ih.isOpen count) ih.isOpen (ih.coherent.reserve count)
      (.reserve ..)
  | splice _ position count ih =>
    exact ih.edit (Edit.run_spliceBlocks ih.isOpen position count) ih.isOpen
      (ih.coherent.splice position count) (.splice ..)
  | push _ instruction existing ih =>
    exact ih.edit (Edit.run_pushInstruction ih.isOpen _ instruction) ih.isOpen
      (ih.coherent.push existing instruction) (.push ..)
  | parameter _ ty name ih =>
    exact ih.edit (Edit.run_addParameter ih.isOpen ty name) ih.isOpen
      (ih.coherent.withParameter ty name) (.withParameter ..)
  | symbol _ value ih =>
    exact ih.edit (Edit.run_addSymbol ih.isOpen value) ih.isOpen (ih.coherent.withSymbols [value])
      (.withSymbols ..)
  | start _ layout ih => exact ih.startBuilder layout
  | operate _ index operation ih => exact ih.operate index operation

/-- Handles, positions and instruction numbers agree however a function is put together. -/
theorem function_coherent_of_reached {site : Construction} (reached : Reached site) :
    site.function.Coherent :=
  reached.sound.coherent

/-- A splice past the end, a block that a builder inserts in front of the new ones, and an
instruction in the last block. -/
theorem coherent_past_the_end : ∃ site : Construction, Reached site ∧
    site.function.order = [⟨0⟩, ⟨3⟩, ⟨1⟩, ⟨2⟩] ∧
    site.function.blocks.map Block.instructions = [[], [], [0], []] ∧ site.function.Coherent := by
  have started := (Reached.fresh "f" ⟨.void, [], false⟩).start .x86_64
  have inserted := (started.splice 7 2).operate 0 (.insertBlocks 1)
  have pushed := inserted.push .unreachable (show FunctionDef.HasBlock _ ⟨2⟩ from by
    unfold FunctionDef.HasBlock
    decide)
  exact ⟨_, pushed, by decide, by decide, function_coherent_of_reached pushed⟩

end Construction

/-- Carry out operations one after another, failed or not. -/
def Builder.carryOut (builder : Builder) (operations : List Operation) : Builder :=
  operations.foldl (fun builder operation => (operation.step builder).2) builder

theorem Builder.Ready.carryOut {builder : Builder} (ready : builder.Ready)
    (operations : List Operation) : (builder.carryOut operations).Ready := by
  induction operations generalizing builder with
  | nil => exact ready
  | cons operation operations ih => exact ih ((operation.step_effects ready).1.ready ready)

/-- The functions that a builder can be started on: they are put together by direct changes and by
builders that were done with them, in any order. -/
inductive FunctionDef.Unfinished : FunctionDef → Prop where
  | fresh (name : String) (signature : Signature) :
      Unfinished { name := name, signature := signature }
  | reserve (unfinished : Unfinished function) (count : Nat) : Unfinished (function.reserve count)
  | splice (unfinished : Unfinished function) (position count : Nat) :
      Unfinished (function.splice position count).2
  | push (unfinished : Unfinished function) (existing : function.HasBlock ref)
      (instruction : Instruction) : Unfinished (function.push ref instruction).2
  | parameter (unfinished : Unfinished function) (ty : Ty) (name : String) :
      Unfinished (function.withParameter ty name).2
  | symbol (unfinished : Unfinished function) (value : Value) :
      Unfinished (function.withSymbols [value])
  | nameBlock (unfinished : Unfinished function) (ref : BlockRef) (name : Option String) :
      Unfinished (function.nameBlock ref name)
  | renameResult (unfinished : Unfinished function) (id : InstId) (name : String) :
      Unfinished (function.renameResult id name)
  | build (unfinished : Unfinished function)
      (started : (Builder.start layout).run function = (.ok builder, after))
      (operations : List Operation) : Unfinished (builder.carryOut operations).function

theorem FunctionDef.Unfinished.sound {function : FunctionDef} (unfinished : function.Unfinished) :
    function.finished = false ∧ function.Coherent := by
  induction unfinished with
  | fresh name signature => exact ⟨rfl, .fresh ..⟩
  | reserve _ count ih => exact ⟨ih.1, ih.2.reserve count⟩
  | splice _ position count ih => exact ⟨ih.1, ih.2.splice position count⟩
  | push _ existing instruction ih => exact ⟨ih.1, ih.2.push existing instruction⟩
  | parameter _ ty name ih => exact ⟨ih.1, ih.2.withParameter ty name⟩
  | symbol _ value ih => exact ⟨ih.1, ih.2.withSymbols [value]⟩
  | nameBlock _ ref name ih => exact ⟨ih.1, ih.2.nameBlock ref name⟩
  | renameResult _ id name ih => exact ⟨ih.1, ih.2.renameResult id name⟩
  | build _ started operations ih =>
    have ready := (Builder.start_ready ih.1 ih.2 started).1.carryOut operations
    exact ⟨ready.isOpen, ready.coherent⟩

/-- The states that a builder can be in: after any operations, from the start on a function that is
not finished. -/
inductive Builder.Reachable : Builder → Prop where
  | run {function after : FunctionDef} {layout : DataLayout} {builder : Builder}
      (unfinished : function.Unfinished)
      (started : (start layout).run function = (.ok builder, after))
      (operations : List Operation) : Reachable (builder.carryOut operations)

theorem Builder.Reachable.ready {builder : Builder} (reachable : builder.Reachable) :
    builder.Ready := by
  cases reachable with
  | run unfinished started operations =>
    obtain ⟨isOpen, coherent⟩ := unfinished.sound
    exact (start_ready isOpen coherent started).1.carryOut operations

end IrAssembly
