import IrAssembly.Proofs.Builder.Parameters

/-! What can still be changed in a finished function. Most methods ask first whether the function
is open. Two do not: those that hand out a block or an instruction for writing. So after
`exitFunction` the contents of blocks and instructions may still change, and nothing else. -/

namespace IrAssembly

/-- Why a method stops: it broke a rule, or its index is outside the arena. -/
inductive Panic where
  | violated (violation : Violation)
  | outOfBounds (index length : Nat)
  deriving DecidableEq, Repr

/-- A change of a function definition that may stop halfway. -/
abbrev Change := ExceptT Panic (StateM FunctionDef)

/-- A method that changes a function definition, with its arguments. One that hands out a part for
writing comes with what its caller then writes, which may be anything. -/
inductive Mutation where
  | addParameter (ty : Ty) (name : String)
  | reserveBlocks (count : Nat)
  | spliceBlocks (position count : Nat)
  | pushInstruction (block : BlockRef) (instruction : Instruction)
  | changeSymbols (change : List Value → List Value)
  | changeBlock (block : BlockRef) (change : Block → Block)
  | changeInstruction (id : InstId) (change : Instruction → Instruction)
  | exitFunction
  | startBuilder (layout : DataLayout)

namespace FunctionDef

def changeBlock (function : FunctionDef) (block : BlockRef) (change : Block → Block) :
    FunctionDef :=
  { function with blocks := function.blocks.modify block.id change }

def changeInstruction (function : FunctionDef) (id : InstId)
    (change : Instruction → Instruction) : FunctionDef :=
  { function with instructions := function.instructions.modify id change }

variable {function : FunctionDef}

theorem block?_changeBlock_of_ne {block ref : BlockRef} (apart : block ≠ ref)
    (change : Block → Block) :
    (function.changeBlock block change).block? ref = function.block? ref :=
  List.getElem?_modify_ne change _ fun same => apart (congrArg BlockRef.mk same)

theorem instruction?_changeInstruction_of_ne {id other : InstId} (apart : id ≠ other)
    (change : Instruction → Instruction) :
    (function.changeInstruction id change).instruction? other = function.instruction? other :=
  List.getElem?_modify_ne change _ apart

/-- To label a block is to write to it. -/
theorem nameBlock_eq_changeBlock (function : FunctionDef) (block : BlockRef)
    (name : Option String) :
    function.nameBlock block name = function.changeBlock block ({ · with name := name }) := rfl

theorem renameResult_eq_changeInstruction (function : FunctionDef) (id : InstId) (name : String) :
    function.renameResult id name =
      function.changeInstruction id (·.mapResult ({ · with name := name })) := rfl

end FunctionDef

namespace Change

def ofEdit {α : Type} (edit : Edit α) : Change Unit := fun function =>
  match edit.run.run function with
  | (.ok _, after) => (.ok (), after)
  | (.error violation, after) => (.error (.violated violation), after)

/-- Look up an arena of this length at an index. -/
def within (index length : Nat) : Change Unit :=
  if length ≤ index then throw (.outOfBounds index length) else pure ()

end Change

namespace Mutation

open Change

def perform : Mutation → Change Unit
  | addParameter ty name => ofEdit (Edit.addParameter ty name)
  | reserveBlocks count => ofEdit (Edit.reserveBlocks count)
  | spliceBlocks position count => ofEdit (Edit.spliceBlocks position count)
  | pushInstruction block instruction => do
    ofEdit (Edit.pushInstruction block instruction)
    within block.id (← get).blocks.length
  | changeSymbols change => do
    ofEdit Edit.requireOpen
    modify fun function => { function with symbols := change function.symbols }
  | changeBlock block change => do
    within block.id (← get).blocks.length
    modify fun function => function.changeBlock block change
  | changeInstruction id change => do
    within id (← get).instructions.length
    modify fun function => function.changeInstruction id change
  | exitFunction => ofEdit Edit.exitFunction
  | startBuilder layout => ofEdit (Builder.start layout)

/-- The methods that ask whether the function is open. -/
def isGuarded : Mutation → Bool
  | changeBlock .. | changeInstruction .. => false
  | _ => true

/-- Call methods one after the other, as far as none of them stops. -/
def performAll : List Mutation → Change Unit
  | [] => pure ()
  | mutation :: mutations => do
    mutation.perform
    performAll mutations

/-- The function after several calls, each of which may have stopped. -/
def remains (mutations : List Mutation) (function : FunctionDef) : FunctionDef :=
  mutations.foldl (fun function mutation => (mutation.perform function).2) function

variable {function sealed : FunctionDef}

/-! One call -/

/-- The answer of a method that found the function finished. -/
abbrev refusal (function : FunctionDef) : Except Panic Unit × FunctionDef :=
  (.error (.violated (.alreadyFinished function.name)), function)

theorem perform_of_guarded {mutation : Mutation} (guarded : mutation.isGuarded)
    (done : function.finished = true) : mutation.perform function = refusal function := by
  cases function
  subst done
  cases mutation with
  | changeBlock | changeInstruction => cases guarded
  | _ => rfl

theorem perform_changeBlock (function : FunctionDef) (block : BlockRef) (change : Block → Block) :
    (changeBlock block change).perform function =
      if function.blocks.length ≤ block.id then
        (.error (.outOfBounds block.id function.blocks.length), function)
      else (.ok (), function.changeBlock block change) := by
  change (within block.id function.blocks.length >>= fun _ => _ : Change Unit) function = _
  rw [within]
  split <;> rfl

theorem perform_changeInstruction (function : FunctionDef) (id : InstId)
    (change : Instruction → Instruction) :
    (changeInstruction id change).perform function =
      if function.instructions.length ≤ id then
        (.error (.outOfBounds id function.instructions.length), function)
      else (.ok (), function.changeInstruction id change) := by
  change (within id function.instructions.length >>= fun _ => _ : Change Unit) function = _
  rw [within]
  split <;> rfl

/-- A method refuses a finished function exactly if it asks. -/
theorem perform_eq_refusal_iff (mutation : Mutation) (done : function.finished = true) :
    mutation.perform function = refusal function ↔ mutation.isGuarded := by
  refine ⟨fun refused => ?_, fun guarded => perform_of_guarded guarded done⟩
  cases mutation with
  | changeBlock block change =>
    rw [perform_changeBlock] at refused
    split at refused <;> cases refused
  | changeInstruction id change =>
    rw [perform_changeInstruction] at refused
    split at refused <;> cases refused
  | _ => rfl

/-! What calls can reach -/

/-- The function differs at most inside the blocks and instructions that were written to. -/
structure Retouches (mutations : List Mutation) (before after : FunctionDef) : Prop where
  name : after.name = before.name
  signature : after.signature = before.signature
  parameters : after.parameters = before.parameters
  order : after.order = before.order
  symbols : after.symbols = before.symbols
  finished : after.finished = before.finished
  blockCount : after.blocks.length = before.blocks.length
  instructionCount : after.instructions.length = before.instructions.length
  blocks : ∀ ref, (∀ change, changeBlock ref change ∉ mutations) →
    after.block? ref = before.block? ref
  instructions : ∀ id, (∀ change, changeInstruction id change ∉ mutations) →
    after.instruction? id = before.instruction? id

theorem Retouches.refl (mutations : List Mutation) (function : FunctionDef) :
    Retouches mutations function function :=
  ⟨rfl, rfl, rfl, rfl, rfl, rfl, rfl, rfl, fun _ _ => rfl, fun _ _ => rfl⟩

theorem Retouches.cons {mutation : Mutation} {mutations : List Mutation}
    {before between after : FunctionDef} (first : Retouches [mutation] before between)
    (others : Retouches mutations between after) :
    Retouches (mutation :: mutations) before after where
  name := others.name.trans first.name
  signature := others.signature.trans first.signature
  parameters := others.parameters.trans first.parameters
  order := others.order.trans first.order
  symbols := others.symbols.trans first.symbols
  finished := others.finished.trans first.finished
  blockCount := others.blockCount.trans first.blockCount
  instructionCount := others.instructionCount.trans first.instructionCount
  blocks ref untouched :=
    (others.blocks ref fun change member => untouched change (.tail _ member)).trans
      (first.blocks ref fun change member => by
        cases List.mem_singleton.mp member
        exact untouched change (.head _))
  instructions id untouched :=
    (others.instructions id fun change member => untouched change (.tail _ member)).trans
      (first.instructions id fun change member => by
        cases List.mem_singleton.mp member
        exact untouched change (.head _))

theorem retouches_changeBlock (function : FunctionDef) (block : BlockRef)
    (change : Block → Block) :
    Retouches [changeBlock block change] function (function.changeBlock block change) := by
  refine { Retouches.refl _ function with
    blockCount := List.length_modify ..
    blocks := fun ref untouched => FunctionDef.block?_changeBlock_of_ne ?_ change }
  rintro rfl
  exact untouched change (List.mem_singleton_self _)

theorem retouches_changeInstruction (function : FunctionDef) (id : InstId)
    (change : Instruction → Instruction) :
    Retouches [changeInstruction id change] function (function.changeInstruction id change) := by
  refine { Retouches.refl _ function with
    instructionCount := List.length_modify ..
    instructions := fun other untouched =>
      FunctionDef.instruction?_changeInstruction_of_ne ?_ change }
  rintro rfl
  exact untouched change (List.mem_singleton_self _)

theorem perform_retouches (mutation : Mutation) (done : function.finished = true) :
    Retouches [mutation] function (mutation.perform function).2 := by
  cases mutation with
  | changeBlock block change =>
    rw [perform_changeBlock]
    split
    · exact .refl ..
    · exact retouches_changeBlock ..
  | changeInstruction id change =>
    rw [perform_changeInstruction]
    split
    · exact .refl ..
    · exact retouches_changeInstruction ..
  | _ =>
    rw [perform_of_guarded rfl done]
    exact .refl ..

theorem remains_retouches (mutations : List Mutation) (done : function.finished = true) :
    Retouches mutations function (remains mutations function) := by
  induction mutations generalizing function with
  | nil => exact .refl ..
  | cons mutation mutations ih =>
    have first := perform_retouches mutation done
    exact first.cons (ih (first.finished.trans done))

/-- Methods that ask leave a finished function alone, however many are called. -/
theorem remains_of_guarded {mutations : List Mutation} (done : function.finished = true)
    (guarded : ∀ mutation ∈ mutations, mutation.isGuarded) :
    remains mutations function = function := by
  induction mutations with
  | nil => rfl
  | cons mutation mutations ih =>
    obtain ⟨first, others⟩ := List.forall_mem_cons.mp guarded
    have kept := congrArg Prod.snd (perform_of_guarded first done)
    exact (congrArg (remains mutations) kept).trans (ih others)

/-- A sequence of calls ends where the function is found finished. -/
theorem performAll_of_guarded {mutation : Mutation} (guarded : mutation.isGuarded)
    (done : function.finished = true) (later : List Mutation) :
    performAll (mutation :: later) function = refusal function := by
  have refused := perform_of_guarded guarded done
  simp only [performAll, bind, ExceptT.bind, ExceptT.mk, StateT.bind]
  rw [refused]
  rfl

/-! After the end -/

theorem finished_of_exited (exited : Edit.exitFunction.run.run function = (.ok (), sealed)) :
    sealed.finished = true := by
  cases already : function.finished with
  | true =>
    have refused : exitFunction.perform function = refusal function :=
      perform_of_guarded rfl already
    simp only [perform, ofEdit, exited] at refused
    cases refused
  | false =>
    rw [(Edit.of_exitFunction already exited).2]

/-- A function that was finished refuses every method that asks, whatever was called before, and
stays as it is; a sequence of calls stops at the first of them. The two methods that do not ask
reach nothing but the inside of the block or instruction they hand out. -/
theorem refused_iff_guarded (exited : Edit.exitFunction.run.run function = (.ok (), sealed))
    (earlier : List Mutation) :
    Retouches earlier sealed (remains earlier sealed) ∧
    ((∀ mutation ∈ earlier, mutation.isGuarded) → remains earlier sealed = sealed) ∧
    ∀ mutation,
      (mutation.perform (remains earlier sealed) =
          (.error (.violated (.alreadyFinished sealed.name)), remains earlier sealed) ↔
        mutation.isGuarded) ∧
      ∀ later, mutation.isGuarded →
        performAll (mutation :: later) (remains earlier sealed) =
          (.error (.violated (.alreadyFinished sealed.name)), remains earlier sealed) := by
  have done := finished_of_exited exited
  have touched := remains_retouches earlier done
  have stillDone := touched.finished.trans done
  refine ⟨touched, remains_of_guarded done, fun mutation => ?_⟩
  rw [← touched.name]
  exact ⟨perform_eq_refusal_iff mutation stillDone,
    fun later guarded => performAll_of_guarded guarded stillDone later⟩

/-- A finished function with one empty return, and what writing a label to its block makes of it. -/
theorem refused_after_label :
    let returning : FunctionDef :=
      ⟨"f", ⟨.void, [], false⟩, [], [⟨⟨0⟩, 0, none, [0]⟩], [⟨0⟩], [.ret none], [], false⟩
    let sealed := { returning with finished := true }
    let labelled := sealed.nameBlock ⟨0⟩ (some "late")
    Edit.exitFunction.run.run returning = (.ok (), sealed) ∧
    (pushInstruction ⟨0⟩ (.ret none)).perform labelled =
      (.error (.violated (.alreadyFinished "f")), labelled) := by
  intro returning sealed labelled
  have exited : Edit.exitFunction.run.run returning = (.ok (), sealed) := rfl
  have refused :=
    (refused_iff_guarded exited [changeBlock ⟨0⟩ ({ · with name := some "late" })]).2.2
  exact ⟨exited, (refused (pushInstruction ⟨0⟩ (.ret none))).1.mpr rfl⟩

/-- The method that hands out a block does not ask, and the label of a finished function changes. -/
theorem label_changed_after_exit :
    let returning : FunctionDef :=
      ⟨"f", ⟨.void, [], false⟩, [], [⟨⟨0⟩, 0, none, [0]⟩], [⟨0⟩], [.ret none], [], false⟩
    let sealed := { returning with finished := true }
    Edit.exitFunction.run.run returning = (.ok (), sealed) ∧
    (changeBlock ⟨0⟩ ({ · with name := some "late" })).perform sealed =
      (.ok (), sealed.nameBlock ⟨0⟩ (some "late")) ∧
    sealed.nameBlock ⟨0⟩ (some "late") ≠ sealed :=
  ⟨rfl, rfl, by decide⟩

end Mutation

end IrAssembly
