import IrAssembly.Proofs.Builder.Naming
import IrAssembly.Proofs.Function.Sequence

/-! Building goes forward: nothing stands behind the current block yet, so the order in which
instructions are made is the order in which they are read. -/

namespace IrAssembly

/-- The instructions are read in the order in which they were made, and the blocks behind the
current one are empty. -/
structure Builder.InSequence (builder : Builder) : Prop where
  made : builder.function.sequence = List.range builder.function.instructions.length
  behind : ∀ ref ∈ builder.function.order.drop (builder.position + 1),
    builder.function.idsOf ref = []

namespace Builder.InSequence

variable {builder : Builder}

theorem append (inSequence : builder.InSequence) (ready : builder.Ready) (operands : List Value)
    (instruction : Instruction) : (builder.append operands instruction).InSequence := by
  have coherent := ready.coherent.withSymbols operands
  constructor
  · rw [append_function, FunctionDef.sequence_push coherent ready.placed inSequence.behind]
    simp only [FunctionDef.push, List.length_append, List.length_singleton, List.range_succ]
    exact congrArg (· ++ _) inSequence.made
  · intro ref member
    rw [position_append ready, append_function] at member
    obtain ⟨offset, placed⟩ := List.getElem?_of_mem member
    -- the current block stands once in the order, and not behind itself
    have differ : ref ≠ builder.current := by
      rintro rfl
      have positions := ready.coherent.indexOf_of_order (List.getElem?_drop.symm.trans placed)
      have own : builder.function.indexOf builder.current = builder.position := rfl
      omega
    rw [append_function, FunctionDef.idsOf_push_ne differ]
    exact inSequence.behind ref member

theorem reserve (inSequence : builder.InSequence) (ready : builder.Ready) (count : Nat) :
    (builder.reserve count).InSequence := by
  constructor
  · exact (FunctionDef.sequence_reserve ..).trans inSequence.made
  · intro ref member
    rw [position_reserve ready] at member
    have ids := congrFun (FunctionDef.idsOf_reserve builder.function count) ref
    refine ids.trans ?_
    simp only [Builder.reserve, FunctionDef.reserve] at member
    rw [List.drop_append_of_le_length ready.position_lt] at member
    rcases List.mem_append.mp member with old | new
    · exact inSequence.behind ref old
    · exact FunctionDef.idsOf_of_mem_freshRefs new

theorem insertBlocks (inSequence : builder.InSequence) (ready : builder.Ready) (count : Nat) :
    (builder.insertBlocks count).InSequence := by
  have bound : builder.position + 1 ≤ builder.function.order.length := ready.position_lt
  constructor
  · exact (FunctionDef.sequence_splice ..).trans inSequence.made
  · intro ref member
    rw [position_insertBlocks ready] at member
    have ids := congrFun
      (FunctionDef.idsOf_splice builder.function (builder.position + 1) count) ref
    refine ids.trans ?_
    simp only [Builder.insertBlocks, FunctionDef.splice, Nat.min_eq_left bound,
      List.append_assoc] at member
    rw [List.drop_left' (List.length_take_of_le bound)] at member
    rcases List.mem_append.mp member with new | old
    · exact FunctionDef.idsOf_of_mem_freshRefs new
    · exact inSequence.behind ref old

theorem enterNext (inSequence : builder.InSequence) (ready : builder.Ready) :
    builder.enterNext.InSequence := by
  have reserved := inSequence.reserve ready (builder.position + 1 + 1)
  have ids : builder.enterNext.function.idsOf =
      (builder.reserve (builder.position + 1 + 1)).function.idsOf := by
    simp only [Builder.enterNext, enter]
    split
    · exact FunctionDef.idsOf_nameBlock ..
    · rfl
  constructor
  · rw [builder.enterNext_tables.2.1, FunctionDef.sequence, enterNext_order, ids]
    exact reserved.made
  · intro ref member
    rw [position_enterNext ready, enterNext_order] at member
    rw [ids]
    apply reserved.behind
    rw [position_reserve ready]
    exact List.drop_subset_drop_left _ (Nat.le_succ _) member

end Builder.InSequence

namespace Effect

variable {values : List Value} {blocks : List BlockRef} {names : List String}
  {builder after : Builder}

theorem inSequence (effect : Effect values blocks names builder after) (ready : builder.Ready)
    (inSequence : builder.InSequence) : after.InSequence := by
  cases effect with
  | append operands instruction known aims consecutive named typed checked =>
    exact inSequence.append ready operands instruction
  | reserve count => exact inSequence.reserve ready count
  | insert count => exact inSequence.insertBlocks ready count
  | enter => exact inSequence.enterNext ready
  | register operands known => exact ⟨inSequence.made, inSequence.behind⟩
  | parameter ty => exact ⟨inSequence.made, inSequence.behind⟩
  | setName name given => exact ⟨inSequence.made, inSequence.behind⟩

end Effect

namespace Session

variable {permits : Session → Operation → Prop} {session : Session}

theorem Reached.inSequence (reached : Reached permits session) : session.builder.InSequence := by
  induction reached with
  | start started =>
    rw [Builder.run_start rfl] at started
    cases started
    refine ⟨FunctionDef.sequence_reserve .., fun ref _ => ?_⟩
    refine (congrFun (FunctionDef.idsOf_reserve ..) ref).trans ?_
    simp [FunctionDef.idsOf, FunctionDef.block?]
  | step reached operation _ ih =>
    exact (reached.sound.effects operation).1.keeps reached.sound.ready ih Effect.inSequence

end Session

end IrAssembly
