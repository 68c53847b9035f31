import IrAssembly.Proofs.Builder.Session
import IrAssembly.Proofs.Function.Labels

/-! The names that building gives: blocks are labelled by their positions as they are entered,
parameters and unnamed results are numbered as they are made. -/

namespace IrAssembly

/-- The number of results among the first instructions of the arena. -/
def FunctionDef.resultCount (function : FunctionDef) (count : Nat) : Nat :=
  (function.instructions.take count).countP fun instruction => instruction.result?.isSome

theorem FunctionDef.resultCount_mono (function : FunctionDef) {fewer more : Nat}
    (le : fewer ≤ more) : function.resultCount fewer ≤ function.resultCount more :=
  (List.take_sublist_take_left le).countP_le

/-- An instruction with a result counts. -/
theorem FunctionDef.resultCount_succ {function : FunctionDef} {id : InstId}
    {instruction : Instruction} (found : function.instruction? id = some instruction) :
    function.resultCount (id + 1) =
      function.resultCount id + if instruction.result?.isSome then 1 else 0 := by
  rw [resultCount, List.take_add_one, List.countP_append]
  congr 1
  rw [instruction?] at found
  simp [found, List.countP_cons]

namespace Builder

/-- The blocks after the first one, up to the current one, are labelled by their positions. No
other block has a label. -/
def Labelled (builder : Builder) : Prop :=
  ∀ position, builder.function.labelAt position =
    if 0 < position ∧ position ≤ builder.position then some ("label_" ++ toString position)
    else none

/-- Parameters are named by their numbers, which start at one. -/
structure ParametersNumbered (builder : Builder) : Prop where
  next : builder.argCounter = builder.function.parameters.length + 1
  names : ∀ (index : Nat) (parameter : Parameter),
    builder.function.parameters[index]? = some parameter →
      parameter.name = "arg_" ++ toString (index + 1)

/-- No name is given in advance, and each result is named by the number of results up to it. -/
structure ResultsNumbered (builder : Builder) : Prop where
  unnamed : builder.nextName = none
  next : builder.counter =
    builder.function.resultCount builder.function.instructions.length + 1
  names : ∀ (id : InstId) (instruction : Instruction) (slot : ResultSlot),
    builder.function.instruction? id = some instruction → instruction.result? = some slot →
      slot.name = toString (builder.function.resultCount (id + 1))

variable {builder after : Builder}

/-! Positions of the current block -/

theorem Ready.placed (ready : builder.Ready) :
    builder.function.order[builder.position]? = some builder.current :=
  ready.coherent.order_indexOf ready.current

/-- The current block keeps its position if no block is put in front of it. -/
theorem Ready.position_eq (ready : builder.Ready) (afterReady : after.Ready)
    (current : after.current = builder.current)
    (order : after.function.order[builder.position]? =
      builder.function.order[builder.position]?) : after.position = builder.position := by
  rw [position, current]
  exact afterReady.coherent.indexOf_of_order (order.trans ready.placed)

theorem Ready.position_lt (ready : builder.Ready) :
    builder.position < builder.function.order.length :=
  (List.getElem?_eq_some_iff.mp ready.placed).1

theorem position_append (ready : builder.Ready) (operands : List Value)
    (instruction : Instruction) :
    (builder.append operands instruction).position = builder.position := by
  have coherent : (builder.append operands instruction).function.Coherent := by
    rw [append_function]
    exact (ready.coherent.withSymbols operands).push ready.current instruction
  rw [position, append_current]
  apply coherent.indexOf_of_order
  rw [append_function]
  exact ready.placed

theorem position_reserve (ready : builder.Ready) (count : Nat) :
    (builder.reserve count).position = builder.position := by
  refine ready.position_eq (ready.reserve count) rfl ?_
  simp only [reserve, FunctionDef.reserve]
  exact List.getElem?_append_left ready.position_lt

theorem position_insertBlocks (ready : builder.Ready) (count : Nat) :
    (builder.insertBlocks count).position = builder.position := by
  have effect : Effect [] [] [] builder (builder.insertBlocks count) := .insert count
  refine ready.position_eq (effect.ready ready) rfl ?_
  have bound : builder.position + 1 ≤ builder.function.order.length := ready.position_lt
  simp only [insertBlocks, FunctionDef.splice, Nat.min_eq_left bound, List.append_assoc]
  rw [List.getElem?_append_left (by simp [List.length_take_of_le bound]),
    List.getElem?_take_of_lt (Nat.lt_succ_self _)]

/-- The block that is entered next stands behind the current one. -/
theorem enterNext_placed (builder : Builder) :
    (builder.reserve (builder.position + 1 + 1)).function.order[builder.position + 1]? =
      some builder.enterNext.current := by
  have bound : builder.position + 1 <
      (builder.function.reserve (builder.position + 1 + 1)).order.length :=
    FunctionDef.lt_length_order_reserve (Nat.lt_succ_self _)
  simp [enterNext, enter, reserve, FunctionDef.refAt?, bound]

theorem enterNext_order (builder : Builder) :
    builder.enterNext.function.order =
      (builder.reserve (builder.position + 1 + 1)).function.order := by
  simp only [enterNext, enter]
  split <;> rfl

theorem position_enterNext (ready : builder.Ready) :
    builder.enterNext.position = builder.position + 1 := by
  refine ready.enterNext.coherent.indexOf_of_order ?_
  rw [enterNext_order]
  exact builder.enterNext_placed

/-- Entering the next block labels it by its position if it has no label. -/
theorem labelAt_enterNext (ready : builder.Ready)
    (unlabelled : builder.function.labelAt (builder.position + 1) = none) (position : Nat) :
    builder.enterNext.function.labelAt position =
      if position = builder.position + 1 then some ("label_" ++ toString position)
      else builder.function.labelAt position := by
  let reserved := builder.function.reserve (builder.position + 1 + 1)
  have coherent : reserved.Coherent := ready.coherent.reserve _
  have placed : reserved.order[builder.position + 1]? = some builder.enterNext.current :=
    builder.enterNext_placed
  have unnamed : (reserved.block? builder.enterNext.current).bind Block.name = none := by
    have label := FunctionDef.labelAt_of_order placed
    rw [FunctionDef.labelAt_reserve, unlabelled] at label
    exact label.symm
  have entered : builder.enterNext.function = reserved.nameBlock builder.enterNext.current
      (some ("label_" ++ toString (builder.position + 1))) :=
    if_pos (Option.isNone_iff_eq_none.mpr unnamed)
  rw [entered, FunctionDef.labelAt_nameBlock coherent placed, FunctionDef.labelAt_reserve]
  by_cases next : position = builder.position + 1
  · rw [if_pos next, if_pos next, next]
  · rw [if_neg next, if_neg next]

/-! The names after an appended instruction -/

theorem append_nextName (unnamed : builder.nextName = none) (operands : List Value)
    (instruction : Instruction) : (builder.append operands instruction).nextName = none := by
  simp only [append, push]
  split <;> simp [spendName, register, unnamed]

theorem append_counter (unnamed : builder.nextName = none) (operands : List Value)
    (instruction : Instruction) : (builder.append operands instruction).counter =
      builder.counter + if instruction.result?.isSome then 1 else 0 := by
  simp only [append, push]
  split <;> simp [spendName, register, unnamed]

theorem append_argCounter (builder : Builder) (operands : List Value)
    (instruction : Instruction) :
    (builder.append operands instruction).argCounter = builder.argCounter := by
  simp only [append, push, spendName]
  split
  · split <;> rfl
  · rfl

end Builder

namespace Effect

variable {values : List Value} {blocks : List BlockRef} {names : List String}
  {builder after : Builder}

theorem labelled (effect : Effect values blocks names builder after) (ready : builder.Ready)
    (labelled : builder.Labelled) : after.Labelled := by
  intro position
  cases effect with
  | register operands known => exact labelled position
  | append operands instruction known aims consecutive named typed checked =>
    rw [Builder.position_append ready, Builder.append_function, FunctionDef.labelAt_push]
    exact labelled position
  | parameter ty => exact labelled position
  | setName name given => exact labelled position
  | reserve count =>
    rw [Builder.position_reserve ready]
    exact (FunctionDef.labelAt_reserve ..).trans (labelled position)
  | insert count =>
    rw [Builder.position_insertBlocks ready]
    have bound : builder.position + 1 ≤ builder.function.order.length := ready.position_lt
    refine (FunctionDef.labelAt_splice bound position).trans ?_
    have beyond (index : Nat) (le : builder.position + 1 ≤ index) :
        builder.function.labelAt index = none := by
      rw [labelled, if_neg (by omega)]
    by_cases front : position < builder.position + 1
    · rw [if_pos front]
      exact labelled position
    · rw [if_neg front, if_neg (by omega : ¬ (0 < position ∧ position ≤ builder.position))]
      by_cases new : position < builder.position + 1 + count
      · rw [if_pos new]
      · rw [if_neg new]
        exact beyond _ (by omega)
  | enter =>
    have unlabelled : builder.function.labelAt (builder.position + 1) = none := by
      rw [labelled, if_neg (by omega)]
    rw [Builder.labelAt_enterNext ready unlabelled, Builder.position_enterNext ready]
    by_cases next : position = builder.position + 1
    · rw [if_pos next, if_pos (by omega)]
    · rw [if_neg next, labelled]
      exact if_congr (by omega) rfl rfl

theorem parametersNumbered (effect : Effect values blocks names builder after)
    (numbered : builder.ParametersNumbered) : after.ParametersNumbered := by
  obtain ⟨next, names⟩ := numbered
  cases effect with
  | append operands instruction known aims consecutive named typed checked =>
    constructor
    · rw [Builder.append_argCounter, Builder.append_function]
      exact next
    · rw [Builder.append_function]
      exact names
  | parameter ty =>
    constructor
    · simp [Builder.addParameter, FunctionDef.withParameter, next]
    · intro index parameter found
      rcases FunctionDef.getElem?_append_cases found with old | ⟨offset, rfl, new⟩
      · exact names index parameter old
      · obtain ⟨rfl, rfl⟩ : offset = 0 ∧ _ = parameter := by
          simpa [List.getElem?_singleton] using new
        simp [next]
  | enter =>
    obtain ⟨parameters, _⟩ := builder.enterNext_tables
    exact ⟨by rw [parameters]; exact next, by rw [parameters]; exact names⟩
  | _ => exact ⟨next, names⟩

/-- As long as no name is given, results are numbered in the order of the arena. -/
theorem resultsNumbered (effect : Effect values blocks [] builder after)
    (numbered : builder.ResultsNumbered) : after.ResultsNumbered := by
  obtain ⟨unnamed, next, names⟩ := numbered
  cases effect with
  | append operands instruction known aims consecutive named typed checked =>
    have arena := builder.append_instructions operands instruction
    have counted {count : Nat} (bound : count ≤ builder.function.instructions.length) :
        (builder.append operands instruction).function.resultCount count =
          builder.function.resultCount count := by
      rw [FunctionDef.resultCount, arena, List.take_append_of_le_length bound]
      rfl
    have newest : (builder.append operands instruction).function.instruction?
        builder.function.instructions.length = some instruction := by
      rw [FunctionDef.instruction?, arena, List.getElem?_concat_length]
    have total := (FunctionDef.resultCount_succ newest).trans
      (congrArg (· + _) (counted (Nat.le_refl _)))
    constructor
    · exact Builder.append_nextName unnamed ..
    · rw [Builder.append_counter unnamed, arena, List.length_append, List.length_singleton, total,
        next, Nat.add_right_comm]
    · intro id other slot found result
      rw [FunctionDef.instruction?, arena] at found
      rcases FunctionDef.getElem?_append_cases found with old | ⟨offset, rfl, new⟩
      · rw [counted (List.getElem?_eq_some_iff.mp old).1]
        exact names id other slot old result
      · obtain ⟨rfl, rfl⟩ : offset = 0 ∧ instruction = other := by
          simpa [List.getElem?_singleton] using new
        rw [Nat.add_zero, total, named slot result, Builder.resultName, unnamed, result, next]
        rfl
  | setName name given => cases given
  | enter =>
    obtain ⟨_, instructions, _⟩ := builder.enterNext_tables
    have counts : builder.enterNext.function.resultCount = builder.function.resultCount := by
      funext count
      rw [FunctionDef.resultCount, instructions]
      rfl
    refine ⟨unnamed, ?_, ?_⟩
    · rw [instructions, counts]
      exact next
    · rw [counts]
      intro id instruction slot found
      rw [FunctionDef.instruction?, instructions] at found
      exact names id instruction slot found
  | _ => exact ⟨unnamed, next, names⟩

end Effect

namespace Session

variable {permits : Session → Operation → Prop} {session : Session}

/-- The operation gives no name to a result. -/
def NamesNothing (_ : Session) (operation : Operation) : Prop := operation.names = []

instance (session : Session) : DecidablePred session.NamesNothing :=
  fun operation => inferInstanceAs (Decidable (operation.names = []))

theorem Reached.labelled (reached : Reached permits session) : session.builder.Labelled := by
  induction reached with
  | start started =>
    rw [Builder.run_start rfl] at started
    cases started
    intro position
    refine (FunctionDef.labelAt_reserve ..).trans ?_
    rw [FunctionDef.labelAt_of_length_le (Nat.zero_le _), if_neg]
    exact fun ⟨positive, le⟩ => Nat.not_lt_zero _ (Nat.lt_of_lt_of_le positive le)
  | step reached operation _ ih =>
    exact (reached.sound.effects operation).1.keeps reached.sound.ready ih Effect.labelled

theorem Reached.parametersNumbered (reached : Reached permits session) :
    session.builder.ParametersNumbered := by
  induction reached with
  | start started =>
    rw [Builder.run_start rfl] at started
    cases started
    exact ⟨rfl, by simp [FunctionDef.reserve]⟩
  | step reached operation _ ih =>
    exact (reached.sound.effects operation).1.keeps reached.sound.ready ih
      fun effect _ => effect.parametersNumbered

theorem Reached.resultsNumbered (reached : Reached NamesNothing session) :
    session.builder.ResultsNumbered := by
  induction reached with
  | start started =>
    rw [Builder.run_start rfl] at started
    cases started
    exact ⟨rfl, rfl, by simp [FunctionDef.reserve, FunctionDef.instruction?]⟩
  | step reached operation nothing ih =>
    have effects := (reached.sound.effects operation).1
    rw [show operation.names = [] from nothing] at effects
    exact effects.keeps reached.sound.ready ih fun effect _ => effect.resultsNumbered

end Session

end IrAssembly
