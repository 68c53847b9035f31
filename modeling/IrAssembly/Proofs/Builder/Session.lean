import IrAssembly.Proofs.Builder.Patterns

/-! Sessions: a caller starts a builder on a fresh function and carries out operations, failed ones
included, on values and blocks that it was handed. Whatever the operations, the function stays
coherent and well typed. -/

namespace IrAssembly

/-- The values that an operation mentions. -/
def Operation.values : Operation → List Value
  | allocateArray _ value | load value | atomicLoad value .. | cast _ _ value
  | extractElement value _ | extractValue value _ | conditionalBranch value .. | ret value
  | indirectBranch value _ | literalSwitch value .. | returnWithCast value | vaStart value
  | vaEnd value | vaArg value _ | vaArgStackOnly value _ => [value]
  | store first second _ | atomicStore first second .. | binary _ first second
  | binaryWithFlags _ _ first second | compare _ first second | insertElement first second _
  | insertValue first second _ => [first, second]
  | select first second third | shuffleVector first second third => [first, second, third]
  | storeOperand value operand _ | insertOperand value operand _ => value :: operand.values
  | binaryOperands _ lhs rhs | compareOperands _ lhs rhs | compareVector _ lhs rhs =>
    lhs.values ++ rhs.values
  | returnOperand operand => operand.values
  | fillVector source operands => source :: operands.flatMap Operand.values
  | call target arguments => target :: arguments
  | elementPointer base indices _ => base :: indices
  | phi _ incoming => incoming.map Prod.fst
  | switch condition _ cases => condition :: cases.map Prod.fst
  | _ => []

/-- The blocks that an operation mentions. -/
def Operation.blocks : Operation → List BlockRef
  | blockIndex block | branch block => [block]
  | conditionalBranch _ onTrue onFalse => [onTrue, onFalse]
  | indirectBranch _ successors => successors
  | phi _ incoming => incoming.map Prod.snd
  | switch _ otherwise cases => otherwise :: cases.map Prod.snd
  | literalSwitch _ otherwise cases => otherwise :: cases.map Prod.snd
  | _ => []

/-- The names that an operation gives to results. -/
def Operation.names : Operation → List String
  | setNextName name => [name]
  | _ => []

/-- The values that an answer hands out. -/
def Answer.newValues : Answer → List Value
  | value result => [result]
  | _ => []

/-- The blocks that an answer hands out. -/
def Answer.newBlocks : Answer → List BlockRef
  | block ref => [ref]
  | blocks refs => refs
  | _ => []

/-- Everything that an answer hands out is a part of the function. -/
structure Builder.HandsOut (answer : Answer) (after : Builder) : Prop where
  values : ∀ value ∈ answer.newValues, after.function.Owns value
  blocks : ∀ ref ∈ answer.newBlocks, after.function.HasBlock ref

namespace Builder.HandsOut

variable {after : Builder}

theorem empty {answer : Answer} (values : answer.newValues = []) (blocks : answer.newBlocks = []) :
    HandsOut answer after := by
  constructor
  · simp [values]
  · simp [blocks]

theorem value {result : Value} (owned : after.function.Owns result) :
    HandsOut (.value result) after := by
  constructor
  · simpa [Answer.newValues] using owned
  · simp [Answer.newBlocks]

end Builder.HandsOut

namespace Build

variable {values : List Value} {blocks : List BlockRef} {names : List String} {builder : Builder}

/-- A step that gives parts of the function answers with parts of the function. -/
theorem Works.answers {α : Type} {step : Build α} {gives : α → Builder → Prop}
    {answer : α → Answer} (works : Works values blocks names step builder gives)
    (handed : ∀ result after, gives result after → Builder.HandsOut (answer result) after) :
    Works values blocks names (answer <$> step) builder Builder.HandsOut := by
  intro ready
  rw [ends_map]
  refine (works ready).mono ?_ fun _ _ effects => effects
  intro result after ⟨effects, given⟩
  exact ⟨effects, handed result after given⟩

theorem Works.answersValue {step : Build Value}
    (works : Works values blocks names step builder GivesOwned) :
    Works values blocks names (.value <$> step) builder Builder.HandsOut :=
  works.answers fun _ _ owned => .value owned

theorem Works.answersBlock {step : Build BlockRef}
    (works : Works values blocks names step builder GivesBlock) :
    Works values blocks names (.block <$> step) builder Builder.HandsOut :=
  works.answers fun _ _ inArena => ⟨by simp [Answer.newValues], by simpa [Answer.newBlocks]⟩

theorem Works.answersNothing {step : Build Unit}
    (works : Works values blocks names step builder GivesNothing) :
    Works values blocks names (step >>= fun _ => Pure.pure .nothing) builder Builder.HandsOut :=
  works.next fun _ _ => .pure (.empty rfl rfl)

end Build

namespace Operation

open Build

variable {builder : Builder}

/-- Every operation, failed or not, does nothing but effects on what it mentions. -/
theorem run_works (operation : Operation) :
    Works operation.values operation.blocks operation.names operation.run builder
      Builder.HandsOut := by
  have known {value : Value} (member : value ∈ operation.values) :
      builder.Known operation.values value := .inl member
  have given {value : Value} (member : value ∈ operation.values) :
      Given operation.values value := .inl member
  have aimed {ref : BlockRef} (member : ref ∈ operation.blocks) :
      builder.Aims operation.blocks ref := .inl member
  -- composites and single instructions alike: only the operands that they mention are given
  cases operation with
  | nextParameter => exact .answersValue nextParameter_acts.works
  | createParameter ty => exact .answersValue createParameter_acts.works
  | argCounter => exact fun _ => ⟨.refl, .empty rfl rfl⟩
  | setNextName name => exact .answersNothing (setNextName_acts (.head _)).works
  | currentBlock => exact .answersBlock fun ready => ⟨.refl, ready.current⟩
  | nextBlock => exact .answersBlock nextBlock_acts.works
  | getNextBlock => exact .answersBlock getNextBlock_acts.works
  | getBlock index => exact .answersBlock getBlock_acts.works
  | blockIndex block => exact fun _ => ⟨.refl, .empty rfl rfl⟩
  | insertBlocks count =>
    refine .answers insertBlocks_acts.works fun refs after ⟨_, inArena⟩ => ?_
    exact ⟨by simp [Answer.newValues], by simpa [Answer.newBlocks] using inArena⟩
  | allocate ty => exact .answersValue allocate_acts.works
  | allocateArray ty count => exact .answersValue (allocateArray_acts (known (.head _))).works
  | load source => exact .answersValue (load_acts (known (.head _))).works
  | atomicLoad source align volatile ordering scope =>
    exact .answersValue (atomicLoad_acts (known (.head _))).works
  | store destination source align =>
    exact .answersNothing (atomicStore_acts (known (.head _)) (known (.tail _ (.head _)))).works
  | storeOperand destination operand align =>
    exact .answersNothing (storeOperand_acts (given (.head _)) fun _ member =>
      given (.tail _ member)).works
  | atomicStore destination source align volatile ordering scope =>
    exact .answersNothing (atomicStore_acts (known (.head _)) (known (.tail _ (.head _)))).works
  | binary operator lhs rhs =>
    exact .answersValue (binary_acts (known (.head _)) (known (.tail _ (.head _)))).works
  | binaryWithFlags flags operator lhs rhs =>
    exact .answersValue (binaryWithFlags_acts (known (.head _)) (known (.tail _ (.head _)))).works
  | binaryOperands operator lhs rhs =>
    refine .answersValue (binaryOperands_acts ?_ ?_).works
    · exact fun _ member => given (List.mem_append_left _ member)
    · exact fun _ member => given (List.mem_append_right _ member)
  | compare operator lhs rhs =>
    exact .answersValue (compare_acts (known (.head _)) (known (.tail _ (.head _)))).works
  | compareOperands operator lhs rhs =>
    refine .answersValue (compareOperands_acts ?_ ?_).works
    · exact fun _ member => given (List.mem_append_left _ member)
    · exact fun _ member => given (List.mem_append_right _ member)
  | compareVector operator lhs rhs =>
    refine .answersValue (compareVector_works ?_ ?_)
    · exact fun _ member => given (List.mem_append_left _ member)
    · exact fun _ member => given (List.mem_append_right _ member)
  | cast operator ty value => exact .answersValue (cast_acts (known (.head _))).works
  | call target arguments =>
    refine .answers (call_acts (known (.head _)) fun _ member =>
      known (.tail _ member)).works fun result after owned => ?_
    cases result with
    | none => exact .empty rfl rfl
    | some value => exact .value (owned value rfl)
  | extractElement vector index => exact .answersValue (extractElement_acts (known (.head _))).works
  | insertElement vector value index =>
    exact .answersValue (insertElement_acts (known (.head _)) (known (.tail _ (.head _)))).works
  | insertOperand vector operand index =>
    exact .answersValue (insertOperand_acts (given (.head _)) fun _ member =>
      given (.tail _ member)).works
  | fillVector source operands =>
    refine .answersValue (fillVector_works (given (.head _)) ?_)
    intro operand member value mentioned
    exact given (.tail _ (List.mem_flatMap.mpr ⟨operand, member, mentioned⟩))
  | extractValue aggregate index =>
    exact .answersValue (extractValue_acts (known (.head _))).works
  | insertValue aggregate value index =>
    exact .answersValue (insertValue_acts (known (.head _)) (known (.tail _ (.head _)))).works
  | elementPointer base indices inbounds =>
    exact .answersValue (elementPointer_acts (known (.head _)) fun _ member =>
      known (.tail _ member)).works
  | select condition onTrue onFalse =>
    exact .answersValue (select_acts (known (.head _)) (known (.tail _ (.head _)))
      (known (.tail _ (.tail _ (.head _))))).works
  | shuffleVector first second mask =>
    exact .answersValue (shuffleVector_acts (known (.head _)) (known (.tail _ (.head _)))
      (known (.tail _ (.tail _ (.head _))))).works
  | phi ty incoming =>
    exact .answersValue (phi_acts (fun _ member => known member) fun _ member => aimed member).works
  | branch target => exact .answersNothing (branch_acts (aimed (.head _))).works
  | conditionalBranch condition onTrue onFalse =>
    exact .answersNothing (conditionalBranch_acts (known (.head _)) (aimed (.head _))
      (aimed (.tail _ (.head _)))).works
  | indirectBranch address successors =>
    exact .answersNothing (indirectBranch_acts (known (.head _)) fun _ member => aimed member).works
  | switch condition otherwise cases =>
    exact .answersNothing (switch_acts (known (.head _)) (fun _ member => known (.tail _ member))
      (aimed (.head _)) fun _ member => aimed (.tail _ member)).works
  | literalSwitch condition otherwise cases =>
    exact .answersNothing (literalSwitch_acts (known (.head _)) (aimed (.head _))
      fun _ member => aimed (.tail _ member)).works
  | ret value => exact .answersNothing (ret_acts (known (.head _))).works
  | returnOperand operand =>
    exact .answersNothing (returnOperand_acts fun _ member => given member).works
  | returnWithCast value => exact .answersNothing (returnWithCast_works (given (.head _)))
  | retVoid => exact .answersNothing retVoid_acts.works
  | unreachable => exact .answersNothing unreachable_acts.works
  | vaStart list => exact .answersNothing (vaIntrinsic_works (given (.head _)))
  | vaEnd list => exact .answersNothing (vaIntrinsic_works (given (.head _)))
  | vaArg list ty => exact .answersValue (vaArg_works (given (.head _)))
  | vaArgStackOnly list ty => exact .answersValue (vaArgStackOnly_works (given (.head _)))

theorem step_effects (operation : Operation) (ready : builder.Ready) :
    Effects operation.values operation.blocks operation.names builder
        (operation.step builder).2 ∧
      ∀ answer, (operation.step builder).1 = .ok answer →
        Builder.HandsOut answer (operation.step builder).2 := by
  have works := operation.run_works ready
  unfold Build.Ends at works
  unfold step
  generalize operation.run.run builder = ended at works ⊢
  obtain ⟨outcome, after⟩ := ended
  cases outcome with
  | ok answer =>
    refine ⟨works.1, ?_⟩
    intro other same
    cases same
    exact works.2
  | error failure =>
    refine ⟨works, ?_⟩
    intro answer same
    cases same

end Operation

/-- Operations on operands of the function itself keep the function well typed. -/
theorem Effect.wellTyped {blocks : List BlockRef} {names : List String} {builder after : Builder}
    (effect : Effect [] blocks names builder after) (wellTyped : builder.function.WellTyped) :
    after.function.WellTyped := by
  have grows := effect.grows
  have owned {operands : List Value} (known : ∀ value ∈ operands, builder.Known [] value) :
      ∀ value ∈ operands, builder.function.Owns value :=
    fun value member => (known value member).resolve_left List.not_mem_nil
  cases effect with
  | register operands known => exact wellTyped.withSymbols (owned known)
  | append operands instruction known aims consecutive named typed checked =>
    rw [Builder.append_function]
    exact (wellTyped.withSymbols (owned known)).push (typed (owned known)) _
  | enter =>
    obtain ⟨_, instructions, symbols⟩ := builder.enterNext_tables
    exact wellTyped.transfer grows instructions symbols
  | _ => exact wellTyped.transfer grows rfl rfl

theorem Effects.wellTyped {blocks : List BlockRef} {names : List String} {builder after : Builder}
    (effects : Effects [] blocks names builder after) (wellTyped : builder.function.WellTyped) :
    after.function.WellTyped := by
  induction effects with
  | refl => exact wellTyped
  | tail _ effect ih => exact effect.wellTyped ih

/-- A caller of a builder: the state, and the values and blocks that were handed out so far. -/
structure Session where
  builder : Builder
  values : List Value
  blocks : List BlockRef

namespace Session

/-- Carry out an operation, failed or not, and take what it hands out. -/
def after (session : Session) (operation : Operation) : Session :=
  match operation.step session.builder with
  | (.ok answer, builder) =>
    ⟨builder, answer.newValues ++ session.values, answer.newBlocks ++ session.blocks⟩
  | (.error _, builder) => ⟨builder, session.values, session.blocks⟩

theorem after_builder (session : Session) (operation : Operation) :
    (session.after operation).builder = (operation.step session.builder).2 := by
  unfold after
  rcases operation.step session.builder with ⟨outcome, builder⟩
  cases outcome <;> rfl

/-- Constants and functions may always be mentioned, other values once they were handed out. -/
def MayMention (session : Session) : Value → Prop
  | .constant _ | .function _ => True
  | value => value ∈ session.values

instance (session : Session) : DecidablePred session.MayMention
  | .constant _ | .function _ => isTrue trivial
  | .parameter formal => inferInstanceAs (Decidable (.parameter formal ∈ session.values))
  | .result slot => inferInstanceAs (Decidable (.result slot ∈ session.values))

/-- All values of the operation may be mentioned. -/
def OwnValues (session : Session) (operation : Operation) : Prop :=
  ∀ value ∈ operation.values, session.MayMention value

/-- All values of the operation may be mentioned, and its blocks were handed out. -/
def OwnParts (session : Session) (operation : Operation) : Prop :=
  session.OwnValues operation ∧ ∀ ref ∈ operation.blocks, ref ∈ session.blocks

instance (session : Session) (operation : Operation) : Decidable (session.OwnValues operation) :=
  inferInstanceAs (Decidable (∀ value ∈ operation.values, session.MayMention value))

instance (session : Session) (operation : Operation) : Decidable (session.OwnParts operation) :=
  inferInstanceAs (Decidable (_ ∧ _))

/-- The sessions that operations lead to from a fresh function, if each operation is permitted in
the session that it is carried out in. -/
inductive Reached (permits : Session → Operation → Prop) : Session → Prop where
  | start (started : (Builder.start layout).run { name := name, signature := signature } =
      (.ok fresh, function)) : Reached permits ⟨fresh, [], []⟩
  | step (reached : Reached permits session) (operation : Operation)
      (permitted : permits session operation) : Reached permits (session.after operation)

/-- Every operation of a list is permitted in the session that the ones in front of it lead to. -/
def Permitted (permits : Session → Operation → Prop) : Session → List Operation → Prop
  | _, [] => True
  | session, operation :: operations =>
    permits session operation ∧ Permitted permits (session.after operation) operations

instance decidablePermitted (permits : Session → Operation → Prop)
    [∀ session operation, Decidable (permits session operation)] :
    ∀ session operations, Decidable (Permitted permits session operations)
  | _, [] => isTrue trivial
  | session, operation :: operations =>
    have := decidablePermitted permits (session.after operation) operations
    inferInstanceAs (Decidable (_ ∧ _))

theorem Reached.run {permits : Session → Operation → Prop} {session : Session}
    {operations : List Operation} (reached : Reached permits session)
    (permitted : Permitted permits session operations) :
    Reached permits (operations.foldl after session) := by
  induction operations generalizing session with
  | nil => exact reached
  | cons operation operations ih => exact ih (reached.step operation permitted.1) permitted.2

theorem Reached.mono {permits allows : Session → Operation → Prop} {session : Session}
    (reached : Reached permits session)
    (weaker : ∀ session operation, permits session operation → allows session operation) :
    Reached allows session := by
  induction reached with
  | start started => exact .start started
  | step _ operation permitted ih => exact ih.step operation (weaker _ operation permitted)

/-- However a session was reached, anything may be done from there on. -/
theorem Reached.goOn {permits : Session → Operation → Prop} {session : Session}
    (reached : Reached permits session) (operations : List Operation) :
    Reached (fun _ _ => True) (operations.foldl after session) := by
  have free : Reached (fun _ _ => True) session := reached.mono fun _ _ _ => trivial
  clear reached
  induction operations generalizing session with
  | nil => exact free
  | cons operation operations ih => exact ih (free.step operation trivial)

/-- Building can go on, and what was handed out is a part of the function. -/
structure Sound (session : Session) : Prop where
  ready : session.builder.Ready
  values : ∀ value ∈ session.values, session.builder.function.Owns value
  blocks : ∀ ref ∈ session.blocks, session.builder.function.HasBlock ref

variable {session : Session} {operation : Operation}

theorem Sound.mention (sound : session.Sound) {value : Value} (may : session.MayMention value) :
    session.builder.function.Owns value := by
  cases value with
  | constant known => trivial
  | function callee => trivial
  | parameter formal => exact sound.values _ may
  | result slot => exact sound.values _ may

/-- An operation does nothing but effects on what it mentions, and hands out parts of the
function. -/
theorem Sound.effects (sound : session.Sound) (operation : Operation) :
    Effects operation.values operation.blocks operation.names session.builder
        (session.after operation).builder ∧
      (session.after operation).Sound := by
  obtain ⟨effects, handed⟩ := operation.step_effects sound.ready
  unfold after
  generalize operation.step session.builder = ended at effects handed ⊢
  obtain ⟨outcome, builder⟩ := ended
  have keeps : ∀ value ∈ session.values, builder.function.Owns value :=
    fun value old => (sound.values value old).mono effects.grows
  have stays : ∀ ref ∈ session.blocks, builder.function.HasBlock ref :=
    fun ref old => effects.grows.hasBlock (sound.blocks ref old)
  cases outcome with
  | ok answer =>
    have new := handed answer rfl
    refine ⟨effects, effects.ready sound.ready, ?_, ?_⟩
    · exact fun value member => (List.mem_append.mp member).elim (new.values value) (keeps value)
    · exact fun ref member => (List.mem_append.mp member).elim (new.blocks ref) (stays ref)
  | error failure => exact ⟨effects, effects.ready sound.ready, keeps, stays⟩

theorem Reached.sound {permits : Session → Operation → Prop}
    (reached : Reached permits session) : session.Sound := by
  induction reached with
  | start started =>
    obtain ⟨ready, _, _⟩ := Builder.start_ready rfl (.fresh ..) started
    exact ⟨ready, by simp, by simp⟩
  | step _ operation _ ih => exact (ih.effects operation).2

/-- Values that the session may mention are the function's own, so they need not be given. -/
theorem Sound.ownEffects (sound : session.Sound) (own : session.OwnValues operation) :
    Effects [] operation.blocks operation.names session.builder
      (session.after operation).builder := by
  refine (sound.effects operation).1.narrow ?_ fun _ member => .inl member
  exact fun value member => .inr (sound.mention (own value member))

theorem Reached.wellTyped (reached : Reached OwnValues session) :
    session.builder.function.WellTyped := by
  induction reached with
  | start started =>
    obtain ⟨_, same, _⟩ := Builder.start_ready rfl (.fresh ..) started
    rw [same]
    exact (FunctionDef.WellTyped.fresh ..).transfer (.reserve ..) rfl rfl
  | step reached operation own ih => exact (reached.sound.ownEffects own).wellTyped ih

/-- Whatever a caller does with constants, functions and values that it was handed, in whatever
order and with whatever failures, all instructions follow the typing rules. -/
theorem function_wellTyped_of_reached (reached : Reached OwnValues session) :
    session.builder.function.WellTyped :=
  reached.wellTyped

/-- A parameter is stored and loaded again; the comparison of it with its address is refused. -/
theorem wellTyped_after_refusal : ∃ session : Session, Reached OwnValues session ∧
    session.builder.function.instructions =
      [.allocate ⟨"1", .ptr .i32⟩ .i32 0 3, .store 1 2 ⟨3, false, .notAtomic, .crossThread⟩,
        .load ⟨"2", .i32⟩ 3 (.aligned 3), .binary ⟨"3", .i32⟩ .add [] 4 5] ∧
    session.builder.function.WellTyped := by
  let fresh : FunctionDef := { name := "f", signature := ⟨.i32, [.i32], false⟩ }
  let formal : Value := .parameter ⟨0, "arg_1", .i32⟩
  let slot : Value := .result ⟨0, "1", .ptr .i32⟩
  let loaded : Value := .result ⟨2, "2", .i32⟩
  have started : Reached OwnValues ⟨⟨fresh.reserve 1, .x86_64, ⟨0⟩, 1, 1, none⟩, [], []⟩ :=
    .start rfl
  have reached := started.run (show Permitted OwnValues _ [.nextParameter, .allocate .i32,
    .store slot formal 4, .load slot, .compare .intEqual loaded slot,
    .binaryOperands .add loaded (Literal.int 1)] from by decide +kernel)
  exact ⟨_, reached, by decide +kernel, function_wellTyped_of_reached reached⟩

end Session

end IrAssembly
