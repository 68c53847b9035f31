import IrAssembly.Proofs.Builder.Construction
import IrAssembly.Proofs.Builder.Writing

/-! The fetch of a variable argument. It inserts three blocks behind the current one and writes to
four blocks in turn: the decision, the two paths and their join. Each part is described by what it
writes to its block; put together, they say where every new instruction stands and where its
operands come from. -/

namespace IrAssembly

def VaListField.ty : VaListField → Ty
  | gpOffset | fpOffset => .i32
  | overflowArea | saveArea => .ptr .i8

namespace Build

/-! The parts, and the blocks that are entered between them -/

/-- Is a register left? Gives the tag of the list, the address of the offset and the offset. -/
def registersLeft (list : Value) (registers : RegisterClass) (onRegister onStack : BlockRef) :
    Build (Value × Value × Value) := do
  let tag ← vaListTag list
  let offsetPointer ← vaListField tag registers.offset
  let offset ← load offsetPointer
  let inRegisters ← compareOperands .intUnsignedLessOrEqual offset (Literal.int registers.limit)
  conditionalBranch inRegisters onRegister onStack
  return (tag, offsetPointer, offset)

/-- The address in the register save area. -/
def registerPath (tag offsetPointer offset : Value) (registers : RegisterClass) (ty : Ty)
    (join : BlockRef) : Build Value := do
  let saveAreaPointer ← vaListField tag .saveArea
  let saveArea ← load saveAreaPointer
  let slot ← elementPointer saveArea [offset] false
  let address ← cast .bitCast (.ptr ty) slot
  let nextOffset ← binaryOperands .add offset (Literal.int registers.step)
  storeOperand offsetPointer nextOffset ((← layout).alignOf .i32)
  branch join
  return address

/-- The address in the overflow area. -/
def stackPath (tag : Value) (ty : Ty) (join : BlockRef) : Build Value := do
  let overflowPointer ← vaListField tag .overflowArea
  let overflow ← load overflowPointer
  let address ← cast .bitCast (.ptr ty) overflow
  let nextSlot ← elementPointer overflow [constant32 stackSlotStep] false
  storeOperand overflowPointer nextSlot ((← layout).alignOf nextSlot.ty)
  branch join
  return address

/-- The argument at the address of the path that was taken. -/
def joinPaths (ty : Ty) (incoming : List (Value × BlockRef)) : Build Value := do
  let address ← phi (.ptr ty) incoming
  load address

/-- Fetch an argument, and note the blocks that are entered on the way. -/
def vaArgEntering (list : Value) (ty : Ty) : Build (Value × List BlockRef) := do
  let some registers := RegisterClass.ofTy? ty | refuse (.unsupportedVaArgType ty)
  let inserted ← insertBlocks 3
  let registerBlock := inserted.getD 0 ⟨0⟩
  let stackBlock := inserted.getD 1 ⟨0⟩
  let joinBlock := inserted.getD 2 ⟨0⟩
  let (tag, offsetPointer, offset) ← registersLeft list registers registerBlock stackBlock
  let first ← nextBlock
  let registerAddress ← registerPath tag offsetPointer offset registers ty joinBlock
  let second ← nextBlock
  let stackAddress ← stackPath tag ty joinBlock
  let third ← nextBlock
  let value ← joinPaths ty [(registerAddress, registerBlock), (stackAddress, stackBlock)]
  return (value, [first, second, third])

/-- Noting the blocks changes nothing. -/
theorem vaArg_eq (list : Value) (ty : Ty) : vaArg list ty = Prod.fst <$> vaArgEntering list ty := by
  unfold vaArg vaArgEntering
  cases RegisterClass.ofTy? ty with
  | none => rfl
  | some registers =>
    simp only [registersLeft, registerPath, stackPath, joinPaths, map_bind, bind_assoc, map_pure,
      pure_bind, bind_pure]

/-! What each part writes -/

variable {given made : List Value} {new : List Instruction} {start builder : Builder}
  {list tag offsetPointer offset : Value} {ty : Ty} {registers : RegisterClass}

theorem walk_field (field : VaListField) :
    walk (.ptr .vaListTag) [constant32 0, constant32 field.index] = .ok field.ty := by
  cases field <;> rfl

/-- Offsets are counted in the same type for both classes. -/
theorem offsetTy_of_ofTy? (inRegisters : RegisterClass.ofTy? ty = some registers) :
    registers.offset.ty = .i32 := by
  unfold RegisterClass.ofTy? at inRegisters
  split at inRegisters <;> cases inRegisters <;> rfl

theorem vaListTag_gains (writes : start.Writes given made new builder)
    (isList : list.ty = .ptr .vaList) (among : list.Among (made ++ given)) :
    Succeeds (vaListTag list) builder (start.Gains given made new (.ptr .vaListTag)) := by
  refine elementPointer_gains writes isList rfl ?_
  simp only [List.forall_mem_cons]
  exact ⟨among, .constant _, .constant _, by simp⟩

theorem vaListField_gains (writes : start.Writes given made new builder)
    (isTag : tag.ty = .ptr .vaListTag) (among : tag.Among (made ++ given)) (field : VaListField) :
    Succeeds (vaListField tag field) builder (start.Gains given made new (.ptr field.ty)) := by
  refine elementPointer_gains writes isTag (walk_field field) ?_
  simp only [List.forall_mem_cons]
  exact ⟨among, .constant _, .constant _, by simp⟩

/-- The layout asks for alignments that can be encoded. -/
structure FetchAligned (layout : DataLayout) (ty : Ty) : Prop where
  offset : (layout.alignOf .i32).isPowerOfTwo
  pointer : (layout.alignOf (.ptr .i8)).isPowerOfTwo
  argument : (layout.alignOf ty).isPowerOfTwo

theorem registersLeft_writes {onRegister onStack : BlockRef} (ready : start.Ready)
    (isList : list.ty = .ptr .vaList) (counts : registers.offset.ty = .i32)
    (aligned : FetchAligned start.layout ty) :
    Succeeds (registersLeft list registers onRegister onStack) start
      fun (tag, offsetPointer, offset) after =>
        (tag.ty = .ptr .vaListTag ∧ offsetPointer.ty = .ptr .i32 ∧ offset.ty = .i32) ∧
        ∃ made front condition, (∀ value ∈ [tag, offsetPointer, offset], value ∈ made) ∧
          start.Writes [list] made
            (front ++ [.conditionalBranch condition onRegister onStack]) after := by
  have nothing : start.Writes [list] [] [] start := .nothing ready
  refine (vaListTag_gains nothing isList (.listed (by simp))).gain fun tag _ _ writes isTag => ?_
  refine (vaListField_gains writes isTag (.listed (by simp)) _).bind ?_
  rw [counts]
  rintro offsetPointer _ ⟨⟨_, writes⟩, isPointer⟩
  refine (load_gains writes isPointer aligned.offset (.listed (by simp))).gain
    fun offset _ _ writes isOffset => ?_
  refine (compareOperands_gains writes isOffset (.listed (by simp))).gain
    fun inRegisters _ _ writes isBit => ?_
  refine (conditionalBranch_writes writes isBit (.listed (by simp))).bind ?_
  intro _ after writes
  exact ⟨⟨isTag, isPointer, isOffset⟩, _, _, _, by simp, writes⟩

theorem registerPath_writes {join : BlockRef} (ready : start.Ready)
    (isTag : tag.ty = .ptr .vaListTag) (isPointer : offsetPointer.ty = .ptr .i32)
    (isOffset : offset.ty = .i32) (aligned : FetchAligned start.layout ty) :
    Succeeds (registerPath tag offsetPointer offset registers ty join) start
      fun address after => address.ty = .ptr ty ∧ ∃ made front, address ∈ made ∧
        start.Writes [tag, offsetPointer, offset] made (front ++ [.branch join]) after := by
  have nothing : start.Writes [tag, offsetPointer, offset] [] [] start := .nothing ready
  refine (vaListField_gains nothing isTag (.listed (by simp)) .saveArea).gain
    fun saveAreaPointer _ _ writes isAreaPointer => ?_
  refine (load_gains writes isAreaPointer aligned.pointer (.listed (by simp))).gain
    fun saveArea _ _ writes isArea => ?_
  have inArea : ∀ value ∈ [saveArea, offset],
      value.Among ([saveArea, saveAreaPointer] ++ [tag, offsetPointer, offset]) := by
    simp only [List.forall_mem_cons]
    exact ⟨.listed (by simp), .listed (by simp), by simp⟩
  refine (elementPointer_gains writes isArea rfl inArea).gain fun slot _ _ writes _ => ?_
  refine (cast_gains writes (.listed (by simp))).gain fun address _ _ writes isAddress => ?_
  refine (binaryOperands_gains writes isOffset (.listed (by simp))).gain
    fun nextOffset before _ writes isNext => ?_
  rw [Succeeds, ends_bind, ends_layout, writes.layout]
  refine (storeOperand_writes writes isPointer isNext aligned.offset (.listed (by simp))
    (.listed (by simp))).bind ?_
  rintro _ _ ⟨_, writes⟩
  refine (branch_writes writes).bind ?_
  intro _ after writes
  exact ⟨isAddress, _, _, by simp, writes⟩

theorem stackPath_writes {join : BlockRef} (ready : start.Ready)
    (isTag : tag.ty = .ptr .vaListTag) (known : tag ∈ given)
    (aligned : FetchAligned start.layout ty) :
    Succeeds (stackPath tag ty join) start
      fun address after => address.ty = .ptr ty ∧ ∃ made front, address ∈ made ∧
        start.Writes given made (front ++ [.branch join]) after := by
  have nothing : start.Writes given [] [] start := .nothing ready
  refine (vaListField_gains nothing isTag (.listed known) .overflowArea).gain
    fun overflowPointer _ _ writes isPointer => ?_
  refine (load_gains writes isPointer aligned.pointer (.listed (by simp))).gain
    fun overflow _ _ writes isOverflow => ?_
  refine (cast_gains writes (.listed (by simp))).gain fun address _ _ writes isAddress => ?_
  have inArea : ∀ value ∈ [overflow, constant32 stackSlotStep],
      value.Among ([address, overflow, overflowPointer] ++ given) := by
    simp only [List.forall_mem_cons]
    exact ⟨.listed (by simp), .constant _, by simp⟩
  refine (elementPointer_gains writes isOverflow rfl inArea).gain
    fun nextSlot before _ writes isNext => ?_
  rw [Succeeds, ends_bind, ends_layout, writes.layout, isNext]
  refine (storeOperand_writes writes isPointer isNext aligned.pointer (.listed (by simp))
    (.listed (by simp))).bind ?_
  rintro _ _ ⟨_, writes⟩
  refine (branch_writes writes).bind ?_
  intro _ after writes
  exact ⟨isAddress, _, _, by simp, writes⟩

theorem joinPaths_writes {incoming : List (Value × BlockRef)} (ready : start.Ready)
    (same : ∀ pair ∈ incoming, pair.1.ty = .ptr ty) (aligned : FetchAligned start.layout ty) :
    Succeeds (joinPaths ty incoming) start fun value after => value.ty = ty ∧
      ∃ made slot edges last, slot.ty = .ptr ty ∧
        start.Writes [] made [.phi slot edges, last] after ∧
        List.Forall₂ (fun edge pair =>
          after.function.symbol? edge.1 = some pair.1 ∧ edge.2 = pair.2) edges incoming := by
  have nothing : start.Writes [] [] [] start := .nothing ready
  refine (phi_writes nothing same).bind ?_
  rintro address between ⟨slot, edges, slotTy, isAddress, writes, joined⟩
  have loads : Straight between.layout [] false false (load address) := .load
  have grown := loads.continues rfl writes.ready.isOpen
  refine ((load_gains writes isAddress aligned.argument (.listed (by simp))).and grown).mono ?_
    fun _ _ never => never.1
  rintro value after ⟨⟨⟨last, writes⟩, hasTy⟩, continues⟩
  refine ⟨hasTy, _, slot, edges, last, slotTy, writes, joined.imp ?_⟩
  exact fun edge pair same => ⟨continues.function.symbol? same.1, same.2⟩

end Build

namespace Builder

variable {builder after : Builder}

/-! The inserted blocks -/

theorem insertBlocks_order (ready : builder.Ready) (count : Nat) :
    (builder.insertBlocks count).function.order =
      builder.function.order.take (builder.position + 1) ++ builder.function.freshRefs count ++
        builder.function.order.drop (builder.position + 1) := by
  have bound : builder.position + 1 ≤ builder.function.order.length := ready.position_lt
  simp only [insertBlocks, FunctionDef.splice, Nat.min_eq_left bound]

/-- Inserted blocks stand behind the current one. -/
theorem insertBlocks_placed (ready : builder.Ready) {count offset : Nat} {ref : BlockRef}
    (new : (builder.function.freshRefs count)[offset]? = some ref) :
    (builder.insertBlocks count).function.order[builder.position + 1 + offset]? = some ref := by
  have front : (builder.function.order.take (builder.position + 1)).length = builder.position + 1 :=
    List.length_take_of_le ready.position_lt
  have inserted := (List.getElem?_eq_some_iff.mp new).1
  rw [insertBlocks_order ready, List.append_assoc,
    List.getElem?_append_right (front.symm ▸ Nat.le_add_right ..), front, Nat.add_sub_cancel_left,
    List.getElem?_append_left inserted]
  exact new

theorem insertBlocks_stands (ready : builder.Ready) (count : Nat) :
    (builder.insertBlocks count).Stands builder.position (builder.insertBlocks count) := by
  have inserting : Effect [] [] [] builder (builder.insertBlocks count) := .insert count
  exact ⟨inserting.ready ready, rfl, rfl, position_insertBlocks ready count⟩

/-- What an instruction of a fetch may use: the list, a constant, or a result from further up in its
own block or in the block of the decision. -/
inductive Supplied (list : Value) (decision : BlockRef) (function : FunctionDef) (ref : BlockRef)
    (id : InstId) : Value → Prop where
  | list : Supplied list decision function ref id list
  | constant (known : Constant) : Supplied list decision function ref id (.constant known)
  | here (result : function.ResultIn ref id value) : Supplied list decision function ref id value
  | decision (result : function.ResultIn decision id value) :
      Supplied list decision function ref id value

/-- What the fetch of an argument of a type from a list makes of a function: behind the current
block stand three new ones, the decision branches to the first two, these go on to the third, and
it starts with the address from either of them. -/
structure Fetched (builder : Builder) (list : Value) (ty : Ty) (register stack join : BlockRef)
    (value : Value) (after : Builder) : Prop where
  hasTy : value.ty = ty
  fresh : builder.function.freshRefs 3 = [register, stack, join]
  order : after.function.order = builder.function.order.take (builder.position + 1) ++
    [register, stack, join] ++ builder.function.order.drop (builder.position + 1)
  current : after.current = join
  grows : builder.function.Grows after.function
  others : ∀ ref, ref ∉ [builder.current, register, stack, join] →
    after.function.idsOf ref = builder.function.idsOf ref
  decision : ∃ new front condition,
    after.function.idsOf builder.current = builder.function.idsOf builder.current ++ new ∧
    (∀ id ∈ new, builder.nextId ≤ id) ∧ new.filterMap after.function.instruction? =
      front ++ [.conditionalBranch condition register stack]
  registerEnd : (after.function.instructionsOf register).getLast? = some (.branch join)
  stackEnd : (after.function.instructionsOf stack).getLast? = some (.branch join)
  joined : ∃ slot first second fromRegister fromStack, slot.ty = .ptr ty ∧
    (after.function.instructionsOf join).head? =
      some (.phi slot [(first, register), (second, stack)]) ∧
    after.function.symbol? first = some fromRegister ∧
    after.function.ResultIn register after.nextId fromRegister ∧
    after.function.symbol? second = some fromStack ∧
    after.function.ResultIn stack after.nextId fromStack
  uses : ∀ ref id instruction, id ∈ after.function.idsOf ref → builder.nextId ≤ id →
    after.function.instruction? id = some instruction → instruction.isPhi = false →
    ∀ index ∈ instruction.operands, ∃ used, after.function.symbol? index = some used ∧
      Supplied list builder.current after.function ref id used

/-- A fetch on its way: the builder at the end of each part, and what the part wrote. -/
structure Fetching (builder : Builder) (list : Value) (ty : Ty) (register stack join : BlockRef)
    (after : Builder) where
  ready : builder.Ready
  fresh : builder.function.freshRefs 3 = [register, stack, join]
  -- the decision
  decided : Builder
  path : List Value
  decisionMade : List Value
  front : List Instruction
  condition : SymbolIndex
  decides : (builder.insertBlocks 3).Writes [list] decisionMade
    (front ++ [.conditionalBranch condition register stack]) decided
  pathMade : ∀ value ∈ path, value ∈ decisionMade
  -- the register path
  atRegister : Builder
  afterRegister : Builder
  registerAddress : Value
  registerMade : List Value
  registerFront : List Instruction
  toRegister : decided.MovesTo register atRegister
  registerWrites : atRegister.Writes path registerMade (registerFront ++ [.branch join])
    afterRegister
  registerAddressMade : registerAddress ∈ registerMade
  -- the stack path
  atStack : Builder
  afterStack : Builder
  stackAddress : Value
  stackMade : List Value
  stackFront : List Instruction
  toStack : afterRegister.MovesTo stack atStack
  stackWrites : atStack.Writes path stackMade (stackFront ++ [.branch join]) afterStack
  stackAddressMade : stackAddress ∈ stackMade
  -- the join
  atJoin : Builder
  joinMade : List Value
  slot : ResultSlot
  edges : List (SymbolIndex × BlockRef)
  last : Instruction
  toJoin : afterStack.MovesTo join atJoin
  joinWrites : atJoin.Writes [] joinMade [.phi slot edges, last] after
  slotTy : slot.ty = .ptr ty
  edgesJoined : List.Forall₂ (fun edge pair =>
    after.function.symbol? edge.1 = some pair.1 ∧ edge.2 = pair.2) edges
    [(registerAddress, register), (stackAddress, stack)]

namespace Fetching

variable {list : Value} {ty : Ty} {register stack join ref : BlockRef}

theorem idsOf_opened : (builder.insertBlocks 3).function.idsOf = builder.function.idsOf :=
  FunctionDef.idsOf_splice ..

/-- The new blocks are numbered from the old ones on, so the four blocks are apart. -/
theorem nodup_of_fresh (ready : builder.Ready)
    (fresh : builder.function.freshRefs 3 = [register, stack, join]) :
    [builder.current, register, stack, join].Nodup := by
  have old : builder.current.id < builder.function.blocks.length := ready.current
  have listed : [(⟨builder.function.blocks.length⟩ : BlockRef),
      ⟨builder.function.blocks.length + 1⟩, ⟨builder.function.blocks.length + 2⟩] =
        [register, stack, join] := fresh
  cases listed
  refine List.Nodup.of_map BlockRef.id ?_
  simp only [List.map_cons, List.map_nil, List.nodup_cons, List.mem_cons, List.not_mem_nil,
    or_false, not_or, not_false_eq_true, List.nodup_nil, and_true]
  refine ⟨⟨?_, ?_, ?_⟩, ⟨?_, ?_⟩, ?_⟩ <;> omega

theorem nodup (fetching : builder.Fetching list ty register stack join after) :
    [builder.current, register, stack, join].Nodup :=
  nodup_of_fresh fetching.ready fetching.fresh

theorem idsOf_new (fetching : builder.Fetching list ty register stack join after)
    (new : ref ∈ [register, stack, join]) : (builder.insertBlocks 3).function.idsOf ref = [] := by
  rw [idsOf_opened]
  exact FunctionDef.idsOf_of_mem_freshRefs (fetching.fresh ▸ new)

/-! Each writer leaves alone all blocks but its own. -/

theorem overRegister (fetching : builder.Fetching list ty register stack join after)
    (differ : ref ≠ register) : fetching.decided.Spares ref fetching.afterRegister :=
  fetching.toRegister.spares_writes fetching.registerWrites differ

theorem overStack (fetching : builder.Fetching list ty register stack join after)
    (differ : ref ≠ stack) : fetching.afterRegister.Spares ref fetching.afterStack :=
  fetching.toStack.spares_writes fetching.stackWrites differ

theorem overJoin (fetching : builder.Fetching list ty register stack join after)
    (differ : ref ≠ join) : fetching.afterStack.Spares ref after :=
  fetching.toJoin.spares_writes fetching.joinWrites differ

/-! What the four blocks hold in the end -/

theorem decision_holds (fetching : builder.Fetching list ty register stack join after) :
    after.function.Holds builder.current (builder.function.idsOf builder.current) builder.nextId
      [list] (fetching.front ++ [.conditionalBranch fetching.condition register stack]) := by
  have apart := fetching.nodup
  simp only [List.nodup_cons, List.mem_cons, List.not_mem_nil, or_false, not_or] at apart
  have spares : fetching.decided.Spares builder.current after :=
    (fetching.overRegister apart.1.1).trans
      ((fetching.overStack apart.1.2.1).trans (fetching.overJoin apart.1.2.2))
  rw [← idsOf_opened]
  exact fetching.decides.holds.mono spares.grows spares.ids

theorem register_holds (fetching : builder.Fetching list ty register stack join after) :
    after.function.Holds register [] fetching.atRegister.nextId fetching.path
      (fetching.registerFront ++ [.branch join]) := by
  have apart := fetching.nodup
  simp only [List.nodup_cons, List.mem_cons, List.not_mem_nil, or_false, not_or] at apart
  have before : (builder.insertBlocks 3).Spares register fetching.decided :=
    fetching.decides.spares (Ne.symm apart.1.1)
  have behind : fetching.afterRegister.Spares register after :=
    (fetching.overStack apart.2.1.1).trans (fetching.overJoin apart.2.1.2)
  have holds := fetching.toRegister.holds fetching.registerWrites
  rw [before.ids, fetching.idsOf_new (by simp)] at holds
  exact holds.mono behind.grows behind.ids

theorem stack_holds (fetching : builder.Fetching list ty register stack join after) :
    after.function.Holds stack [] fetching.atStack.nextId fetching.path
      (fetching.stackFront ++ [.branch join]) := by
  have apart := fetching.nodup
  simp only [List.nodup_cons, List.mem_cons, List.not_mem_nil, or_false, not_or] at apart
  have before : (builder.insertBlocks 3).Spares stack fetching.afterRegister :=
    (fetching.decides.spares (Ne.symm apart.1.2.1)).trans
      (fetching.overRegister (Ne.symm apart.2.1.1))
  have behind : fetching.afterStack.Spares stack after := fetching.overJoin apart.2.2.1
  have holds := fetching.toStack.holds fetching.stackWrites
  rw [before.ids, fetching.idsOf_new (by simp)] at holds
  exact holds.mono behind.grows behind.ids

theorem join_holds (fetching : builder.Fetching list ty register stack join after) :
    after.function.Holds join [] fetching.atJoin.nextId [] [.phi fetching.slot fetching.edges,
      fetching.last] := by
  have apart := fetching.nodup
  simp only [List.nodup_cons, List.mem_cons, List.not_mem_nil, or_false, not_or] at apart
  have before : (builder.insertBlocks 3).Spares join fetching.afterStack :=
    (fetching.decides.spares (Ne.symm apart.1.2.2)).trans
      ((fetching.overRegister (Ne.symm apart.2.1.2)).trans
        (fetching.overStack (Ne.symm apart.2.2.1)))
  have holds := fetching.toJoin.holds fetching.joinWrites
  rwa [before.ids, fetching.idsOf_new (by simp)] at holds

theorem others (fetching : builder.Fetching list ty register stack join after)
    (other : ref ∉ [builder.current, register, stack, join]) :
    after.function.idsOf ref = builder.function.idsOf ref := by
  simp only [List.mem_cons, List.not_mem_nil, or_false, not_or] at other
  obtain ⟨notCurrent, notRegister, notStack, notJoin⟩ := other
  have spares : (builder.insertBlocks 3).Spares ref after :=
    (fetching.decides.spares notCurrent).trans ((fetching.overRegister notRegister).trans
      ((fetching.overStack notStack).trans (fetching.overJoin notJoin)))
  rw [spares.ids, idsOf_opened]

theorem order (fetching : builder.Fetching list ty register stack join after) :
    after.function.order = builder.function.order.take (builder.position + 1) ++
      [register, stack, join] ++ builder.function.order.drop (builder.position + 1) := by
  rw [← fetching.fresh, ← insertBlocks_order fetching.ready, ← fetching.decides.order,
    ← fetching.toRegister.order, ← fetching.registerWrites.order, ← fetching.toStack.order,
    ← fetching.stackWrites.order, ← fetching.toJoin.order, fetching.joinWrites.order]

theorem registerAddress_resultIn (fetching : builder.Fetching list ty register stack join after) :
    after.function.ResultIn register after.nextId fetching.registerAddress := by
  have made := fetching.registerWrites.made _ fetching.registerAddressMade
  have behind := (fetching.toStack.grows.trans fetching.stackWrites.grows).trans
    (fetching.toJoin.grows.trans fetching.joinWrites.grows)
  have bound : fetching.afterRegister.nextId ≤ after.nextId := behind.instructions.length_le
  rw [fetching.registerWrites.nextId] at made bound
  exact (fetching.register_holds.resultIn (made.mono behind (Nat.le_refl _)) (Nat.le_refl _)).mono
    bound

theorem stackAddress_resultIn (fetching : builder.Fetching list ty register stack join after) :
    after.function.ResultIn stack after.nextId fetching.stackAddress := by
  have made := fetching.stackWrites.made _ fetching.stackAddressMade
  have behind := fetching.toJoin.grows.trans fetching.joinWrites.grows
  have bound : fetching.afterStack.nextId ≤ after.nextId := behind.instructions.length_le
  rw [fetching.stackWrites.nextId] at made bound
  exact (fetching.stack_holds.resultIn (made.mono behind (Nat.le_refl _)) (Nat.le_refl _)).mono
    bound

theorem grows_decided (fetching : builder.Fetching list ty register stack join after) :
    fetching.decided.function.Grows after.function :=
  (fetching.toRegister.grows.trans fetching.registerWrites.grows).trans
    ((fetching.toStack.grows.trans fetching.stackWrites.grows).trans
      (fetching.toJoin.grows.trans fetching.joinWrites.grows))

/-- The paths use results of the decision. -/
theorem path_resultIn (fetching : builder.Fetching list ty register stack join after)
    {value : Value} (member : value ∈ fetching.path) {id : InstId}
    (behind : fetching.decided.nextId ≤ id) :
    after.function.ResultIn builder.current id value := by
  have made := fetching.decides.made value (fetching.pathMade value member)
  have bound := fetching.decides.nextId
  exact (fetching.decision_holds.resultIn (made.mono fetching.grows_decided (Nat.le_refl _))
    bound.le).mono behind

theorem path_supplied (fetching : builder.Fetching list ty register stack join after)
    {used : Value} {id : InstId} (behind : fetching.decided.nextId ≤ id)
    (origin : (∃ known, used = .constant known) ∨ used ∈ fetching.path ∨
      after.function.ResultIn ref id used) :
    Supplied list builder.current after.function ref id used := by
  rcases origin with ⟨known, rfl⟩ | given | here
  · exact .constant known
  · exact .decision (fetching.path_resultIn given behind)
  · exact .here here

/-- The operands of each new instruction, block by block. -/
theorem uses (fetching : builder.Fetching list ty register stack join after) {id : InstId}
    {instruction : Instruction} (member : id ∈ after.function.idsOf ref)
    (new : builder.nextId ≤ id) (found : after.function.instruction? id = some instruction)
    (noPhi : instruction.isPhi = false) {index : SymbolIndex}
    (operand : index ∈ instruction.operands) :
    ∃ used, after.function.symbol? index = some used ∧
      Supplied list builder.current after.function ref id used := by
  have notOld (ref : BlockRef) : id ∉ builder.function.idsOf ref := fun old =>
    absurd new (Nat.not_le_of_lt (fetching.ready.coherent.lt_of_mem_idsOf old))
  have toRegister : fetching.atRegister.nextId = fetching.decided.nextId :=
    congrArg List.length fetching.toRegister.instructions
  by_cases isCurrent : ref = builder.current
  · subst isCurrent
    obtain ⟨used, registered, origin⟩ :=
      fetching.decision_holds.uses member (notOld _) found noPhi operand
    refine ⟨used, registered, ?_⟩
    rcases origin with ⟨known, rfl⟩ | given | here
    · exact .constant known
    · obtain rfl : used = list := List.mem_singleton.mp given
      exact .list
    · exact .here here
  by_cases isRegister : ref = register
  · subst isRegister
    have behind := fetching.register_holds.first_le member List.not_mem_nil
    obtain ⟨used, registered, origin⟩ :=
      fetching.register_holds.uses member List.not_mem_nil found noPhi operand
    exact ⟨used, registered, fetching.path_supplied (toRegister ▸ behind) origin⟩
  by_cases isStack : ref = stack
  · subst isStack
    have behind := fetching.stack_holds.first_le member List.not_mem_nil
    have later : fetching.atRegister.nextId ≤ fetching.atStack.nextId :=
      (fetching.registerWrites.grows.trans fetching.toStack.grows).instructions.length_le
    obtain ⟨used, registered, origin⟩ :=
      fetching.stack_holds.uses member List.not_mem_nil found noPhi operand
    exact ⟨used, registered, fetching.path_supplied (toRegister ▸ later.trans behind) origin⟩
  by_cases isJoin : ref = join
  · subst isJoin
    obtain ⟨used, registered, origin⟩ :=
      fetching.join_holds.uses member List.not_mem_nil found noPhi operand
    refine ⟨used, registered, ?_⟩
    rcases origin with ⟨known, rfl⟩ | given | here
    · exact .constant known
    · cases given
    · exact .here here
  · have other : ref ∉ [builder.current, register, stack, join] := by
      simp [isCurrent, isRegister, isStack, isJoin]
    rw [fetching.others other] at member
    exact absurd member (notOld ref)

theorem edges_eq (fetching : builder.Fetching list ty register stack join after) :
    ∃ first second, fetching.edges = [(first, register), (second, stack)] ∧
      after.function.symbol? first = some fetching.registerAddress ∧
      after.function.symbol? second = some fetching.stackAddress := by
  obtain ⟨⟨first, _⟩, _, ⟨fromRegister, rfl⟩, others, isEdges⟩ :=
    List.forall₂_cons_right_iff.mp fetching.edgesJoined
  obtain ⟨⟨second, _⟩, _, ⟨fromStack, rfl⟩, none, rfl⟩ := List.forall₂_cons_right_iff.mp others
  cases none
  exact ⟨first, second, isEdges, fromRegister, fromStack⟩

theorem fetched (fetching : builder.Fetching list ty register stack join after) {value : Value}
    (hasTy : value.ty = ty) : builder.Fetched list ty register stack join value after where
  hasTy := hasTy
  fresh := fetching.fresh
  order := fetching.order
  current := by rw [fetching.joinWrites.current, fetching.toJoin.current]
  grows := by
    have opens : builder.function.Grows (builder.insertBlocks 3).function :=
      (Effect.insert 3 : Effect [] [] [] builder _).grows
    exact opens.trans (fetching.decides.grows.trans fetching.grows_decided)
  others := fun _ => fetching.others
  decision := by
    have holds := fetching.decision_holds
    exact ⟨_, fetching.front, fetching.condition, holds.ids,
      fun id member => (List.mem_range'_1.mp member).1,
      FunctionDef.filterMap_range' holds.instructions⟩
  registerEnd := by
    rw [fetching.register_holds.instructionsOf, ← List.append_assoc]
    exact List.getLast?_concat ..
  stackEnd := by
    rw [fetching.stack_holds.instructionsOf, ← List.append_assoc]
    exact List.getLast?_concat ..
  joined := by
    obtain ⟨first, second, edges, fromRegister, fromStack⟩ := fetching.edges_eq
    refine ⟨fetching.slot, first, second, _, _, fetching.slotTy, ?_, fromRegister,
      fetching.registerAddress_resultIn, fromStack, fetching.stackAddress_resultIn⟩
    rw [fetching.join_holds.instructionsOf, edges]
    rfl
  uses := fun _ _ _ member new found noPhi _ => fetching.uses member new found noPhi

end Fetching

end Builder

namespace Build

open Builder

variable {builder : Builder} {list : Value} {ty : Ty} {registers : RegisterClass}

theorem vaArgEntering_fetches (ready : builder.Ready) (isList : list.ty = .ptr .vaList)
    (inRegisters : RegisterClass.ofTy? ty = some registers)
    (aligned : FetchAligned builder.layout ty) :
    Succeeds (vaArgEntering list ty) builder fun (value, entered) after =>
      ∃ register stack join, entered = [register, stack, join] ∧
        builder.Fetched list ty register stack join value after := by
  have counts := offsetTy_of_ofTy? inRegisters
  obtain ⟨register, stack, join, fresh⟩ :
      ∃ register stack join, builder.function.freshRefs 3 = [register, stack, join] :=
    ⟨_, _, _, rfl⟩
  have placed (offset : Nat) {ref : BlockRef} (new : [register, stack, join][offset]? = some ref) :
      (builder.insertBlocks 3).function.order[builder.position + 1 + offset]? = some ref :=
    insertBlocks_placed ready (fresh ▸ new)
  have opened := insertBlocks_stands ready 3
  unfold vaArgEntering
  rw [inRegisters]
  simp only [Succeeds]
  rw [ends_bind, ends_insertBlocks ready.isOpen, fresh]
  -- is a register left?
  refine (registersLeft_writes opened.ready isList counts aligned).bind ?_
  rintro ⟨tag, offsetPointer, offset⟩ decided
    ⟨⟨isTag, isPointer, isOffset⟩, made, front, condition, madeHere, decides⟩
  refine (nextBlock_moves (opened.writes decides) (placed 0 rfl)).bind ?_
  rintro first atRegister ⟨isRegister, toRegister, stands⟩
  -- the address in the register save area
  have sameLayout : FetchAligned atRegister.layout ty := stands.layout ▸ aligned
  refine (registerPath_writes stands.ready isTag isPointer isOffset sameLayout).bind ?_
  rintro registerAddress afterRegister ⟨isRegisterAddress, _, _, registerMade, registerWrites⟩
  refine (nextBlock_moves (stands.writes registerWrites) (placed 1 rfl)).bind ?_
  rintro second atStack ⟨isStack, toStack, stands⟩
  -- the address in the overflow area
  have known : tag ∈ [tag, offsetPointer, offset] := List.mem_cons_self ..
  refine (stackPath_writes stands.ready isTag known (stands.layout ▸ aligned)).bind ?_
  rintro stackAddress afterStack ⟨isStackAddress, _, _, stackMade, stackWrites⟩
  refine (nextBlock_moves (stands.writes stackWrites) (placed 2 rfl)).bind ?_
  rintro third atJoin ⟨isJoin, toJoin, stands⟩
  -- the join
  have same : ∀ pair ∈ [(registerAddress, register), (stackAddress, stack)],
      pair.1.ty = .ptr ty := by
    simp only [List.forall_mem_cons]
    exact ⟨isRegisterAddress, isStackAddress, by simp⟩
  refine (joinPaths_writes stands.ready same (stands.layout ▸ aligned)).bind ?_
  rintro value after ⟨hasTy, _, slot, edges, last, slotTy, joinWrites, edgesJoined⟩
  rw [isRegister, isStack, isJoin]
  have fetching : builder.Fetching list ty register stack join after :=
    ⟨ready, fresh, decided, [tag, offsetPointer, offset], _, _, _, decides, madeHere,
      atRegister, afterRegister, registerAddress, _, _, toRegister, registerWrites, registerMade,
      atStack, afterStack, stackAddress, _, _, toStack, stackWrites, stackMade,
      atJoin, _, slot, edges, last, toJoin, joinWrites, slotTy, edgesJoined⟩
  exact ⟨_, _, _, rfl, fetching.fetched hasTy⟩

end Build

namespace Operation

variable {builder : Builder} {list : Value} {ty : Ty}

/-- Arguments of these types are passed in registers as long as some are left. -/
theorem exists_registers
    (fetchable : ty.isInteger ∨ ty.isPointer ∨ ∃ kind, ty = .float kind ∧ kind ≠ .x87) :
    ∃ registers, RegisterClass.ofTy? ty = some registers := by
  rcases fetchable with integer | pointer | ⟨kind, rfl, other⟩
  · match ty, integer with
    | .int _, _ => exact ⟨_, rfl⟩
  · match ty, pointer with
    | .ptr _, _ => exact ⟨_, rfl⟩
  · cases kind with
    | x87 => exact absurd rfl other
    | _ => exact ⟨_, rfl⟩

/-- From wherever a builder stands, an argument of a type that is passed in registers is fetched
from a list. The blocks are entered in the order in which they were inserted. -/
theorem vaArg_fetches (reachable : builder.Reachable) (isList : list.ty = .ptr .vaList)
    (fetchable : ty.isInteger ∨ ty.isPointer ∨ ∃ kind, ty = .float kind ∧ kind ≠ .x87)
    (aligned : Build.FetchAligned builder.layout ty) :
    Build.vaArg list ty = Prod.fst <$> Build.vaArgEntering list ty ∧
    ∃ value register stack join after,
      (Operation.vaArg list ty).step builder = (.ok (.value value), after) ∧
      (Build.vaArgEntering list ty).run builder = (.ok (value, [register, stack, join]), after) ∧
      builder.Fetched list ty register stack join value after := by
  have noted := Build.vaArg_eq list ty
  refine ⟨noted, ?_⟩
  obtain ⟨registers, inRegisters⟩ := exists_registers fetchable
  have fetches := Build.vaArgEntering_fetches reachable.ready isList inRegisters aligned
  unfold Build.Succeeds Build.Ends at fetches
  split at fetches
  · rename_i outcome after ran
    obtain ⟨value, entered⟩ := outcome
    obtain ⟨register, stack, join, rfl, fetched⟩ := fetches
    refine ⟨value, register, stack, join, after, ?_, ran, fetched⟩
    refine Build.Ends.run_eq ?_
    rw [run, noted, Build.ends_map, Build.ends_map, Build.Ends, ran]
    exact ⟨rfl, rfl⟩
  · cases fetches

/-- The second argument is fetched behind the first one, in front of a block that was asked for. -/
theorem vaArg_fetches_again : ∃ (builder : Builder) (list : Value), builder.Reachable ∧
    builder.current = ⟨4⟩ ∧ builder.function.order = [⟨0⟩, ⟨2⟩, ⟨3⟩, ⟨4⟩, ⟨1⟩] ∧
    ∃ value register stack join after,
      (Operation.vaArg list .i32).step builder = (.ok (.value value), after) ∧
      builder.Fetched list .i32 register stack join value after := by
  let list : Value := .result ⟨0, "1", .ptr .vaList⟩
  have reachable := Builder.Reachable.run (.fresh "f" ⟨.void, [], false⟩)
    (Builder.run_start rfl .x86_64) [.allocate .vaList, .getBlock 1, .vaArg list .i32]
  refine ⟨_, list, reachable, by decide +kernel, by decide +kernel, ?_⟩
  obtain ⟨_, value, register, stack, join, after, ran, _, fetched⟩ :=
    vaArg_fetches reachable (rfl : list.ty = .ptr .vaList) (.inl (rfl : Ty.isInteger .i32))
      ⟨⟨2, by decide +kernel⟩, ⟨3, by decide +kernel⟩, ⟨2, by decide +kernel⟩⟩
  exact ⟨value, register, stack, join, after, ran, fetched⟩

end Operation

end IrAssembly
