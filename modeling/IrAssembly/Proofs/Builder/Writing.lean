import IrAssembly.Proofs.Builder.Alignment
import IrAssembly.Proofs.Builder.Naming
import IrAssembly.Proofs.Function.Sequence

/-! Instructions that are written to the current block one after the other, as long as every check
passes. Each takes constants, values that its writer was given, and results of the instructions
that were written in front of it; only phi nodes, which look at other blocks, take what they like.
No other block changes. -/

namespace IrAssembly

/-! What an instruction may take -/

def Instruction.isPhi : Instruction → Bool
  | .phi .. => true
  | _ => false

/-- A constant or one of these values. -/
inductive Value.Among (values : List Value) : Value → Prop where
  | constant (known : Constant) : Among values (.constant known)
  | listed (member : value ∈ values) : Among values value

namespace FunctionDef

/-- The value is the result of an instruction, one from `first` on and in front of `bound`. -/
def Made (function : FunctionDef) (first bound : InstId) (value : Value) : Prop :=
  ∃ slot, value = .result slot ∧ first ≤ slot.id ∧ slot.id < bound ∧ function.Owns value

/-- A constant, a given value, or the result of one of these instructions. -/
inductive AtHand (function : FunctionDef) (given : List Value) (first bound : InstId) :
    Value → Prop where
  | constant (known : Constant) : AtHand function given first bound (.constant known)
  | given (member : value ∈ given) : AtHand function given first bound value
  | made (made : function.Made first bound value) : AtHand function given first bound value

/-- The value is the result of an instruction in this block, one in front of `bound`. -/
def ResultIn (function : FunctionDef) (ref : BlockRef) (bound : InstId) (value : Value) : Prop :=
  ∃ slot, value = .result slot ∧ slot.id ∈ function.idsOf ref ∧ slot.id < bound ∧
    function.Owns value

theorem ResultIn.mono {function : FunctionDef} {ref : BlockRef} {bound further : InstId}
    {value : Value} (result : function.ResultIn ref bound value) (le : bound ≤ further) :
    function.ResultIn ref further value := by
  obtain ⟨slot, same, member, below, owned⟩ := result
  exact ⟨slot, same, member, Nat.lt_of_lt_of_le below le, owned⟩

/-- The block holds some instructions and behind them the `new` ones, which are numbered from
`first` on and take what was at hand. -/
structure Holds (function : FunctionDef) (ref : BlockRef) (old : List InstId) (first : InstId)
    (given : List Value) (new : List Instruction) : Prop where
  ids : function.idsOf ref = old ++ List.range' first new.length
  instructions : ∀ (offset : Nat) (instruction : Instruction), new[offset]? = some instruction →
    function.instruction? (first + offset) = some instruction
  operands : ∀ (offset : Nat) (instruction : Instruction), new[offset]? = some instruction →
    instruction.isPhi = false → ∀ index ∈ instruction.operands, ∃ value,
      function.symbol? index = some value ∧ function.AtHand given first (first + offset) value

variable {before after function : FunctionDef} {given : List Value} {first bound further : InstId}
  {value : Value} {ref : BlockRef} {old : List InstId} {new : List Instruction}

theorem Made.mono (made : before.Made first bound value) (grows : before.Grows after)
    (le : bound ≤ further) : after.Made first further value := by
  obtain ⟨slot, same, start, below, owned⟩ := made
  exact ⟨slot, same, start, Nat.lt_of_lt_of_le below le, owned.mono grows⟩

theorem AtHand.mono (atHand : before.AtHand given first bound value) (grows : before.Grows after)
    (le : bound ≤ further) : after.AtHand given first further value := by
  cases atHand with
  | constant known => exact .constant known
  | given member => exact .given member
  | made made => exact .made (made.mono grows le)

/-- Entries that are read one after the other. -/
theorem filterMap_range' {α : Type} {read : Nat → Option α} {first : Nat} {entries : List α}
    (found : ∀ (offset : Nat) (entry : α), entries[offset]? = some entry →
      read (first + offset) = some entry) :
    (List.range' first entries.length).filterMap read = entries := by
  induction entries generalizing first with
  | nil => rfl
  | cons entry entries ih =>
    have here : read first = some entry := found 0 entry rfl
    have behind : (List.range' (first + 1) entries.length).filterMap read = entries := by
      refine ih fun offset other there => ?_
      rw [Nat.add_assoc, Nat.add_comm 1]
      exact found (offset + 1) other there
    rw [List.length_cons, List.range'_succ, List.filterMap_cons_some here, behind]

namespace Holds

/-- A block that is spared holds what it held. -/
theorem mono (holds : before.Holds ref old first given new) (grows : before.Grows after)
    (kept : after.idsOf ref = before.idsOf ref) : after.Holds ref old first given new where
  ids := kept.trans holds.ids
  instructions := fun offset instruction found =>
    grows.instruction? (holds.instructions offset instruction found)
  operands := by
    intro offset instruction found noPhi index member
    obtain ⟨value, registered, atHand⟩ :=
      holds.operands offset instruction found noPhi index member
    exact ⟨value, grows.symbol? registered, atHand.mono grows (Nat.le_refl _)⟩

theorem instructionsOf (holds : function.Holds ref old first given new) :
    function.instructionsOf ref = old.filterMap function.instruction? ++ new := by
  have behind : (List.range' first new.length).filterMap function.instruction? = new :=
    filterMap_range' holds.instructions
  rw [← behind, ← List.filterMap_append, ← holds.ids]
  rfl

/-- What is made where these instructions are made is the result of one of them. -/
theorem resultIn (holds : function.Holds ref old first given new)
    (made : function.Made first bound value) (le : bound ≤ first + new.length) :
    function.ResultIn ref bound value := by
  obtain ⟨slot, same, start, below, owned⟩ := made
  refine ⟨slot, same, ?_, below, owned⟩
  rw [holds.ids]
  exact List.mem_append_right _ (List.mem_range'_1.mpr ⟨start, Nat.lt_of_lt_of_le below le⟩)

theorem first_le (holds : function.Holds ref old first given new) {id : InstId}
    (member : id ∈ function.idsOf ref) (behind : id ∉ old) : first ≤ id := by
  rw [holds.ids] at member
  exact (List.mem_range'_1.mp ((List.mem_append.mp member).resolve_left behind)).1

/-- The operands of the new instructions of the block. -/
theorem uses (holds : function.Holds ref old first given new) {id : InstId}
    {instruction : Instruction} (member : id ∈ function.idsOf ref) (behind : id ∉ old)
    (found : function.instruction? id = some instruction) (noPhi : instruction.isPhi = false)
    {index : SymbolIndex} (operand : index ∈ instruction.operands) :
    ∃ value, function.symbol? index = some value ∧
      ((∃ known, value = .constant known) ∨ value ∈ given ∨ function.ResultIn ref id value) := by
  rw [holds.ids] at member
  have inRange := (List.mem_append.mp member).resolve_left behind
  obtain ⟨start, bound⟩ := List.mem_range'_1.mp inRange
  obtain ⟨offset, rfl⟩ := Nat.exists_eq_add_of_le start
  have here := List.getElem?_eq_getElem (Nat.lt_of_add_lt_add_left bound)
  obtain rfl : _ = instruction := Option.some.inj ((holds.instructions _ _ here).symm.trans found)
  obtain ⟨value, registered, atHand⟩ := holds.operands _ _ here noPhi index operand
  refine ⟨value, registered, ?_⟩
  cases atHand with
  | constant known => exact .inl ⟨known, rfl⟩
  | given member => exact .inr (.inl member)
  | made made => exact .inr (.inr (holds.resultIn made (Nat.le_of_lt bound)))

end Holds

end FunctionDef

/-- The instructions of a block are in the arena. -/
theorem FunctionDef.Coherent.lt_of_mem_idsOf {function : FunctionDef} (coherent : function.Coherent)
    {ref : BlockRef} {id : InstId} (member : id ∈ function.idsOf ref) :
    id < function.instructions.length := by
  rw [idsOf, block?] at member
  cases found : function.blocks[ref.id]? with
  | none =>
    rw [found] at member
    cases member
  | some block =>
    rw [found] at member
    exact coherent.instruction_lt (List.mem_of_getElem? found) member

namespace Builder

/-- The number of the next instruction. -/
abbrev nextId (builder : Builder) : InstId := builder.function.instructions.length

/-- The function grows, and this block holds what it held. -/
structure Spares (ref : BlockRef) (builder after : Builder) : Prop where
  grows : builder.function.Grows after.function
  ids : after.function.idsOf ref = builder.function.idsOf ref

theorem Spares.trans {ref : BlockRef} {builder middle after : Builder}
    (first : builder.Spares ref middle) (second : middle.Spares ref after) :
    builder.Spares ref after :=
  ⟨first.grows.trans second.grows, second.ids.trans first.ids⟩

/-- Since the start, the new instructions were appended to the current block, and nothing else
changed but names. The operands of each of them were at hand, and they made some values. -/
structure Writes (given made : List Value) (new : List Instruction) (start after : Builder) :
    Prop where
  ready : after.Ready
  grows : start.function.Grows after.function
  layout : after.layout = start.layout
  current : after.current = start.current
  order : after.function.order = start.function.order
  instructions : after.function.instructions = start.function.instructions ++ new
  ids : after.function.idsOf start.current =
    start.function.idsOf start.current ++ List.range' start.nextId new.length
  others : ∀ ref, ref ≠ start.current → after.function.idsOf ref = start.function.idsOf ref
  operands : ∀ (offset : Nat) (instruction : Instruction), new[offset]? = some instruction →
    instruction.isPhi = false → ∀ index ∈ instruction.operands, ∃ value,
      after.function.symbol? index = some value ∧
        after.function.AtHand given start.nextId (start.nextId + offset) value
  made : ∀ value ∈ made, after.function.Made start.nextId after.nextId value

variable {given made : List Value} {new : List Instruction} {start builder after : Builder}
  {operands : List Value} {instruction : Instruction}

theorem append_layout (builder : Builder) (operands : List Value) (instruction : Instruction) :
    (builder.append operands instruction).layout = builder.layout := by
  simp only [append, push, spendName]
  split
  · split <;> rfl
  · rfl

namespace Writes

theorem nothing (ready : start.Ready) : start.Writes given [] [] start :=
  ⟨ready, .refl _, rfl, rfl, rfl, (List.append_nil _).symm, (List.append_nil _).symm,
    fun _ _ => rfl, by simp, by simp⟩

theorem nextId (writes : start.Writes given made new builder) :
    builder.nextId = start.nextId + new.length := by
  rw [Builder.nextId, writes.instructions, List.length_append]

theorem atHand (writes : start.Writes given made new builder) {value : Value}
    (among : value.Among (made ++ given)) :
    builder.function.AtHand given start.nextId builder.nextId value := by
  cases among with
  | constant known => exact .constant known
  | listed member =>
    rcases List.mem_append.mp member with new | old
    · exact .made (writes.made value new)
    · exact .given old

theorem ready_append (writes : start.Writes given made new builder) :
    (builder.append operands instruction).Ready := by
  have grows := builder.grows_append operands instruction
  constructor
  · rw [append_function]
    exact writes.ready.isOpen
  · rw [append_function]
    exact (writes.ready.coherent.withSymbols operands).push writes.ready.current instruction
  · rw [append_current]
    exact grows.hasBlock writes.ready.current

theorem ids_append (writes : start.Writes given made new builder) :
    (builder.append operands instruction).function.idsOf start.current =
      start.function.idsOf start.current ++
        List.range' start.nextId (new ++ [instruction]).length := by
  have inArena : (builder.function.withSymbols operands).HasBlock builder.current :=
    writes.ready.current
  have held := FunctionDef.idsOf_push_self inArena instruction
  rw [append_function, ← writes.current, held, List.length_append, List.length_singleton,
    List.range'_concat, Nat.one_mul, ← List.append_assoc, ← writes.nextId]
  exact congrArg (· ++ [builder.nextId]) (writes.current ▸ writes.ids)

/-- The operands of the new instruction were at hand, those of the others still are. -/
theorem operands_append (writes : start.Writes given made new builder)
    (among : instruction.isPhi = false → ∀ value ∈ operands, value.Among (made ++ given))
    (consecutive : instruction.operands =
      List.range' builder.function.symbols.length operands.length)
    {offset : Nat} {other : Instruction} (found : (new ++ [instruction])[offset]? = some other)
    (noPhi : other.isPhi = false) {index : SymbolIndex} (member : index ∈ other.operands) :
    ∃ value, (builder.append operands instruction).function.symbol? index = some value ∧
      (builder.append operands instruction).function.AtHand given start.nextId
        (start.nextId + offset) value := by
  have grows := builder.grows_append operands instruction
  rcases FunctionDef.getElem?_append_cases found with old | ⟨behind, rfl, last⟩
  · obtain ⟨value, registered, atHand⟩ := writes.operands offset other old noPhi index member
    exact ⟨value, grows.symbol? registered, atHand.mono grows (Nat.le_refl _)⟩
  · obtain ⟨rfl, rfl⟩ : behind = 0 ∧ instruction = other := by
      simpa [List.getElem?_singleton] using last
    rw [consecutive] at member
    obtain ⟨position, bound, rfl⟩ := List.mem_range'.mp member
    rw [Nat.one_mul, Nat.add_zero, ← writes.nextId]
    have atHand := writes.atHand (among noPhi _ (List.getElem_mem bound))
    refine ⟨operands[position], ?_, atHand.mono grows (Nat.le_refl _)⟩
    rw [append_function]
    exact (FunctionDef.symbol?_withSymbols ..).trans (List.getElem?_eq_getElem bound)

theorem append (writes : start.Writes given made new builder)
    (among : instruction.isPhi = false → ∀ value ∈ operands, value.Among (made ++ given))
    (consecutive : instruction.operands =
      List.range' builder.function.symbols.length operands.length) :
    start.Writes given made (new ++ [instruction]) (builder.append operands instruction) where
  ready := writes.ready_append
  grows := writes.grows.trans (builder.grows_append operands instruction)
  layout := (append_layout ..).trans writes.layout
  current := (append_current ..).trans writes.current
  order := by
    rw [append_function]
    exact writes.order
  instructions := by
    rw [append_instructions, writes.instructions, List.append_assoc]
  ids := writes.ids_append
  others := by
    intro ref differ
    rw [append_function, FunctionDef.idsOf_push_ne (writes.current ▸ differ)]
    exact writes.others ref differ
  operands := fun _ _ found noPhi _ => writes.operands_append among consecutive found noPhi
  made := by
    intro value member
    have grows := builder.grows_append operands instruction
    exact (writes.made value member).mono grows grows.instructions.length_le

/-- The result of the last instruction is one more value. -/
theorem keep (writes : start.Writes given made (new ++ [instruction])
      (builder.append operands instruction)) (before : start.nextId ≤ builder.nextId)
    {slot : ResultSlot} (slotted : instruction.result? = some slot) :
    start.Writes given (.result ⟨builder.nextId, slot.name, slot.ty⟩ :: made)
      (new ++ [instruction]) (builder.append operands instruction) := by
  have appended := builder.append_instructions operands instruction
  refine { writes with made := List.forall_mem_cons.mpr ⟨⟨_, rfl, before, ?_, ?_⟩, writes.made⟩ }
  · change builder.nextId < List.length _
    rw [appended, List.length_append]
    exact Nat.lt_succ_self _
  · refine ⟨instruction, ?_, slotted⟩
    rw [FunctionDef.instruction?, appended, List.getElem?_concat_length]

/-- What was written stands in the block that it was written to. -/
theorem holds (writes : start.Writes given made new builder) :
    builder.function.Holds start.current (start.function.idsOf start.current) start.nextId given
      new where
  ids := writes.ids
  instructions := by
    intro offset instruction found
    rw [FunctionDef.instruction?, writes.instructions,
      List.getElem?_append_right (Nat.le_add_right ..), Nat.add_sub_cancel_left]
    exact found
  operands := writes.operands

theorem spares (writes : start.Writes given made new builder) {ref : BlockRef}
    (differ : ref ≠ start.current) : start.Spares ref builder :=
  ⟨writes.grows, writes.others ref differ⟩

theorem position (writes : start.Writes given made new builder) (ready : start.Ready) :
    builder.position = start.position :=
  ready.position_eq writes.ready writes.current (by rw [writes.order])

end Writes

/-- One more instruction was written, which made this value. -/
structure Gains (given made : List Value) (new : List Instruction) (start : Builder) (ty : Ty)
    (value : Value) (after : Builder) : Prop where
  written : ∃ instruction, start.Writes given (value :: made) (new ++ [instruction]) after
  hasTy : value.ty = ty

/-- The next block was there and became the current one; at most it got a label. -/
structure MovesTo (ref : BlockRef) (builder after : Builder) : Prop where
  ready : after.Ready
  grows : builder.function.Grows after.function
  layout : after.layout = builder.layout
  current : after.current = ref
  position : after.position = builder.position + 1
  order : after.function.order = builder.function.order
  instructions : after.function.instructions = builder.function.instructions
  ids : after.function.idsOf = builder.function.idsOf

theorem MovesTo.spares {entered ref : BlockRef} (moves : builder.MovesTo entered after) :
    builder.Spares ref after :=
  ⟨moves.grows, congrFun moves.ids ref⟩

/-- Moving to a block and writing to it leaves all others alone. -/
theorem MovesTo.spares_writes {entered ref : BlockRef} (moves : builder.MovesTo entered start)
    (writes : start.Writes given made new after) (differ : ref ≠ entered) :
    builder.Spares ref after :=
  moves.spares.trans (writes.spares (moves.current.symm ▸ differ))

theorem MovesTo.holds {entered : BlockRef} (moves : builder.MovesTo entered start)
    (writes : start.Writes given made new after) :
    after.function.Holds entered (builder.function.idsOf entered) start.nextId given new := by
  have holds := writes.holds
  rwa [moves.current, moves.ids] at holds

theorem enterNext_movesTo (ready : builder.Ready) {ref : BlockRef}
    (next : builder.function.order[builder.position + 1]? = some ref) :
    builder.MovesTo ref builder.enterNext := by
  have there : builder.position + 1 + 1 ≤ builder.function.order.length :=
    (List.getElem?_eq_some_iff.mp next).1
  have nothing : builder.reserve (builder.position + 1 + 1) = builder := by
    simp [reserve, FunctionDef.reserve, Nat.sub_eq_zero_of_le there, FunctionDef.freshRefs,
      FunctionDef.emptyBlocks]
  have order := builder.enterNext_order
  have placed := builder.enterNext_placed
  rw [nothing] at order placed
  have effect : Effect [] [] [] builder builder.enterNext := .enter
  refine ⟨ready.enterNext, effect.grows, ?_, ?_, position_enterNext ready, order,
    builder.enterNext_tables.2.1, ?_⟩
  · rfl
  · exact Option.some.inj (placed.symm.trans next)
  · simp only [enterNext, nothing, enter]
    split
    · exact FunctionDef.idsOf_nameBlock ..
    · rfl

/-- A state on the way through the blocks of another one: they are in the same order, and the
current one stands at this position. -/
structure Stands (opened : Builder) (position : Nat) (builder : Builder) : Prop where
  ready : builder.Ready
  layout : builder.layout = opened.layout
  order : builder.function.order = opened.function.order
  position : builder.position = position

variable {opened : Builder} {place : Nat}

theorem Stands.writes (stands : opened.Stands place start)
    (writes : start.Writes given made new builder) : opened.Stands place builder :=
  ⟨writes.ready, writes.layout.trans stands.layout, writes.order.trans stands.order,
    (writes.position stands.ready).trans stands.position⟩

theorem Stands.moves (stands : opened.Stands place builder) {ref : BlockRef}
    (moves : builder.MovesTo ref after) : opened.Stands (place + 1) after :=
  ⟨moves.ready, moves.layout.trans stands.layout, moves.order.trans stands.order,
    moves.position.trans (congrArg (· + 1) stands.position)⟩

end Builder

namespace Build

variable {α β : Type} {given made : List Value} {new : List Instruction} {start builder : Builder}

/-- The step succeeds, in this way. -/
abbrev Succeeds (step : Build α) (builder : Builder) (done : α → Builder → Prop) : Prop :=
  Ends step builder done fun _ _ => False

theorem Succeeds.bind {step : Build α} {next : α → Build β} {between : α → Builder → Prop}
    {done : β → Builder → Prop} (first : Succeeds step builder between)
    (rest : ∀ value middle, between value middle → Succeeds (next value) middle done) :
    Succeeds (step >>= next) builder done := by
  rw [Succeeds, ends_bind]
  exact first.mono rest fun _ _ never => never

/-- A step that gains a value, and what is done with the value. -/
theorem Succeeds.gain {ty : Ty} {step : Build Value} {next : Value → Build β}
    {done : β → Builder → Prop} (first : Succeeds step builder (start.Gains given made new ty))
    (rest : ∀ value middle instruction,
      start.Writes given (value :: made) (new ++ [instruction]) middle → value.ty = ty →
        Succeeds (next value) middle done) : Succeeds (step >>= next) builder done := by
  refine first.bind fun value middle gains => ?_
  obtain ⟨instruction, writes⟩ := gains.written
  exact rest value middle instruction writes gains.hasTy

theorem succeeds_encoded {align : Nat} (power : align.isPowerOfTwo) :
    Succeeds (encoded align) builder fun _ after => after = builder := by
  unfold encoded
  split
  · rfl
  · rename_i violation refused
    exact absurd power (encodeAlignment_eq_error_iff.mp refused).2.2

theorem succeeds_expectAll {operation : String} {ty : Ty} {pairs : List (Value × BlockRef)}
    (same : ∀ pair ∈ pairs, pair.1.ty = ty) :
    Succeeds (expectAll operation ty pairs) builder fun _ after => after = builder := by
  induction pairs with
  | nil => rfl
  | cons pair pairs ih =>
    obtain ⟨first, others⟩ := List.forall_mem_cons.mp same
    simp only [expectAll, expectTy, first, ne_eq, not_true_eq_false, if_false, pure_bind]
    exact ih others

/-- On the way through the blocks, the next one is entered. -/
theorem nextBlock_moves {opened : Builder} {place : Nat} (stands : opened.Stands place builder)
    {ref : BlockRef} (next : opened.function.order[place + 1]? = some ref) :
    Succeeds nextBlock builder fun entered after =>
      entered = ref ∧ builder.MovesTo ref after ∧ opened.Stands (place + 1) after := by
  rw [← stands.order, ← stands.position] at next
  have moves := builder.enterNext_movesTo stands.ready next
  rw [Succeeds, ends_nextBlock stands.ready.isOpen]
  exact ⟨moves.current, moves, stands.moves moves⟩

/-- An instruction with a result, behind its registered operands. -/
theorem emitValue_writes {operands : List Value} {ty : Ty} {instruction : ResultSlot → Instruction}
    (writes : start.Writes given made new builder)
    (among : ∀ slot, (instruction slot).isPhi = false →
      ∀ value ∈ operands, value.Among (made ++ given))
    (slotted : ∀ slot, (instruction slot).result? = some slot)
    (consecutive : ∀ slot, (instruction slot).operands =
      List.range' builder.function.symbols.length operands.length) :
    Succeeds (emitValue ty instruction) (builder.register operands) fun value after =>
      start.Writes given (value :: made) (new ++ [instruction ⟨builder.resultName, ty⟩]) after ∧
      after.function.symbols = builder.function.symbols ++ operands ∧ value.ty = ty := by
  rw [Succeeds, ends_emitValue_registered writes.ready.isOpen slotted]
  have later : start.nextId ≤ builder.nextId := writes.nextId ▸ Nat.le_add_right ..
  have appended := writes.append (among ⟨builder.resultName, ty⟩) (consecutive _)
  refine ⟨appended.keep later (slotted _), ?_, rfl⟩
  rw [Builder.append_function]
  rfl

theorem emitValue_gains {operands : List Value} {ty : Ty} {instruction : ResultSlot → Instruction}
    (writes : start.Writes given made new builder)
    (among : ∀ value ∈ operands, value.Among (made ++ given))
    (slotted : ∀ slot, (instruction slot).result? = some slot)
    (consecutive : ∀ slot, (instruction slot).operands =
      List.range' builder.function.symbols.length operands.length) :
    Succeeds (emitValue ty instruction) (builder.register operands)
      (start.Gains given made new ty) := by
  refine (emitValue_writes writes (fun _ _ => among) slotted consecutive).mono ?_
    fun _ _ never => never
  rintro value after ⟨written, _, hasTy⟩
  exact ⟨⟨_, written⟩, hasTy⟩

theorem emit_writes {operands : List Value} {instruction : Instruction}
    (writes : start.Writes given made new builder)
    (among : ∀ value ∈ operands, value.Among (made ++ given)) (silent : instruction.result? = none)
    (consecutive : instruction.operands =
      List.range' builder.function.symbols.length operands.length) :
    Succeeds (emit instruction) (builder.register operands)
      fun _ after => start.Writes given made (new ++ [instruction]) after := by
  rw [Succeeds, ends_emit_registered writes.ready.isOpen silent]
  exact writes.append (fun _ => among) consecutive

theorem elementPointer_gains {base : Value} {indices : List Value} {inbounds : Bool}
    {pointee ty : Ty}
    (writes : start.Writes given made new builder) (pointer : base.ty = .ptr pointee)
    (reaches : walk (.ptr pointee) indices = .ok ty)
    (among : ∀ value ∈ base :: indices, value.Among (made ++ given)) :
    Succeeds (elementPointer base indices inbounds) builder
      (start.Gains given made new (.ptr ty)) := by
  have stillOpen : (builder.register [base]).function.finished = false := writes.ready.isOpen
  simp only [Succeeds, elementPointer, expectPointer, pointer, pure_bind, reaches]
  rw [ends_operand writes.ready.isOpen, ends_bind, ends_symbols stillOpen,
    Builder.register_register, Builder.register_function, FunctionDef.length_symbols_withSymbols]
  exact emitValue_gains writes among (fun _ => rfl) fun _ => rfl

theorem load_gains {source : Value} {ty : Ty} (writes : start.Writes given made new builder)
    (pointer : source.ty = .ptr ty) (power : (start.layout.alignOf ty).isPowerOfTwo)
    (among : source.Among (made ++ given)) :
    Succeeds (load source) builder (start.Gains given made new ty) := by
  rw [← writes.layout] at power
  simp only [load, layoutAlignment, expectPointer, pointer, pure_bind]
  rw [Succeeds, ends_bind, ends_bind, ends_layout]
  refine (succeeds_encoded power).mono ?_ fun _ _ never => never
  rintro align _ rfl
  rw [ends_operand writes.ready.isOpen]
  exact emitValue_gains writes (by simpa using among) (fun _ => rfl) fun _ => rfl

theorem cast_gains {operator : CastOperator} {ty : Ty} {value : Value}
    (writes : start.Writes given made new builder) (among : value.Among (made ++ given)) :
    Succeeds (cast operator ty value) builder (start.Gains given made new ty) := by
  rw [Succeeds, cast, ends_operand writes.ready.isOpen]
  exact emitValue_gains writes (by simpa using among) (fun _ => rfl) fun _ => rfl

theorem binaryWithFlags_gains {flags : List BinaryFlag} {operator : BinaryOperator}
    {lhs rhs : Value} (writes : start.Writes given made new builder) (same : rhs.ty = lhs.ty)
    (lhsAmong : lhs.Among (made ++ given)) (rhsAmong : rhs.Among (made ++ given)) :
    Succeeds (binaryWithFlags flags operator lhs rhs) builder
      (start.Gains given made new lhs.ty) := by
  simp only [Succeeds, binaryWithFlags, expectSameTy, expectTy, same, ne_eq, not_true_eq_false,
    if_false, pure_bind]
  rw [ends_operand writes.ready.isOpen, ends_nextOperand writes.ready.isOpen]
  exact emitValue_gains writes (by simpa using ⟨lhsAmong, rhsAmong⟩) (fun _ => rfl) fun _ => rfl

theorem compare_gains {operator : CompareOperator} {lhs rhs : Value}
    (writes : start.Writes given made new builder) (same : rhs.ty = lhs.ty)
    (lhsAmong : lhs.Among (made ++ given)) (rhsAmong : rhs.Among (made ++ given)) :
    Succeeds (compare operator lhs rhs) builder
      (start.Gains given made new (compareTy lhs.ty)) := by
  simp only [Succeeds, compare, expectSameTy, expectTy, same, ne_eq, not_true_eq_false,
    if_false, pure_bind]
  rw [ends_operand writes.ready.isOpen, ends_nextOperand writes.ready.isOpen]
  exact emitValue_gains writes (by simpa using ⟨lhsAmong, rhsAmong⟩) (fun _ => rfl) fun _ => rfl

/-- A literal stands for a constant of the type of the operand that it is paired with. -/
theorem exists_resolvePair_int (operation : String) {value : Value} (hasTy : value.ty = .i32)
    (number : Int64) :
    ∃ known : Constant, known.ty = .i32 ∧
      Operand.resolvePair operation value (Literal.int number) = .ok (value, .constant known) := by
  refine ⟨.integer .i32 (lowBits number.toInt), rfl, ?_⟩
  rw [Operand.resolvePair, hasTy]
  rfl

theorem binaryOperands_gains {operator : BinaryOperator} {value : Value} {number : Int64}
    (writes : start.Writes given made new builder) (hasTy : value.ty = .i32)
    (among : value.Among (made ++ given)) :
    Succeeds (binaryOperands operator value (Literal.int number)) builder
      (start.Gains given made new .i32) := by
  obtain ⟨known, knownTy, resolved⟩ := exists_resolvePair_int "binary operation" hasTy number
  rw [binaryOperands, resolved, ← hasTy]
  exact binaryWithFlags_gains writes (knownTy.trans hasTy.symm) among (.constant known)

theorem compareOperands_gains {operator : CompareOperator} {value : Value} {number : Int64}
    (writes : start.Writes given made new builder) (hasTy : value.ty = .i32)
    (among : value.Among (made ++ given)) :
    Succeeds (compareOperands operator value (Literal.int number)) builder
      (start.Gains given made new .i1) := by
  obtain ⟨known, knownTy, resolved⟩ := exists_resolvePair_int "compare" hasTy number
  have same : (Value.constant known).ty = value.ty := knownTy.trans hasTy.symm
  have gains : Succeeds (compare operator value (.constant known)) builder
      (start.Gains given made new (compareTy value.ty)) :=
    compare_gains writes same among (.constant known)
  rw [compareOperands, resolved]
  rwa [hasTy] at gains

theorem storeOperand_writes {destination value : Value} {ty : Ty} {align : Nat}
    (writes : start.Writes given made new builder) (pointer : destination.ty = .ptr ty)
    (hasTy : value.ty = ty) (power : align.isPowerOfTwo)
    (destinationAmong : destination.Among (made ++ given))
    (valueAmong : value.Among (made ++ given)) :
    Succeeds (storeOperand destination value align) builder
      fun _ after => ∃ instruction, start.Writes given made (new ++ [instruction]) after := by
  simp only [Succeeds, storeOperand, store, atomicStore, expectPointer, pointer, pure_bind,
    Operand.resolve, accept, expectTy, hasTy, ne_eq, not_true_eq_false, if_false]
  refine (succeeds_encoded power).bind ?_
  rintro encoded _ rfl
  rw [Succeeds, ends_operand writes.ready.isOpen, ends_nextOperand writes.ready.isOpen]
  refine (emit_writes writes (by simpa using ⟨destinationAmong, valueAmong⟩) rfl rfl).mono ?_
    fun _ _ never => never
  exact fun _ after written => ⟨_, written⟩

theorem branch_writes {target : BlockRef} (writes : start.Writes given made new builder) :
    Succeeds (branch target) builder
      fun _ after => start.Writes given made (new ++ [.branch target]) after := by
  have written : Succeeds (emit (.branch target)) (builder.register [])
      fun _ after => start.Writes given made (new ++ [.branch target]) after :=
    emit_writes writes (by simp) rfl rfl
  rwa [Builder.register_nil] at written

theorem conditionalBranch_writes {condition : Value} {onTrue onFalse : BlockRef}
    (writes : start.Writes given made new builder) (bit : condition.ty = .i1)
    (among : condition.Among (made ++ given)) :
    Succeeds (conditionalBranch condition onTrue onFalse) builder fun _ after =>
      start.Writes given made
        (new ++ [.conditionalBranch builder.function.symbols.length onTrue onFalse]) after := by
  simp only [Succeeds, conditionalBranch, bit, ne_eq, not_true_eq_false, if_false]
  rw [ends_operand writes.ready.isOpen]
  exact emit_writes writes (by simpa using among) rfl rfl

theorem forall₂_edgesFrom {function : FunctionDef} {start : SymbolIndex}
    {pairs : List (Value × BlockRef)}
    (each : List.Forall₂ (fun index value => function.symbol? index = some value)
      (List.range' start pairs.length) (pairs.map Prod.fst)) :
    List.Forall₂ (fun edge pair => function.symbol? edge.1 = some pair.1 ∧ edge.2 = pair.2)
      (edgesFrom start pairs) pairs := by
  induction pairs generalizing start with
  | nil => exact .nil
  | cons pair pairs ih =>
    cases each with
    | cons first others => exact .cons ⟨first, rfl⟩ (ih others)

/-- A phi node has an edge for each pair, with the value and the block of the pair. -/
theorem phi_writes {ty : Ty} {incoming : List (Value × BlockRef)}
    (writes : start.Writes given made new builder) (same : ∀ pair ∈ incoming, pair.1.ty = ty) :
    Succeeds (phi ty incoming) builder fun value after =>
      ∃ slot edges, slot.ty = ty ∧ value.ty = ty ∧
        start.Writes given (value :: made) (new ++ [.phi slot edges]) after ∧
        List.Forall₂ (fun edge pair =>
          after.function.symbol? edge.1 = some pair.1 ∧ edge.2 = pair.2) edges incoming := by
  refine (succeeds_expectAll same).bind fun _ _ kept => ?_
  rw [kept, Succeeds, ends_bind, ends_edges writes.ready.isOpen, ← edgesFrom]
  refine (emitValue_writes writes ?_ (fun _ => rfl) ?_).mono ?_ fun _ _ never => never
  · intro slot noPhi
    cases noPhi
  · simp [Instruction.operands]
  · rintro value after ⟨written, symbols, hasTy⟩
    refine ⟨_, _, rfl, hasTy, written, forall₂_edgesFrom ?_⟩
    have registered := builder.function.registered [] (incoming.map Prod.fst)
    rw [List.length_map] at registered
    refine registered.imp fun index value found => ?_
    rw [FunctionDef.symbol?, symbols]
    exact found

end Build

end IrAssembly
