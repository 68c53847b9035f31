import IrAssembly.Proofs.Builder.Writing
import IrAssembly.Proofs.Execution.Machine

/-! Runs of code that is being written. A run is followed instruction by instruction while they are
appended; where it is led to, it is led to in every function that the code is kept in. -/

namespace IrAssembly

namespace FunctionDef

/-- The second function has the code of the first one in the same places. Its blocks may go on. -/
structure KeptIn (function final : FunctionDef) : Prop where
  grows : function.Grows final
  ids : ∀ ref, function.idsOf ref <+: final.idsOf ref

/-- From this symbol on, these values are registered one after the other. -/
def SymbolsFrom (function : FunctionDef) (first : SymbolIndex) (values : List Value) : Prop :=
  ∀ (offset : Nat) (value : Value), values[offset]? = some value →
    function.symbol? (first + offset) = some value

variable {function middle final : FunctionDef}

theorem KeptIn.refl (function : FunctionDef) : function.KeptIn function :=
  ⟨.refl function, fun _ => List.prefix_refl _⟩

theorem KeptIn.trans (first : function.KeptIn middle) (second : middle.KeptIn final) :
    function.KeptIn final :=
  ⟨first.grows.trans second.grows, fun ref => (first.ids ref).trans (second.ids ref)⟩

theorem Extends.keptIn {place : Nat → Nat} (extended : Extends place function final) :
    function.KeptIn final := by
  refine ⟨extended.toGrows, fun ref => ?_⟩
  cases found : function.block? ref with
  | none => simp [idsOf, found]
  | some block =>
    obtain ⟨later, there, goesOn⟩ := extended.kept ref block found
    simpa [idsOf, found, there] using goesOn.instructions

namespace SymbolsFrom

variable {first : SymbolIndex} {value : Value} {values : List Value}

theorem head (symbols : function.SymbolsFrom first (value :: values)) :
    function.symbol? first = some value :=
  symbols 0 value rfl

theorem tail (symbols : function.SymbolsFrom first (value :: values)) :
    function.SymbolsFrom (first + 1) values := by
  intro offset other found
  rw [Nat.add_assoc, Nat.add_comm 1]
  exact symbols (offset + 1) other found

end SymbolsFrom

variable {environment : Environment} {machine next : Machine} {index : SymbolIndex} {value : Value}

/-! Operands -/

theorem datum?_of_symbol? (registered : function.symbol? index = some value) :
    function.datum? environment machine index = machine.value? environment value := by
  rw [datum?, registered, Option.bind_some]

theorem number?_of_symbol? {number : Nat} (registered : function.symbol? index = some value)
    (content : machine.value? environment value = some (.number number)) :
    function.number? environment machine index = some number := by
  rw [number?, datum?_of_symbol? registered, content]
  rfl

theorem lanes?_of_symbol? {lanes : List Nat} (registered : function.symbol? index = some value)
    (content : machine.value? environment value = some (.lanes lanes)) :
    function.lanes? environment machine index = some lanes := by
  rw [lanes?, datum?_of_symbol? registered, content]
  rfl

/-- Indices of an address computation. -/
theorem mapM_signed?_of_symbolsFrom {first : SymbolIndex} {indices : List (Value × Nat)}
    (symbols : function.SymbolsFrom first (indices.map Prod.fst))
    (contents : ∀ entry ∈ indices,
      machine.value? environment entry.1 = some (.number entry.2)) :
    (List.range' first indices.length).mapM (function.signed? environment machine) =
      some (indices.map fun entry => signedNumber entry.1.ty.numberBits entry.2) := by
  induction indices generalizing first with
  | nil => rfl
  | cons entry indices ih =>
    obtain ⟨content, contents⟩ := List.forall_mem_cons.mp contents
    have signed : function.signed? environment machine first =
        some (signedNumber entry.1.ty.numberBits entry.2) := by
      rw [signed?, symbols.head, number?_of_symbol? symbols.head content]
      rfl
    rw [List.length_cons, List.range'_succ, List.mapM_cons, signed,
      ih symbols.tail contents]
    rfl

/-! Steps -/

variable {state : RunState} {id : InstId} {instruction : Instruction}

theorem next?_of_execute?
    (located : (function.idsOf state.block)[state.offset]? = some id)
    (found : function.instruction? id = some instruction)
    (plain : instruction.isTerminator = false)
    (executed : function.execute? environment state.machine id instruction = some next) :
    function.next? environment state =
      some { state with offset := state.offset + 1, machine := next } := by
  rw [next?, located, Option.bind_eq_bind, Option.bind_some, found, Option.bind_eq_bind,
    Option.bind_some, plain, executed]
  rfl

theorem next?_of_target? {target : BlockRef}
    (located : (function.idsOf state.block)[state.offset]? = some id)
    (found : function.instruction? id = some instruction)
    (ends : instruction.isTerminator = true)
    (taken : function.target? environment state.machine instruction = some target) :
    function.next? environment state =
      some ⟨target, 0, { state.machine with previous := state.block }⟩ := by
  rw [next?, located, Option.bind_eq_bind, Option.bind_some, found, Option.bind_eq_bind,
    Option.bind_some, ends, taken]
  rfl

end FunctionDef

/-- The value is no result of an instruction from `bound` on. -/
def Value.Below (bound : InstId) : Value → Prop
  | .result slot => slot.id < bound
  | _ => True

theorem Value.Below.mono {value : Value} {bound further : InstId} (below : value.Below bound)
    (le : bound ≤ further) : value.Below further := by
  cases value with
  | result slot => exact Nat.lt_of_lt_of_le below le
  | _ => trivial

/-- A function's own values are there before any further instruction. -/
theorem FunctionDef.Owns.below {function : FunctionDef} {value : Value}
    (owned : function.Owns value) : value.Below function.instructions.length := by
  cases value with
  | result slot =>
    obtain ⟨instruction, found, _⟩ := owned
    exact (List.getElem?_eq_some_iff.mp found).1
  | _ => trivial

namespace Machine

variable {environment : Environment} {machine next : Machine} {value : Value}

/-- The machines differ in results alone. -/
structure Agrees (machine next : Machine) : Prop where
  memory : next.memory = machine.memory
  top : next.top = machine.top
  previous : next.previous = machine.previous

theorem Agrees.refl (machine : Machine) : machine.Agrees machine := ⟨rfl, rfl, rfl⟩

theorem Agrees.trans {later : Machine} (first : machine.Agrees next) (second : next.Agrees later) :
    machine.Agrees later :=
  ⟨second.memory.trans first.memory, second.top.trans first.top,
    second.previous.trans first.previous⟩

theorem agrees_set (machine : Machine) (id : InstId) (datum : Datum) :
    machine.Agrees (machine.set id datum) :=
  ⟨rfl, rfl, rfl⟩

theorem value?_congr (same : next.results = machine.results) :
    next.value? environment value = machine.value? environment value := by
  cases value <;> simp [value?, same]

theorem value?_set_self (id : InstId) (name : String) (ty : Ty) (datum : Datum) :
    (machine.set id datum).value? environment (.result ⟨id, name, ty⟩) = some datum :=
  if_pos rfl

theorem value?_set_of_below {id : InstId} (below : value.Below id) (datum : Datum) :
    (machine.set id datum).value? environment value = machine.value? environment value := by
  cases value with
  | result slot => exact if_neg (Nat.ne_of_lt below)
  | constant known => cases known <;> rfl
  | _ => rfl

theorem value?_integer (machine : Machine) (environment : Environment) (bits : UInt32)
    (value : Int64) : machine.value? environment (.constant (.integer (.int bits) value)) =
      some (.number (lowNumber bits.toNat value.toInt)) :=
  congrArg (some ∘ Datum.number) (lowNumber_signNormalize value bits)

end Machine

namespace Build

variable {α : Type} {step : Build α} {builder after : Builder} {done : α → Builder → Prop}
  {failed : Failure → Builder → Prop} {value : α}

theorem Succeeds.exists_run (succeeds : Succeeds step builder done) :
    ∃ value after, step.run builder = (.ok value, after) ∧ done value after := by
  unfold Succeeds Ends at succeeds
  split at succeeds
  · rename_i value after ran
    exact ⟨value, after, ran, succeeds⟩
  · cases succeeds

/-- What is made of the value of a step. -/
theorem run_map {β : Type} (change : α → β) (ran : step.run builder = (.ok value, after)) :
    (change <$> step).run builder = (.ok (change value), after) := by
  refine Ends.run_eq ?_
  rw [ends_map, Ends, ran]
  exact ⟨rfl, rfl⟩

theorem Succeeds.and {also : α → Builder → Prop} (first : Succeeds step builder done)
    (second : Succeeds step builder also) :
    Succeeds step builder fun value after => done value after ∧ also value after :=
  (Ends.and first second).mono (fun _ _ both => both) fun _ _ never => never.1

/-- What else a step succeeds with under a condition. -/
theorem Succeeds.and_of {also : α → Builder → Prop} (first : Succeeds step builder done)
    (condition : Prop) (second : condition → Succeeds step builder also) :
    Succeeds step builder fun value after =>
      done value after ∧ (condition → also value after) := by
  by_cases holds : condition
  · exact (first.and (second holds)).mono (fun _ _ both => ⟨both.1, fun _ => both.2⟩)
      fun _ _ never => never
  · exact first.mono (fun _ _ done => ⟨done, fun holding => absurd holding holds⟩)
      fun _ _ never => never

/-- All that is known of a step's successes holds of its one outcome. -/
theorem Ends.of_run (ends : Ends step builder done failed)
    (ran : step.run builder = (.ok value, after)) : done value after := by
  unfold Ends at ends
  rwa [ran] at ends

end Build

namespace Builder

variable {environment : Environment} {origin state : RunState} {facts : List (Value × Datum)}
  {builder after : Builder} {machine next : Machine}

/-- A machine at the end of the code that was written so far. -/
def here (builder : Builder) (machine : Machine) : RunState :=
  ⟨builder.current, (builder.function.idsOf builder.current).length, machine⟩

/-- A run of the code that was written so far: wherever the code is kept, it is led to this state,
in which these values have these contents. -/
structure Tracks (environment : Environment) (origin state : RunState)
    (facts : List (Value × Datum)) (builder : Builder) : Prop where
  ready : builder.Ready
  layout : builder.layout = environment.layout
  leads : ∀ final, builder.function.KeptIn final → final.Reaches environment origin state
  known : ∀ fact ∈ facts, fact.1.Below builder.nextId ∧
    state.machine.value? environment fact.1 = some fact.2

theorem here_eq_of_empty (empty : builder.function.idsOf builder.current = []) :
    builder.here machine = ⟨builder.current, 0, machine⟩ := by
  rw [here, empty]
  rfl

theorem keptIn_append (builder : Builder) (operands : List Value) (instruction : Instruction) :
    builder.function.KeptIn (builder.append operands instruction).function := by
  rw [append_function]
  exact ((FunctionDef.Extends.withSymbols ..).trans (.push ..)).keptIn

theorem isOpen_append (isOpen : builder.function.finished = false) (operands : List Value)
    (instruction : Instruction) :
    (builder.append operands instruction).function.finished = false := by
  rw [append_function]
  exact isOpen

theorem nextId_append (builder : Builder) (operands : List Value) (instruction : Instruction) :
    (builder.append operands instruction).nextId = builder.nextId + 1 := by
  rw [nextId, append_instructions, List.length_append]
  rfl

theorem found_append (builder : Builder) (operands : List Value) (instruction : Instruction) :
    (builder.append operands instruction).function.instruction? builder.nextId =
      some instruction := by
  rw [FunctionDef.instruction?, append_instructions, List.getElem?_concat_length]

theorem symbolsFrom_append (builder : Builder) (operands : List Value)
    (instruction : Instruction) : (builder.append operands instruction).function.SymbolsFrom
      builder.function.symbols.length operands := by
  intro offset value found
  rw [append_function]
  exact (FunctionDef.symbol?_withSymbols ..).trans found

theorem symbolsFrom_of_append {operands : List Value} {instruction : Instruction}
    {final : FunctionDef} (kept : (builder.append operands instruction).function.KeptIn final) :
    final.SymbolsFrom builder.function.symbols.length operands :=
  fun offset value found =>
    kept.grows.symbol? (builder.symbolsFrom_append operands instruction offset value found)

theorem idsOf_append (ready : builder.Ready) (operands : List Value) (instruction : Instruction) :
    (builder.append operands instruction).function.idsOf builder.current =
      builder.function.idsOf builder.current ++ [builder.nextId] := by
  have inArena : (builder.function.withSymbols operands).HasBlock builder.current := ready.current
  rw [append_function]
  exact FunctionDef.idsOf_push_self inArena instruction

theorem here_append (ready : builder.Ready) (operands : List Value) (instruction : Instruction) :
    (builder.append operands instruction).here next =
      ⟨builder.current, (builder.function.idsOf builder.current).length + 1, next⟩ := by
  rw [here, append_current, idsOf_append ready, List.length_append]
  rfl

/-- An appended instruction stands behind the code that was written before. -/
theorem located_of_append (ready : builder.Ready) {operands : List Value}
    {instruction : Instruction} {final : FunctionDef}
    (kept : (builder.append operands instruction).function.KeptIn final) :
    (final.idsOf builder.current)[(builder.function.idsOf builder.current).length]? =
        some builder.nextId ∧ final.instruction? builder.nextId = some instruction := by
  constructor
  · have ids := idsOf_append ready operands instruction
    obtain ⟨more, same⟩ := kept.ids builder.current
    have position : (builder.function.idsOf builder.current).length <
        ((builder.append operands instruction).function.idsOf builder.current).length := by
      rw [ids, List.length_append]
      exact Nat.lt_succ_self _
    rw [← same, List.getElem?_append_left position, ids]
    exact List.getElem?_concat_length
  · exact kept.grows.instruction? (builder.found_append ..)

theorem Writes.keptIn {given made : List Value} {new : List Instruction}
    (writes : builder.Writes given made new after) : builder.function.KeptIn after.function := by
  refine ⟨writes.grows, fun ref => ?_⟩
  by_cases written : ref = builder.current
  · rw [written, writes.ids]
    exact List.prefix_append ..
  · exact writes.others ref written ▸ List.prefix_rfl

theorem MovesTo.keptIn {ref : BlockRef} (moves : builder.MovesTo ref after) :
    builder.function.KeptIn after.function :=
  ⟨moves.grows, fun _ => moves.ids ▸ List.prefix_rfl⟩

namespace Tracks

theorem start (ready : builder.Ready) (layout : builder.layout = environment.layout)
    (known : ∀ fact ∈ facts, fact.1.Below builder.nextId ∧
      machine.value? environment fact.1 = some fact.2) :
    builder.Tracks environment (builder.here machine) (builder.here machine) facts :=
  ⟨ready, layout, fun _ _ => .refl, known⟩

theorem value? (tracks : builder.Tracks environment origin state facts) {value : Value}
    {datum : Datum} (member : (value, datum) ∈ facts) :
    state.machine.value? environment value = some datum :=
  (tracks.known _ member).2

theorem forget (tracks : builder.Tracks environment origin state facts)
    {fewer : List (Value × Datum)} (subset : fewer ⊆ facts) :
    builder.Tracks environment origin state fewer :=
  { tracks with known := fun fact member => tracks.known fact (subset member) }

/-- The run waits while other parts of the code are written. -/
theorem keep (tracks : builder.Tracks environment origin state facts) (ready : after.Ready)
    (layout : after.layout = builder.layout)
    (kept : builder.function.KeptIn after.function) :
    after.Tracks environment origin state facts where
  ready := ready
  layout := layout.trans tracks.layout
  leads := fun final behind => tracks.leads final (kept.trans behind)
  known := by
    intro fact member
    obtain ⟨below, content⟩ := tracks.known fact member
    exact ⟨below.mono kept.grows.instructions.length_le, content⟩

/-- An empty block is entered in the code and by the run. -/
theorem enter {ref : BlockRef} (tracks : builder.Tracks environment origin ⟨ref, 0, machine⟩ facts)
    (moves : builder.MovesTo ref after) (empty : builder.function.idsOf ref = []) :
    after.Tracks environment origin (after.here machine) facts := by
  have kept := tracks.keep moves.ready moves.layout moves.keptIn
  have nothing : after.function.idsOf after.current = [] := by
    rw [moves.ids, moves.current, empty]
  rwa [here_eq_of_empty nothing, moves.current]

/-- Blocks are inserted behind the one that the run is in. -/
theorem insertBlocks (tracks : builder.Tracks environment origin (builder.here machine) facts)
    (count : Nat) : (builder.insertBlocks count).Tracks environment origin
      ((builder.insertBlocks count).here machine) facts := by
  have inserting : Effect [] [] [] builder (builder.insertBlocks count) := .insert count
  have ids : (builder.insertBlocks count).function.idsOf = builder.function.idsOf :=
    FunctionDef.idsOf_splice ..
  have kept : builder.function.KeptIn (builder.insertBlocks count).function :=
    ⟨inserting.grows, fun _ => ids ▸ List.prefix_rfl⟩
  have here : (builder.insertBlocks count).here machine = builder.here machine := by
    rw [Builder.here, Builder.here, ids]
    rfl
  rw [here]
  exact tracks.keep (inserting.ready tracks.ready) rfl kept

theorem ready_append (tracks : builder.Tracks environment origin state facts)
    (operands : List Value) (instruction : Instruction) :
    (builder.append operands instruction).Ready := by
  have nothing : builder.Writes [] [] [] builder := .nothing tracks.ready
  exact nothing.ready_append

variable {operands : List Value} {instruction : Instruction}

/-- The run goes over an appended instruction. -/
theorem append (tracks : builder.Tracks environment origin (builder.here machine) facts)
    (plain : instruction.isTerminator = false)
    (executed : ∀ final : FunctionDef,
      final.SymbolsFrom builder.function.symbols.length operands →
        final.execute? environment machine builder.nextId instruction = some next)
    (unchanged : ∀ value : Value, value.Below builder.nextId →
      next.value? environment value = machine.value? environment value) :
    (builder.append operands instruction).Tracks environment origin
      ((builder.append operands instruction).here next) facts where
  ready := tracks.ready_append operands instruction
  layout := (append_layout ..).trans tracks.layout
  leads := by
    intro final kept
    obtain ⟨located, found⟩ := located_of_append tracks.ready kept
    rw [here_append tracks.ready]
    have before := tracks.leads final ((builder.keptIn_append ..).trans kept)
    exact before.tail (FunctionDef.next?_of_execute? located found plain
      (executed final (symbolsFrom_of_append kept)))
  known := by
    intro fact member
    obtain ⟨below, content⟩ := tracks.known fact member
    exact ⟨below.mono (builder.grows_append ..).instructions.length_le,
      (unchanged _ below).trans content⟩

/-- The run follows an appended branch to the start of its target. -/
theorem branch (tracks : builder.Tracks environment origin (builder.here machine) facts)
    (ends : instruction.isTerminator = true) {target : BlockRef}
    (taken : ∀ final : FunctionDef,
      final.SymbolsFrom builder.function.symbols.length operands →
        final.target? environment machine instruction = some target) :
    (builder.append operands instruction).Tracks environment origin
      ⟨target, 0, { machine with previous := builder.current }⟩ facts where
  ready := tracks.ready_append operands instruction
  layout := (append_layout ..).trans tracks.layout
  leads := by
    intro final kept
    obtain ⟨located, found⟩ := located_of_append tracks.ready kept
    have before := tracks.leads final ((builder.keptIn_append ..).trans kept)
    exact before.tail (FunctionDef.next?_of_target? located found ends
      (taken final (symbolsFrom_of_append kept)))
  known := by
    intro fact member
    obtain ⟨below, content⟩ := tracks.known fact member
    exact ⟨below.mono (builder.grows_append ..).instructions.length_le,
      (Machine.value?_congr rfl).trans content⟩

end Tracks

end Builder

end IrAssembly
