import IrAssembly.Assembly.Listing
import IrAssembly.Proofs.Builder.Session

/-! Functions that come out of a builder can be written in both dialects: everything that the
writer looks up or takes apart was checked when the instruction was appended. -/

namespace IrAssembly

/-- Writing gives a result, not an error. -/
def Writes {α : Type} (outcome : Except WriteError α) : Prop := ∃ result, outcome = .ok result

namespace Writes

variable {α β : Type}

theorem pure (result : α) : Writes (Pure.pure result) := ⟨result, rfl⟩

theorem bind {outcome : Except WriteError α} {next : α → Except WriteError β}
    (first : Writes outcome) (second : ∀ result, outcome = .ok result → Writes (next result)) :
    Writes (outcome >>= next) := by
  obtain ⟨result, same⟩ := first
  obtain ⟨last, written⟩ := second result same
  exact ⟨last, by rw [same]; exact written⟩

theorem mapM {write : α → Except WriteError β} {items : List α}
    (each : ∀ item ∈ items, Writes (write item)) : Writes (items.mapM write) := by
  induction items with
  | nil => exact .pure []
  | cons item items ih =>
    rw [List.mapM_cons]
    refine (each item (List.mem_cons_self ..)).bind fun first _ => ?_
    refine (ih fun other member => each other (List.mem_cons_of_mem _ member)).bind fun _ _ => ?_
    exact .pure _

end Writes

/-! Constants -/

/-- Types that have brackets: arrays, vectors and structures. -/
inductive Ty.Bracketed : Ty → Prop where
  | array : Bracketed (.array len element)
  | vector : Bracketed (.vector lanes element)
  | struct : Bracketed (.struct name fields packed)

theorem Ty.Bracketed.writes {ty : Ty} (bracketed : ty.Bracketed) :
    Writes (aggregateBrackets ty) := by
  cases bracketed with
  | array => exact ⟨_, rfl⟩
  | vector => exact ⟨_, rfl⟩
  | @struct name fields packed => cases packed <;> exact ⟨_, rfl⟩

/-- Well formed at every depth: aggregates have an aggregate type, and address computations start
from a pointer. -/
inductive Constant.WellFormed : Constant → Prop where
  | int : WellFormed (.int type value)
  | bigInt : WellFormed (.bigInt type number)
  | float : WellFormed (.float constant)
  | null : WellFormed (.null type)
  | undef : WellFormed (.undef type)
  | zero : WellFormed (.zero type)
  | aggregate (bracketed : type.Bracketed)
      (elements : ∀ element ∈ items, WellFormed element) : WellFormed (.aggregate type items)
  | inlineAsm : WellFormed (.inlineAsm assembly)
  | elementPointer (pointer : base.ty = .ptr pointee) (start : WellFormed base)
      (steps : ∀ index ∈ indices, WellFormed index) :
      WellFormed (.elementPointer type base indices inbounds)
  | global : WellFormed (.global name type)

namespace Constant

variable {dialect : Dialect}

theorem typedTexts_writes {items : List Constant}
    (each : ∀ item ∈ items, Writes (item.text dialect)) : Writes (typedTexts dialect items) := by
  induction items with
  | nil => exact ⟨[], rfl⟩
  | cons item items ih =>
    rw [typedTexts]
    refine (each item (List.mem_cons_self ..)).bind fun first _ => ?_
    refine (ih fun other member => each other (List.mem_cons_of_mem _ member)).bind fun _ _ => ?_
    exact .pure _

theorem explicitPointee_writes {base pointee : Ty} (pointer : base = .ptr pointee) :
    Writes (explicitPointee dialect base) := by
  subst pointer
  cases dialect with
  | v32 => exact ⟨"", rfl⟩
  | v38 => exact ⟨pointee.text ++ ", ", rfl⟩

theorem WellFormed.text_writes {constant : Constant} (wellFormed : constant.WellFormed) :
    Writes (constant.text dialect) := by
  induction wellFormed with
  | aggregate bracketed elements ih =>
    rw [text]
    refine bracketed.writes.bind fun _ _ => ?_
    exact (typedTexts_writes ih).bind fun _ _ => .pure _
  | elementPointer pointer start steps baseIh stepsIh =>
    rw [text]
    refine (explicitPointee_writes pointer).bind fun _ _ => ?_
    refine baseIh.bind fun _ _ => ?_
    exact (typedTexts_writes stepsIh).bind fun _ _ => .pure _
  | _ => exact ⟨_, rfl⟩

end Constant

/-! Operands -/

/-- Only functions are written with another type than their own. -/
theorem Value.operandTy_eq_ty {value : Value} (data : value.ty.signature? = none) :
    value.operandTy = value.ty := by
  cases value with
  | function callee => cases data
  | _ => rfl

namespace FunctionDef

variable {function : FunctionDef} {dialect : Dialect}

/-- All constants among the operands are well formed. -/
def WellFormedConstants (function : FunctionDef) : Prop :=
  ∀ known, .constant known ∈ function.symbols → known.WellFormed

theorem registered_of_tyOf? {index : SymbolIndex} {ty : Ty}
    (typed : function.tyOf? index = some ty) :
    ∃ value, function.symbol? index = some value ∧ value.ty = ty :=
  Option.map_eq_some_iff.mp typed

theorem operand_of_symbol? {index : SymbolIndex} {value : Value}
    (found : function.symbol? index = some value) : function.operand index = .ok value := by
  rw [operand, found]

theorem text_writes (constants : function.WellFormedConstants) {index : SymbolIndex}
    {value : Value} (found : function.symbol? index = some value) :
    Writes (value.text dialect) := by
  cases value with
  | constant known => exact (constants known (List.mem_of_getElem? found)).text_writes
  | _ => exact ⟨_, rfl⟩

theorem operandText_writes (constants : function.WellFormedConstants) {index : SymbolIndex}
    (registered : ∃ value, function.symbol? index = some value) :
    Writes (function.operandText dialect index) := by
  obtain ⟨value, found⟩ := registered
  rw [operandText, operand_of_symbol? found]
  exact text_writes constants found

theorem typedOperand_writes (constants : function.WellFormedConstants) {index : SymbolIndex}
    (registered : ∃ value, function.symbol? index = some value) :
    Writes (function.typedOperand dialect index) := by
  obtain ⟨value, found⟩ := registered
  rw [typedOperand, operand_of_symbol? found]
  exact (text_writes constants found).bind fun _ _ => .pure _

theorem operandTy_of_symbol? {index : SymbolIndex} {value : Value}
    (found : function.symbol? index = some value) :
    function.operandTy index = .ok value.operandTy := by
  rw [operandTy, operand_of_symbol? found]
  rfl

theorem operandTy_of_pointer {index : SymbolIndex} {pointee : Ty}
    (pointer : function.tyOf? index = some (.ptr pointee)) :
    function.operandTy index = .ok (.ptr pointee) := by
  obtain ⟨value, found, same⟩ := registered_of_tyOf? pointer
  rw [operandTy_of_symbol? found, Value.operandTy_eq_ty (same ▸ rfl), same]

theorem blockName_writes {ref : BlockRef} (inArena : function.HasBlock ref) :
    Writes (function.blockName ref) := by
  have found : function.block? ref = some function.blocks[ref.id] :=
    List.getElem?_eq_getElem inArena
  unfold blockName
  rw [found]
  split
  · exact ⟨_, rfl⟩
  · exact ⟨_, rfl⟩
  · rename_i missing
    cases missing

theorem labelText_writes {ref : BlockRef} (inArena : function.HasBlock ref) :
    Writes (function.labelText ref) :=
  (blockName_writes inArena).bind fun _ _ => .pure _

theorem callText_writes (constants : function.WellFormedConstants) {target : SymbolIndex}
    {arguments : List SymbolIndex} {signature : Signature}
    (calls : function.Calls target arguments signature) :
    Writes (function.callText dialect target arguments) := by
  obtain ⟨callee, found, _, below⟩ := calls.target
  have known : callee.ty.stripPointers.signature? = some signature := by
    rw [below]
    rfl
  refine Writes.bind ⟨callee, operand_of_symbol? found⟩ fun result same => ?_
  cases (operand_of_symbol? found).symm.trans same
  dsimp only
  rw [known]
  refine (text_writes constants found).bind fun _ _ => ?_
  refine (Writes.mapM fun argument member => ?_).bind fun _ _ => .pure _
  exact typedOperand_writes constants (calls.known argument member)

end FunctionDef

theorem registered_of_forall₂ {function : FunctionDef} {indices : List SymbolIndex}
    {values : List Value}
    (walked : List.Forall₂ (fun index value => function.symbol? index = some value)
      indices values) :
    ∀ index ∈ indices, ∃ value, function.symbol? index = some value := by
  induction walked with
  | nil => simp
  | cons found _ ih => exact List.forall_mem_cons.mpr ⟨⟨_, found⟩, ih⟩

namespace Instruction.Typed

variable {function : FunctionDef} {instruction : Instruction} {dialect : Dialect}

/-- The operands of a typed instruction are registered. -/
theorem registered (typed : instruction.Typed function) :
    ∀ index ∈ instruction.operands, ∃ value, function.symbol? index = some value := by
  have known {index : SymbolIndex} {ty : Ty} (typed : function.tyOf? index = some ty) :
      ∃ value, function.symbol? index = some value := by
    obtain ⟨value, found, _⟩ := FunctionDef.registered_of_tyOf? typed
    exact ⟨value, found⟩
  cases typed with
  | allocate integer => simpa [operands] using known integer
  | load pointer => simpa [operands] using known pointer
  | store pointer stored => simpa [operands] using ⟨known pointer, known stored⟩
  | binary left right | compareLanes left right | compare left right =>
    simpa [operands] using ⟨known left, known right⟩
  | cast source => simpa [operands] using known source
  | call calls | voidCall calls =>
    obtain ⟨callee, found, _⟩ := calls.target
    exact List.forall_mem_cons.mpr ⟨⟨callee, found⟩, calls.known⟩
  | branch | retVoid | unreachable => simp [operands]
  | conditionalBranch bit => simpa [operands] using known bit
  | indirectBranch pointer => simpa [operands] using known pointer
  | switch integer same =>
    refine List.forall_mem_cons.mpr ⟨known integer, List.forall_mem_map.mpr fun case held => ?_⟩
    exact known (same case held)
  | literalSwitch integer => simpa [operands] using known integer
  | phi same => exact List.forall_mem_map.mpr fun edge held => known (same edge held)
  | elementPointer pointer walked reaches =>
    exact List.forall_mem_cons.mpr ⟨known pointer, registered_of_forall₂ walked⟩
  | extractElement lanes number => simpa [operands] using ⟨known lanes, known number⟩
  | insertElement lanes lane number =>
    simpa [operands] using ⟨known lanes, known lane, known number⟩
  | extractValue whole => simpa [operands] using known whole
  | insertValue whole _ _ replaced => simpa [operands] using ⟨known whole, known replaced⟩
  | select _ chosen left right => simpa [operands] using ⟨known chosen, known left, known right⟩
  | shuffleVector left right picks =>
    simpa [operands] using ⟨known left, known right, known picks⟩
  | ret source => simpa [operands] using known source

/-- Operands and blocks are found, and the pointers that the writer takes apart are pointers. -/
theorem bodyText_writes (typed : instruction.Typed function)
    (constants : function.WellFormedConstants)
    (aims : ∀ ref ∈ instruction.blocks, function.HasBlock ref) :
    Writes (function.bodyText dialect instruction) := by
  have bare {index : SymbolIndex} (member : index ∈ instruction.operands) :
      Writes (function.operandText dialect index) :=
    FunctionDef.operandText_writes constants (typed.registered index member)
  have withTy {index : SymbolIndex} (member : index ∈ instruction.operands) :
      Writes (function.typedOperand dialect index) :=
    FunctionDef.typedOperand_writes constants (typed.registered index member)
  have label {ref : BlockRef} (member : ref ∈ instruction.blocks) :
      Writes (function.labelText ref) := FunctionDef.labelText_writes (aims ref member)
  cases typed with
  | allocate integer =>
    obtain ⟨value, found, _⟩ := FunctionDef.registered_of_tyOf? integer
    have written : Writes (value.text dialect) := FunctionDef.text_writes constants found
    refine Writes.bind ⟨value, FunctionDef.operand_of_symbol? found⟩ fun result same => ?_
    cases (FunctionDef.operand_of_symbol? found).symm.trans same
    dsimp only
    split
    · exact .pure _
    · exact (written.bind fun _ _ => .pure _).bind fun _ _ => .pure _
  | load pointer => exact (withTy (.head _)).bind fun _ _ => .pure _
  | store pointer stored =>
    refine Writes.bind ⟨_, FunctionDef.operandTy_of_pointer pointer⟩ fun result same => ?_
    cases (FunctionDef.operandTy_of_pointer pointer).symm.trans same
    refine (bare (.tail _ (.head _))).bind fun _ _ => ?_
    exact (bare (.head _)).bind fun _ _ => .pure _
  | binary left right =>
    refine (bare (.head _)).bind fun _ _ => ?_
    exact (bare (.tail _ (.head _))).bind fun _ _ => .pure _
  | compareLanes left right | compare left right =>
    refine (withTy (.head _)).bind fun _ _ => ?_
    exact (bare (.tail _ (.head _))).bind fun _ _ => .pure _
  | cast source => exact (withTy (.head _)).bind fun _ _ => .pure _
  | call calls | voidCall calls => exact FunctionDef.callText_writes constants calls
  | branch => exact (label (.head _)).bind fun _ _ => .pure _
  | conditionalBranch bit =>
    refine (withTy (.head _)).bind fun _ _ => ?_
    refine (label (.head _)).bind fun _ _ => ?_
    exact (label (.tail _ (.head _))).bind fun _ _ => .pure _
  | indirectBranch pointer =>
    refine (Writes.mapM fun ref member => label member).bind fun _ _ => ?_
    exact (withTy (.head _)).bind fun _ _ => .pure _
  | switch integer same =>
    refine (Writes.mapM fun case held => ?_).bind fun _ _ => ?_
    · refine (withTy (.tail _ (List.mem_map_of_mem held))).bind fun _ _ => ?_
      exact (label (.tail _ (List.mem_map_of_mem held))).bind fun _ _ => .pure _
    · refine (withTy (.head _)).bind fun _ _ => ?_
      exact (label (.head _)).bind fun _ _ => .pure _
  | literalSwitch integer =>
    obtain ⟨value, found, _⟩ := FunctionDef.registered_of_tyOf? integer
    refine Writes.bind ⟨_, FunctionDef.operandTy_of_symbol? found⟩ fun ty _ => ?_
    refine (Writes.mapM fun case held => ?_).bind fun _ _ => ?_
    · exact (label (.tail _ (List.mem_map_of_mem held))).bind fun _ _ => .pure _
    · refine (withTy (.head _)).bind fun _ _ => ?_
      exact (label (.head _)).bind fun _ _ => .pure _
  | phi same =>
    refine (Writes.mapM fun edge held => ?_).bind fun _ _ => .pure _
    refine (bare (List.mem_map_of_mem held)).bind fun _ _ => ?_
    have inArena := aims edge.2 (List.mem_map_of_mem held)
    exact (FunctionDef.blockName_writes inArena).bind fun _ _ => .pure _
  | elementPointer pointer walked reaches =>
    refine Writes.bind ⟨_, FunctionDef.operandTy_of_pointer pointer⟩ fun result same => ?_
    cases (FunctionDef.operandTy_of_pointer pointer).symm.trans same
    refine (Constant.explicitPointee_writes rfl).bind fun _ _ => ?_
    refine (withTy (.head _)).bind fun _ _ => ?_
    exact (Writes.mapM fun index member => withTy (.tail _ member)).bind fun _ _ => .pure _
  | extractElement lanes number | insertElement lanes lane number =>
    exact (Writes.mapM fun index member => withTy member).bind fun _ _ => .pure _
  | extractValue whole => exact (withTy (.head _)).bind fun _ _ => .pure _
  | insertValue whole _ _ replaced =>
    refine (withTy (.head _)).bind fun _ _ => ?_
    exact (withTy (.tail _ (.head _))).bind fun _ _ => .pure _
  | select _ chosen left right | shuffleVector left right picks =>
    exact (Writes.mapM fun index member => withTy member).bind fun _ _ => .pure _
  | ret source => exact (withTy (.head _)).bind fun _ _ => .pure _
  | retVoid => exact .pure _
  | unreachable => exact .pure _

end Instruction.Typed

/-! Functions -/

/-- All blocks that instructions mention are blocks of the function. -/
def FunctionDef.Closed (function : FunctionDef) : Prop :=
  ∀ instruction ∈ function.instructions, ∀ ref ∈ instruction.blocks, function.HasBlock ref

namespace FunctionDef

variable {function : FunctionDef} {dialect : Dialect}

theorem line_writes (wellTyped : function.WellTyped) (closed : function.Closed)
    (constants : function.WellFormedConstants) {instruction : Instruction}
    (member : instruction ∈ function.instructions) :
    Writes (function.line dialect instruction) := by
  have typed := wellTyped.instructions instruction member
  refine (typed.bodyText_writes constants (closed instruction member)).bind fun _ _ => ?_
  cases instruction.result? <;> exact .pure _

theorem instructionLines_writes (coherent : function.Coherent) (wellTyped : function.WellTyped)
    (closed : function.Closed) (constants : function.WellFormedConstants) {block : Block}
    (held : block ∈ function.blocks) : Writes (function.instructionLines dialect block) := by
  refine Writes.mapM fun id member => ?_
  have bound := coherent.instruction_lt held member
  have found : function.instruction? id = some function.instructions[id] :=
    List.getElem?_eq_getElem bound
  rw [found]
  exact (line_writes wellTyped closed constants (List.getElem_mem bound)).bind fun _ _ => .pure _

theorem assembly_writes (coherent : function.Coherent) (wellTyped : function.WellTyped)
    (closed : function.Closed) (constants : function.WellFormedConstants) :
    Writes (function.assembly dialect) := by
  have blockLines {block : Block} (member : block ∈ function.orderedBlocks) :
      Writes (function.instructionLines dialect block) := by
    obtain ⟨ref, _, found⟩ := List.mem_filterMap.mp member
    exact instructionLines_writes coherent wellTyped closed constants (List.mem_of_getElem? found)
  refine Writes.bind ?_ fun _ _ => .pure _
  unfold lines
  split
  · exact .pure _
  · rename_i entry later ordered
    rw [ordered] at blockLines
    refine (blockLines (.head _)).bind fun _ _ => ?_
    refine (Writes.mapM fun block member => ?_).bind fun _ _ => .pure _
    exact (blockLines (.tail _ member)).bind fun _ _ => .pure _

end FunctionDef

/-- Operations on the function's own values and blocks lead to its own blocks only. -/
theorem Effect.closed {names : List String} {builder after : Builder}
    (effect : Effect [] [] names builder after) (closed : builder.function.Closed) :
    after.function.Closed := by
  have grows := effect.grows
  have keeps (same : after.function.instructions = builder.function.instructions) :
      after.function.Closed := by
    intro instruction member ref mentioned
    rw [same] at member
    exact grows.hasBlock (closed instruction member ref mentioned)
  cases effect with
  | append operands instruction known aims consecutive named typed checked =>
    intro other member ref mentioned
    apply grows.hasBlock
    rw [Builder.append_function] at member
    rcases List.mem_append.mp member with old | new
    · exact closed other old ref mentioned
    · rw [List.mem_singleton.mp new] at mentioned
      exact (aims ref mentioned).resolve_left List.not_mem_nil
  | enter =>
    obtain ⟨_, instructions, _⟩ := builder.enterNext_tables
    exact keeps instructions
  | _ => exact keeps rfl

theorem Effects.closed {names : List String} {builder after : Builder}
    (effects : Effects [] [] names builder after) (closed : builder.function.Closed) :
    after.function.Closed := by
  induction effects with
  | refl => exact closed
  | tail _ effect ih => exact effect.closed ih

namespace Session

variable {session : Session}

theorem Reached.closed (reached : Reached OwnParts session) :
    session.builder.function.Closed := by
  induction reached with
  | start started =>
    obtain ⟨_, same, _⟩ := Builder.start_ready rfl (.fresh ..) started
    rw [same]
    intro instruction member
    cases member
  | step reached operation own ih =>
    refine ((reached.sound.ownEffects own.1).narrow (by simp) ?_).closed ih
    exact fun ref member => .inr (reached.sound.blocks ref (own.2 ref member))

/-- What was built from a caller's own values and blocks can be written, finished or not, unless it
mentions an ill-formed constant. -/
theorem assembly_writes_of_reached (reached : Reached OwnParts session)
    (constants : session.builder.function.WellFormedConstants) (finished : Bool)
    (dialect : Dialect) :
    ∃ text, FunctionDef.assembly { session.builder.function with finished := finished } dialect =
      .ok text := by
  have wellTyped := (reached.mono fun _ _ own => own.1).wellTyped
  exact FunctionDef.assembly_writes (reached.sound.ready.coherent.finish finished)
    (wellTyped.transfer (.finish ..) rfl rfl) reached.closed constants

/-- A load through a constant address, and a branch to the next block. -/
theorem writes_constant_address : ∃ session : Session, Reached OwnParts session ∧
    session.builder.function.WellFormedConstants ∧
    session.builder.function.instructions.length = 2 ∧
    ∃ text, FunctionDef.assembly { session.builder.function with finished := true } .v32 =
      .ok text := by
  let fresh : FunctionDef := { name := "f", signature := ⟨.void, [], false⟩ }
  let start : Constant := .global "bytes" (.ptr (.array 3 .i8))
  let address : Constant := .elementPointer (.ptr .i8) start [.i32 0, .i32 0] true
  let opened : Session := ⟨⟨fresh.reserve 1, .x86_64, ⟨0⟩, 1, 1, none⟩, [], []⟩
  let operations : List Operation := [.getNextBlock, .load (.constant address), .branch ⟨1⟩]
  have started : Reached OwnParts opened := .start rfl
  have reached := started.run (show Permitted OwnParts opened operations from by decide +kernel)
  have symbols :
      (operations.foldl after opened).builder.function.symbols = [.constant address] := by
    decide +kernel
  have constants : (operations.foldl after opened).builder.function.WellFormedConstants := by
    intro known member
    rw [symbols, List.mem_singleton] at member
    cases member
    exact .elementPointer rfl .global (by simpa using .int)
  exact ⟨_, reached, constants, by decide +kernel, assembly_writes_of_reached reached constants ..⟩

end Session

end IrAssembly
