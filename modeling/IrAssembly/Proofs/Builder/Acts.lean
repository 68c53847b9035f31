import IrAssembly.Proofs.Builder.Primitive

/-! What a building step may do to the state, as a judgment that passes through sequences of
steps: `Acts` for operations that append at most one instruction, `Works` for sequences of them. -/

namespace IrAssembly

namespace FunctionDef

variable {function : FunctionDef}

@[simp] theorem length_symbols_withSymbols (function : FunctionDef) (values : List Value) :
    (function.withSymbols values).symbols.length = function.symbols.length + values.length := by
  simp [withSymbols]

@[simp] theorem symbol?_withSymbols (function : FunctionDef) (values : List Value) (offset : Nat) :
    (function.withSymbols values).symbol? (function.symbols.length + offset) = values[offset]? := by
  rw [symbol?, withSymbols, List.getElem?_append_right (Nat.le_add_right ..),
    Nat.add_sub_cancel_left]

@[simp] theorem tyOf?_withSymbols (function : FunctionDef) (values : List Value) (offset : Nat) :
    (function.withSymbols values).tyOf? (function.symbols.length + offset) =
      values[offset]?.map Value.ty := by
  simp [tyOf?]

@[simp] theorem tyOf?_withSymbols_first (function : FunctionDef) (value : Value)
    (values : List Value) :
    (function.withSymbols (value :: values)).tyOf? function.symbols.length = some value.ty :=
  tyOf?_withSymbols function (value :: values) 0

@[simp] theorem symbol?_withSymbols_first (function : FunctionDef) (value : Value)
    (values : List Value) :
    (function.withSymbols (value :: values)).symbol? function.symbols.length = some value :=
  symbol?_withSymbols function (value :: values) 0

/-- Registered operands are found at the indices that they were given. -/
theorem registered (function : FunctionDef) (front values : List Value) :
    List.Forall₂
      (fun index value => (function.withSymbols (front ++ values)).symbol? index = some value)
      (List.range' (function.symbols.length + front.length) values.length) values := by
  induction values generalizing front with
  | nil => simp
  | cons value values ih =>
    rw [List.length_cons, List.range'_succ]
    refine .cons ?_ ?_
    · simp
    · simpa [Nat.add_assoc] using ih (front ++ [value])

end FunctionDef

namespace Builder

variable {values : List Value} {blocks : List BlockRef} {builder after : Builder}

theorem Known.mono {value : Value} (known : builder.Known values value)
    (grows : builder.function.Grows after.function) : after.Known values value :=
  known.imp_right fun owned => owned.mono grows

theorem Aims.mono {ref : BlockRef} (aims : builder.Aims blocks ref)
    (grows : builder.function.Grows after.function) : after.Aims blocks ref :=
  aims.imp_right grows.hasBlock

end Builder

variable {values given : List Value} {blocks aimed : List BlockRef} {names : List String}
  {builder after : Builder}

/-- What a caller gives may be narrowed to what the function does not have already. -/
theorem Effect.narrow (effect : Effect given aimed names builder after)
    (known : ∀ value ∈ given, builder.Known values value)
    (aims : ∀ ref ∈ aimed, builder.Aims blocks ref) : Effect values blocks names builder after := by
  cases effect with
  | register operands operandsKnown =>
    refine .register operands fun value member => ?_
    exact (operandsKnown value member).elim (known value) .inr
  | append operands instruction operandsKnown blocksAim consecutive named typed checked =>
    refine .append operands instruction ?_ ?_ consecutive named typed checked
    · exact fun value member => (operandsKnown value member).elim (known value) .inr
    · exact fun ref member => (blocksAim ref member).elim (aims ref) .inr
  | parameter ty => exact .parameter ty
  | setName name given => exact .setName name given
  | reserve count => exact .reserve count
  | insert count => exact .insert count
  | enter => exact .enter

namespace Effects

theorem grows (effects : Effects values blocks names builder after) :
    builder.function.Grows after.function := by
  induction effects with
  | refl => exact .refl _
  | tail _ effect ih => exact ih.trans effect.grows

theorem ready (effects : Effects values blocks names builder after) (ready : builder.Ready) :
    after.Ready := by
  induction effects with
  | refl => exact ready
  | tail _ effect ih => exact effect.ready ih

/-- What every effect keeps in states that are ready, any number of effects keeps. -/
theorem keeps {property : Builder → Prop} (effects : Effects values blocks names builder after)
    (ready : builder.Ready) (holds : property builder)
    (step : ∀ {builder after : Builder}, Effect values blocks names builder after →
      builder.Ready → property builder → property after) : property after := by
  induction effects with
  | refl => exact holds
  | tail before effect ih => exact step effect (Effects.ready before ready) ih

theorem narrow (effects : Effects given aimed names builder after)
    (known : ∀ value ∈ given, builder.Known values value)
    (aims : ∀ ref ∈ aimed, builder.Aims blocks ref) :
    Effects values blocks names builder after := by
  induction effects with
  | refl => exact .refl
  | tail before effect ih =>
    refine ih.tail (effect.narrow ?_ ?_)
    · exact fun value member => (known value member).mono (grows before)
    · exact fun ref member => (aims ref member).mono (grows before)

end Effects

namespace Build

variable {α β : Type} {values : List Value} {blocks : List BlockRef} {names : List String}
  {builder : Builder}

/-- One effect if the step succeeds, none if it is refused, at most one if a rule was broken. -/
def Acts (values : List Value) (blocks : List BlockRef) (names : List String) (step : Build α)
    (builder : Builder) (gives : α → Builder → Prop) : Prop :=
  builder.Ready → Ends step builder
    (fun value after => Effect values blocks names builder after ∧ gives value after)
    (fun failure after => after = builder ∨
      (∃ violation, failure = .violated violation) ∧ Effect values blocks names builder after)

/-- Nothing but effects, however the step ends. -/
def Works (values : List Value) (blocks : List BlockRef) (names : List String) (step : Build α)
    (builder : Builder) (gives : α → Builder → Prop) : Prop :=
  builder.Ready → Ends step builder
    (fun value after => Effects values blocks names builder after ∧ gives value after)
    (fun _ after => Effects values blocks names builder after)

variable {step : Build α} {gives : α → Builder → Prop}

theorem Acts.works (acts : Acts values blocks names step builder gives) :
    Works values blocks names step builder gives := by
  intro ready
  refine (acts ready).mono ?_ ?_
  · intro value after ⟨effect, given⟩
    exact ⟨.single effect, given⟩
  · intro failure after ended
    rcases ended with rfl | ⟨_, effect⟩
    · exact .refl
    · exact .single effect

theorem Works.pure {value : α} (given : gives value builder) :
    Works values blocks names (Pure.pure value : Build α) builder gives :=
  fun _ => ⟨.refl, given⟩

theorem Works.refuse {error : BuildError} :
    Works values blocks names (Build.refuse error : Build α) builder gives :=
  fun _ => .refl

/-- What works in a row works. The second step may use what the first one has made as if the caller
had given it. -/
theorem Works.bind (made : α → List Value) (opened : α → List BlockRef)
    {next : α → Build β} {gives' : β → Builder → Prop}
    (first : Works values blocks names step builder gives)
    (known : ∀ result after, gives result after →
      ∀ value ∈ made result, after.function.Owns value)
    (aims : ∀ result after, gives result after →
      ∀ ref ∈ opened result, after.function.HasBlock ref)
    (second : ∀ result after, gives result after →
      Works (made result ++ values) (opened result ++ blocks) names (next result) after gives') :
    Works values blocks names (step >>= next) builder gives' := by
  intro ready
  rw [ends_bind]
  refine (first ready).mono ?_ fun _ _ effects => effects
  intro result middle ⟨effects, given⟩
  -- the function already has what the first step made, so nobody has to give it
  have narrowed {after : Builder}
      (others : Effects (made result ++ values) (opened result ++ blocks) names middle after) :
      Effects values blocks names builder after := by
    refine effects.trans (others.narrow ?_ ?_)
    · intro value member
      exact (List.mem_append.mp member).elim (fun new => .inr (known result middle given value new))
        .inl
    · intro ref member
      exact (List.mem_append.mp member).elim (fun new => .inr (aims result middle given ref new))
        .inl
  refine (second result middle given (effects.ready ready)).mono ?_ ?_
  · exact fun _ _ ends => ⟨narrowed ends.1, ends.2⟩
  · exact fun _ _ others => narrowed others

/-- The value of a step is at hand in the next one. -/
theorem Works.keep {step : Build Value} {next : Value → Build β} {gives : β → Builder → Prop}
    (first : Works values blocks names step builder fun value after => after.function.Owns value)
    (second : ∀ value after, after.function.Owns value →
      Works (value :: values) blocks names (next value) after gives) :
    Works values blocks names (step >>= next) builder gives :=
  first.bind (fun value => [value]) (fun _ => []) (by simp) (by simp) second

theorem Works.next {step : Build α} {next : α → Build β} {gives' : β → Builder → Prop}
    (first : Works values blocks names step builder gives)
    (second : ∀ result after, Works values blocks names (next result) after gives') :
    Works values blocks names (step >>= next) builder gives' :=
  first.bind (fun _ => []) (fun _ => []) (by simp) (by simp)
    fun result after _ => second result after

theorem Works.layout {next : DataLayout → Build α}
    (works : Works values blocks names (next builder.layout) builder gives) :
    Works values blocks names (Build.layout >>= next) builder gives := by
  intro ready
  rw [ends_bind, ends_layout]
  exact works ready

/-- A value that is returned in the end belongs to the function if it did in the beginning. -/
theorem Works.returning {step : Build Value} {value : Value}
    (owned : builder.function.Owns value)
    (works : Works values blocks names step builder fun result _ => result = value) :
    Works values blocks names step builder fun result after => after.function.Owns result := by
  intro ready
  refine (works ready).mono ?_ fun _ _ effects => effects
  intro result after ⟨effects, same⟩
  exact ⟨effects, same ▸ owned.mono effects.grows⟩

/-! The end of an operation, after its operands are registered -/

variable {operands : List Value} {failed : Failure → Builder → Prop}

/-- An instruction with a result that is appended behind its registered operands. -/
theorem ends_emitValue_registered {done : Value → Builder → Prop}
    (isOpen : builder.function.finished = false) {ty : Ty} {instruction : ResultSlot → Instruction}
    (slotted : ∀ slot, (instruction slot).result? = some slot) :
    Ends (emitValue ty instruction) (builder.register operands) done failed ↔
      done (.result ⟨builder.function.instructions.length, builder.resultName, ty⟩)
        (builder.append operands (instruction ⟨builder.resultName, ty⟩)) := by
  have stillOpen : (builder.register operands).function.finished = false := isOpen
  have appended : (builder.register operands).spendName.push
      (instruction ⟨(builder.register operands).resultName, ty⟩) =
        builder.append operands (instruction ⟨builder.resultName, ty⟩) := by
    simp [Builder.append, slotted]
  rw [ends_emitValue stillOpen, appended]
  rfl

theorem ends_emit_registered {done : Unit → Builder → Prop}
    (isOpen : builder.function.finished = false) {instruction : Instruction}
    (silent : instruction.result? = none) :
    Ends (emit instruction) (builder.register operands) done failed ↔
      done () (builder.append operands instruction) := by
  have stillOpen : (builder.register operands).function.finished = false := isOpen
  have appended : (builder.register operands).push instruction =
      builder.append operands instruction := by
    simp [Builder.append, silent]
  rw [ends_emit stillOpen, appended]

/-- Whether a target may be called depends on whose it is, so a call is known to be well typed only
if its operands are those of the function; that it was checked is known in any case. -/
theorem emitValue_acts_of_checked (ready : builder.Ready) {ty : Ty}
    {instruction : ResultSlot → Instruction}
    (slotted : ∀ slot, (instruction slot).result? = some slot)
    (known : ∀ value ∈ operands, builder.Known values value)
    (aims : ∀ ref ∈ (instruction ⟨builder.resultName, ty⟩).blocks, builder.Aims blocks ref)
    (consecutive : (instruction ⟨builder.resultName, ty⟩).operands =
      List.range' builder.function.symbols.length operands.length)
    (typed : (∀ value ∈ operands, builder.function.Owns value) →
      (instruction ⟨builder.resultName, ty⟩).Typed (builder.function.withSymbols operands))
    (checked : (instruction ⟨builder.resultName, ty⟩).Checked
      (builder.function.withSymbols operands)) :
    Ends (emitValue ty instruction) (builder.register operands)
      (fun value after => Effect values blocks names builder after ∧ after.function.Owns value)
      failed := by
  rw [ends_emitValue_registered ready.isOpen slotted]
  refine ⟨.append operands _ known aims consecutive ?_ typed checked, ?_⟩
  · intro slot result
    rw [slotted] at result
    cases result
    rfl
  · refine ⟨instruction ⟨builder.resultName, ty⟩, ?_, slotted _⟩
    rw [Builder.append_function]
    simp [FunctionDef.push, FunctionDef.instruction?, FunctionDef.withSymbols]

theorem emitValue_acts (ready : builder.Ready) {ty : Ty} {instruction : ResultSlot → Instruction}
    (slotted : ∀ slot, (instruction slot).result? = some slot)
    (known : ∀ value ∈ operands, builder.Known values value)
    (aims : ∀ ref ∈ (instruction ⟨builder.resultName, ty⟩).blocks, builder.Aims blocks ref)
    (consecutive : (instruction ⟨builder.resultName, ty⟩).operands =
      List.range' builder.function.symbols.length operands.length)
    (typed : (instruction ⟨builder.resultName, ty⟩).Typed
      (builder.function.withSymbols operands)) :
    Ends (emitValue ty instruction) (builder.register operands)
      (fun value after => Effect values blocks names builder after ∧ after.function.Owns value)
      failed :=
  emitValue_acts_of_checked ready slotted known aims consecutive (fun _ => typed) (.typed typed)

theorem emit_acts_of_checked (ready : builder.Ready) {instruction : Instruction}
    (silent : instruction.result? = none)
    (known : ∀ value ∈ operands, builder.Known values value)
    (aims : ∀ ref ∈ instruction.blocks, builder.Aims blocks ref)
    (consecutive : instruction.operands =
      List.range' builder.function.symbols.length operands.length)
    (typed : (∀ value ∈ operands, builder.function.Owns value) →
      instruction.Typed (builder.function.withSymbols operands))
    (checked : instruction.Checked (builder.function.withSymbols operands)) :
    Ends (emit instruction) (builder.register operands)
      (fun _ after => Effect values blocks names builder after ∧ True) failed := by
  rw [ends_emit_registered ready.isOpen silent]
  refine ⟨.append operands instruction known aims consecutive ?_ typed checked, trivial⟩
  intro slot result
  rw [silent] at result
  cases result

theorem emit_acts (ready : builder.Ready) {instruction : Instruction}
    (silent : instruction.result? = none)
    (known : ∀ value ∈ operands, builder.Known values value)
    (aims : ∀ ref ∈ instruction.blocks, builder.Aims blocks ref)
    (consecutive : instruction.operands =
      List.range' builder.function.symbols.length operands.length)
    (typed : instruction.Typed (builder.function.withSymbols operands)) :
    Ends (emit instruction) (builder.register operands)
      (fun _ after => Effect values blocks names builder after ∧ True) failed :=
  emit_acts_of_checked ready silent known aims consecutive (fun _ => typed) (.typed typed)

end Build

end IrAssembly
