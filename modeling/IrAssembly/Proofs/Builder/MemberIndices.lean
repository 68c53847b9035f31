import IrAssembly.Proofs.Builder.Writing

/-! Indices of members. The fields of a structure are counted. The elements of an array and the
lanes of a vector all have one type, so any index is taken for them. What is not taken is refused
and leaves no trace. -/

namespace IrAssembly

/-- Arrays and vectors have a member at every index, structures at those below their count. -/
theorem Ty.exists_member?_iff {ty : Ty} {index : Nat} :
    (∃ member, ty.member? index = some member) ↔
      (ty.element? = none → ∃ count, ty.elementCount? = some count ∧ index < count) := by
  cases ty with
  | struct name fields packed => simp [member?, element?, elementCount?, ← Option.isSome_iff_exists]
  | _ => simp [member?, element?, elementCount?]

namespace Operation

/-- The value of which an operation reads or replaces a member, and the index of the member. -/
def picked? : Operation → Option (Value × Nat)
  | extractElement vector index => some (vector, index.toNat)
  | insertElement vector _ index => some (vector, index.toNat)
  | extractValue aggregate index => some (aggregate, index.toNat)
  | insertValue aggregate _ index => some (aggregate, index.toNat)
  | _ => none

/-- The value that an operation puts in the place of a member. -/
def replacement? : Operation → Option Value
  | insertElement _ value _ | insertValue _ value _ => some value
  | _ => none

/-- Lanes of vectors are picked by operations of their own. -/
def picksLanes : Operation → Bool
  | extractElement .. | insertElement .. => true
  | _ => false

/-- The operation may pick the member at an index: it picks members of this kind, the index is below
the count of a structure, and what is put in the place of the member has its type. -/
structure Picks (operation : Operation) (whole : Ty) (index : Nat) : Prop where
  kind : whole.isVector = operation.picksLanes
  counted : whole.element? = none → ∃ count, whole.elementCount? = some count ∧ index < count
  fits : ∀ part ∈ operation.replacement?, whole.member? index = some part.ty

variable {operation : Operation} {whole : Ty} {index : Nat} {lanes : Bool}

theorem picks_iff_of_reads (kind : operation.picksLanes = lanes)
    (reads : operation.replacement? = none) :
    (whole.isVector = lanes ∧ ∃ member, whole.member? index = some member) ↔
      operation.Picks whole index := by
  subst kind
  rw [Ty.exists_member?_iff]
  exact ⟨fun ⟨kind, counted⟩ => ⟨kind, counted, by simp [reads]⟩,
    fun picks => ⟨picks.kind, picks.counted⟩⟩

theorem picks_iff_of_replaces {part : Value} (kind : operation.picksLanes = lanes)
    (replaces : operation.replacement? = some part) :
    (whole.isVector = lanes ∧ whole.member? index = some part.ty) ↔
      operation.Picks whole index := by
  subst kind
  constructor
  · rintro ⟨kind, found⟩
    exact ⟨kind, Ty.exists_member?_iff.mp ⟨part.ty, found⟩, by simpa [replaces] using found⟩
  · exact fun picks => ⟨picks.kind, picks.fits part replaces⟩

end Operation

namespace Build

variable {builder : Builder} {lanes : Bool} {ty : Ty} {index : Nat}

/-- The step gives a value just if the condition holds. Otherwise it is refused, and nothing has
happened. -/
def Decides (step : Build Value) (builder : Builder) (condition : Prop) : Prop :=
  Ends step builder (fun _ _ => condition) fun failure after =>
    ¬ condition ∧ (∃ error, failure = .refused error) ∧ after = builder

theorem Decides.congr {step : Build Value} {condition other : Prop}
    (decides : Decides step builder condition) (same : condition ↔ other) :
    Decides step builder other := by
  rwa [Decides, ← same]

/-- A check that gives the type of the member at an index, or is refused if there is none. Lanes are
looked for in vectors only, other members in no vector. -/
def Finds (check : Build Ty) (lanes : Bool) (ty : Ty) (index : Nat) : Prop :=
  ∀ builder, Ends check builder
    (fun member after => (ty.isVector = lanes ∧ ty.member? index = some member) ∧ after = builder)
    fun failure after => (∀ member, ¬ (ty.isVector = lanes ∧ ty.member? index = some member)) ∧
      (∃ error, failure = .refused error) ∧ after = builder

theorem expectVector_finds (operation : String) (value : Value) (index : Nat) :
    Finds (expectVector operation value) true value.ty index := by
  intro builder
  unfold expectVector
  split
  · rename_i len element vector
    exact ⟨⟨by rw [vector]; rfl, by rw [vector]; rfl⟩, rfl⟩
  · rename_i found noVector
    refine ⟨?_, ⟨_, rfl⟩, rfl⟩
    rintro member ⟨isVector, _⟩
    cases ty : value.ty with
    | vector len element => exact noVector len element ty
    | _ => simp [ty, Ty.isVector] at isVector

theorem aggregateMember_finds (operation : String) (ty : Ty) (index : UInt64) :
    Finds (aggregateMember operation ty index) false ty index.toNat := by
  intro builder
  cases ty with
  | array len element => exact ⟨⟨rfl, rfl⟩, rfl⟩
  | struct name fields packed =>
    unfold aggregateMember
    dsimp only
    cases found : Ty.member? (.struct name fields packed) index.toNat with
    | none => exact ⟨fun member there => (nomatch there.2), ⟨_, rfl⟩, rfl⟩
    | some member => exact ⟨⟨rfl, rfl⟩, rfl⟩
  | vector len element => exact ⟨fun member there => (nomatch there.1), ⟨_, rfl⟩, rfl⟩
  | _ => exact ⟨fun member there => (nomatch there.2), ⟨_, rfl⟩, rfl⟩

/-- Reading a member needs no more than that there is one. -/
theorem Finds.reads {check : Build Ty} {next : Ty → Build Value}
    (finds : Finds check lanes ty index)
    (succeeds : ∀ member, Succeeds (next member) builder fun _ _ => True) :
    Decides (check >>= next) builder
      (ty.isVector = lanes ∧ ∃ member, ty.member? index = some member) := by
  rw [Decides, ends_bind]
  refine (finds builder).mono ?_ ?_
  · rintro member _ ⟨⟨kind, found⟩, rfl⟩
    exact (succeeds member).mono (fun _ _ _ => ⟨kind, member, found⟩) fun _ _ never => never.elim
  · rintro failure _ ⟨missing, refused, rfl⟩
    exact ⟨fun ⟨kind, member, found⟩ => missing member ⟨kind, found⟩, refused, rfl⟩

/-- A member is replaced by a value of its type. -/
theorem Finds.replaces {check : Build Ty} {next : Build Value} {part : Value} {operation : String}
    (finds : Finds check lanes ty index) (succeeds : Succeeds next builder fun _ _ => True) :
    Decides (check >>= fun member => expectTy operation member part >>= fun _ => next) builder
      (ty.isVector = lanes ∧ ty.member? index = some part.ty) := by
  rw [Decides, ends_bind]
  refine (finds builder).mono ?_ ?_
  · rintro member _ ⟨⟨kind, found⟩, rfl⟩
    by_cases same : part.ty = member
    · subst same
      simp only [expectTy, ne_eq, not_true_eq_false, if_false, pure_bind]
      exact succeeds.mono (fun _ _ _ => ⟨kind, found⟩) fun _ _ never => never.elim
    · simp only [expectTy, ne_eq, same, not_false_eq_true, if_true]
      refine ⟨?_, ⟨_, rfl⟩, rfl⟩
      rintro ⟨_, other⟩
      exact same (Option.some.inj (other.symm.trans found))
  · rintro failure _ ⟨missing, refused, rfl⟩
    exact ⟨missing part.ty, refused, rfl⟩

/-! The operations -/

theorem extractElement_decides (isOpen : builder.function.finished = false) (vector : Value)
    (index : UInt32) : Decides (extractElement vector index) builder
      (vector.ty.isVector = true ∧ ∃ member, vector.ty.member? index.toNat = some member) := by
  refine (expectVector_finds _ vector index.toNat).reads fun member => ?_
  rw [Succeeds, ends_operand isOpen, ends_nextOperand isOpen,
    ends_emitValue_registered isOpen fun _ => rfl]
  trivial

theorem insertElement_decides (isOpen : builder.function.finished = false) (vector value : Value)
    (index : UInt32) : Decides (insertElement vector value index) builder
      (vector.ty.isVector = true ∧ vector.ty.member? index.toNat = some value.ty) := by
  refine (expectVector_finds _ vector index.toNat).replaces ?_
  rw [Succeeds, ends_operand isOpen, ends_nextOperand isOpen, ends_nextOperand isOpen,
    ends_emitValue_registered isOpen fun _ => rfl]
  trivial

theorem extractValue_decides (isOpen : builder.function.finished = false) (aggregate : Value)
    (index : UInt64) : Decides (extractValue aggregate index) builder
      (aggregate.ty.isVector = false ∧
        ∃ member, aggregate.ty.member? index.toNat = some member) := by
  refine (aggregateMember_finds _ aggregate.ty index).reads fun member => ?_
  rw [Succeeds, ends_operand isOpen, ends_emitValue_registered isOpen fun _ => rfl]
  trivial

theorem insertValue_decides (isOpen : builder.function.finished = false) (aggregate value : Value)
    (index : UInt64) : Decides (insertValue aggregate value index) builder
      (aggregate.ty.isVector = false ∧ aggregate.ty.member? index.toNat = some value.ty) := by
  refine (aggregateMember_finds _ aggregate.ty index).replaces ?_
  rw [Succeeds, ends_operand isOpen, ends_nextOperand isOpen,
    ends_emitValue_registered isOpen fun _ => rfl]
  trivial

/-- What an operation answers that gives the value of a step. -/
theorem Decides.answer {step : Build Value} {condition : Prop}
    (decides : Decides step builder condition) {ended : Except Failure Answer × Builder}
    (ran : (Answer.value <$> step).run builder = ended) :
    ((∃ value, ended.1 = .ok (.value value)) ↔ condition) ∧
      (condition ∨ ∃ error, ended = (.error (.refused error), builder)) := by
  have answers : Ends (Answer.value <$> step) builder
      (fun answer _ => condition ∧ ∃ value, answer = .value value)
      (fun failure after =>
        ¬ condition ∧ (∃ error, failure = .refused error) ∧ after = builder) :=
    (ends_map step Answer.value).mpr
      (decides.mono (fun value _ holds => ⟨holds, value, rfl⟩) fun _ _ ends => ends)
  rw [Ends, ran] at answers
  obtain ⟨outcome, after⟩ := ended
  cases outcome with
  | ok answer =>
    obtain ⟨holds, value, rfl⟩ := answers
    exact ⟨iff_of_true ⟨value, rfl⟩ holds, .inl holds⟩
  | error failure =>
    obtain ⟨fails, ⟨error, rfl⟩, rfl⟩ := answers
    refine ⟨iff_of_false ?_ fails, .inr ⟨error, rfl⟩⟩
    rintro ⟨value, never⟩
    cases never

end Build

namespace Operation

variable {builder : Builder} {operation : Operation} {whole : Value} {index : Nat}

/-- A member is read or replaced just if the operation may pick it. Of the index this asks that it
is below the count of a structure, and nothing for arrays and vectors. Any other member is refused,
and nothing has happened. -/
theorem member_picked_iff (isOpen : builder.function.finished = false)
    (picks : operation.picked? = some (whole, index)) :
    let ended := operation.step builder
    ((∃ value, ended.1 = .ok (.value value)) ↔ operation.Picks whole.ty index) ∧
      (operation.Picks whole.ty index ∨ ∃ error, ended = (.error (.refused error), builder)) := by
  cases operation with
  | extractElement vector position =>
    cases picks
    exact ((Build.extractElement_decides isOpen whole position).congr
      (picks_iff_of_reads rfl rfl)).answer rfl
  | insertElement vector part position =>
    cases picks
    exact ((Build.insertElement_decides isOpen whole part position).congr
      (picks_iff_of_replaces rfl rfl)).answer rfl
  | extractValue aggregate position =>
    cases picks
    exact ((Build.extractValue_decides isOpen whole position).congr
      (picks_iff_of_reads rfl rfl)).answer rfl
  | insertValue aggregate part position =>
    cases picks
    exact ((Build.insertValue_decides isOpen whole part position).congr
      (picks_iff_of_replaces rfl rfl)).answer rfl
  | _ => cases picks

/-- The second field of a pair is read, and there is no third one. -/
theorem field_picked_below_count : ∃ builder : Builder, builder.Reachable ∧
    let pair : Value := .parameter ⟨0, "arg_1", .struct none [.i32, .float .single] false⟩
    (∃ value, ((extractValue pair 1).step builder).1 = .ok (.value value)) ∧
      ∃ error, (extractValue pair 2).step builder = (.error (.refused error), builder) := by
  have reachable := Builder.Reachable.run
    (.fresh "f" ⟨.void, [.struct none [.i32, .float .single] false], false⟩)
    (Builder.run_start rfl .x86_64) [.nextParameter]
  refine ⟨_, reachable, ?_⟩
  intro pair
  obtain ⟨accepted, _⟩ := member_picked_iff reachable.ready.isOpen
    (show (extractValue pair 1).picked? = some (pair, 1) from rfl)
  obtain ⟨_, refused⟩ := member_picked_iff reachable.ready.isOpen
    (show (extractValue pair 2).picked? = some (pair, 2) from rfl)
  constructor
  · exact accepted.mpr ⟨rfl, fun _ => ⟨2, rfl, by decide⟩, by simp [replacement?]⟩
  · refine refused.resolve_left fun picks => ?_
    obtain ⟨count, two, below⟩ := picks.counted rfl
    cases two
    exact absurd below (by decide)

/-- The eighth element of an array of two and the tenth lane of four are taken as they are given. -/
theorem member_picked_past_count : ∃ builder : Builder, builder.Reachable ∧
    let pair : Value := .parameter ⟨0, "arg_1", .array 2 .i32⟩
    let quad : Value := .parameter ⟨1, "arg_2", .vector 4 .i32⟩
    let element := (extractValue pair 7).step builder
    let lane := (extractElement quad 9).step builder
    pair.ty.elementCount? = some 2 ∧ element.1 = .ok (.value (.result ⟨0, "1", .i32⟩)) ∧
      element.2.function.instructions = [.extractValue ⟨"1", .i32⟩ 0 7] ∧
    quad.ty.elementCount? = some 4 ∧ lane.1 = .ok (.value (.result ⟨0, "1", .i32⟩)) ∧
      lane.2.function.instructions = [.extractElement ⟨"1", .i32⟩ 0 1] ∧
      lane.2.function.symbols = [quad, .constant (.i32 9)] := by
  have reachable := Builder.Reachable.run
    (.fresh "f" ⟨.void, [.array 2 .i32, .vector 4 .i32], false⟩)
    (Builder.run_start rfl .x86_64) [.nextParameter, .nextParameter]
  exact ⟨_, reachable, rfl, rfl, rfl, rfl, rfl, rfl, rfl⟩

end Operation

end IrAssembly
