import IrAssembly.Builder.Operation
import IrAssembly.Proofs.Builder.Control

/-! Operations that take literals, and the patterns of several instructions. A pattern passes the
values that its instructions give to the following ones, so it needs nothing but the values and
blocks that it was given itself. -/

namespace IrAssembly

/-- The value that an operand mentions. -/
def Operand.values : Operand → List Value
  | value known => [known]
  | literal _ => []

namespace Build

variable {α : Type} {values : List Value} {blocks : List BlockRef} {names : List String}
  {builder : Builder}

theorem of_map_ok {β : Type} {outcome : Except BuildError α} {change : α → β} {result : β}
    (mapped : outcome.map change = .ok result) :
    ∃ value, outcome = .ok value ∧ change value = result := by
  cases outcome with
  | error error => cases mapped
  | ok value => exact ⟨value, rfl, Except.ok.inj mapped⟩

/-- A value that may be used in every state: one that the caller gave, or one that no function
needs to own. -/
def Given (values : List Value) (value : Value) : Prop :=
  value ∈ values ∨ ∀ function : FunctionDef, function.Owns value

namespace Given

theorem known {value : Value} (given : Given values value) : builder.Known values value :=
  given.imp_right fun free => free builder.function

theorem later {value other : Value} (given : Given values value) : Given (other :: values) value :=
  given.imp_left (List.mem_cons_of_mem other)

theorem newest {value : Value} : Given (value :: values) value := .inl (List.mem_cons_self ..)

theorem constant {known : Constant} : Given values (.constant known) := .inr fun _ => trivial

theorem callee {function : FunctionRef} : Given values (.function function) :=
  .inr fun _ => trivial

theorem resolve {ty : Ty} {operand : Operand} {value : Value}
    (given : ∀ value ∈ operand.values, Given values value)
    (resolved : operand.resolve ty = .ok value) : Given values value := by
  cases operand with
  | value known =>
    cases resolved
    exact given value (List.mem_singleton_self _)
  | literal untyped =>
    obtain ⟨known, _, rfl⟩ := of_map_ok resolved
    exact constant

theorem resolvePair {operation : String} {lhs rhs : Operand} {pair : Value × Value}
    (lhsGiven : ∀ value ∈ lhs.values, Given values value)
    (rhsGiven : ∀ value ∈ rhs.values, Given values value)
    (resolved : Operand.resolvePair operation lhs rhs = .ok pair) :
    Given values pair.1 ∧ Given values pair.2 := by
  cases lhs with
  | value left =>
    have leftGiven := lhsGiven left (List.mem_singleton_self _)
    cases rhs with
    | value right =>
      cases resolved
      exact ⟨leftGiven, rhsGiven right (List.mem_singleton_self _)⟩
    | literal untyped =>
      obtain ⟨known, _, rfl⟩ := of_map_ok resolved
      exact ⟨leftGiven, constant⟩
  | literal untyped =>
    cases rhs with
    | value right =>
      obtain ⟨known, _, rfl⟩ := of_map_ok resolved
      exact ⟨constant, rhsGiven right (List.mem_singleton_self _)⟩
    | literal other => cases resolved

end Given

/-! Operations that take literals -/

theorem ends_accept {done : α → Builder → Prop} {failed : Failure → Builder → Prop}
    {outcome : Except BuildError α} (refused : ∀ error, failed (.refused error) builder)
    (passed : ∀ value, outcome = .ok value → done value builder) :
    Ends (accept outcome) builder done failed := by
  cases outcome with
  | ok value => exact passed value rfl
  | error error => exact refused error

theorem allocate_acts {ty : Ty} : Acts values blocks names (allocate ty) builder GivesOwned :=
  allocateArray_acts Given.constant.known

theorem binary_acts {operator : BinaryOperator} {lhs rhs : Value}
    (lhsKnown : builder.Known values lhs) (rhsKnown : builder.Known values rhs) :
    Acts values blocks names (binary operator lhs rhs) builder GivesOwned :=
  binaryWithFlags_acts lhsKnown rhsKnown

theorem nextParameter_acts : Acts values blocks names nextParameter builder GivesOwned := by
  intro ready
  simp only [nextParameter, ends_bind, ends_get]
  split
  · exact createParameter_acts ready
  · exact .inl rfl

theorem storeOperand_acts {destination : Value} {operand : Operand} {align : Nat}
    (destinationGiven : Given values destination)
    (operandGiven : ∀ value ∈ operand.values, Given values value) :
    Acts values blocks names (storeOperand destination operand align) builder GivesNothing := by
  intro ready
  rw [storeOperand, ends_bind]
  apply ends_expectPointer (fun _ => .inl rfl)
  intro pointee _
  rw [ends_bind]
  apply ends_accept (fun _ => .inl rfl)
  intro value resolved
  exact atomicStore_acts destinationGiven.known (Given.resolve operandGiven resolved).known ready

theorem binaryOperands_acts {operator : BinaryOperator} {lhs rhs : Operand}
    (lhsGiven : ∀ value ∈ lhs.values, Given values value)
    (rhsGiven : ∀ value ∈ rhs.values, Given values value) :
    Acts values blocks names (binaryOperands operator lhs rhs) builder GivesOwned := by
  intro ready
  rw [binaryOperands, ends_bind]
  apply ends_accept (fun _ => .inl rfl)
  intro pair resolved
  obtain ⟨left, right⟩ := Given.resolvePair lhsGiven rhsGiven resolved
  exact binary_acts left.known right.known ready

theorem compareOperands_acts {operator : CompareOperator} {lhs rhs : Operand}
    (lhsGiven : ∀ value ∈ lhs.values, Given values value)
    (rhsGiven : ∀ value ∈ rhs.values, Given values value) :
    Acts values blocks names (compareOperands operator lhs rhs) builder GivesOwned := by
  intro ready
  rw [compareOperands, ends_bind]
  apply ends_accept (fun _ => .inl rfl)
  intro pair resolved
  obtain ⟨left, right⟩ := Given.resolvePair lhsGiven rhsGiven resolved
  exact compare_acts left.known right.known ready

theorem insertOperand_acts {vector : Value} {operand : Operand} {index : UInt32}
    (vectorGiven : Given values vector)
    (operandGiven : ∀ value ∈ operand.values, Given values value) :
    Acts values blocks names (insertOperand vector operand index) builder GivesOwned := by
  intro ready
  rw [insertOperand, ends_bind]
  apply ends_expectVector (fun _ => .inl rfl)
  intro len element _
  rw [ends_bind]
  apply ends_accept (fun _ => .inl rfl)
  intro value resolved
  exact insertElement_acts vectorGiven.known (Given.resolve operandGiven resolved).known ready

theorem returnOperand_acts {operand : Operand}
    (operandGiven : ∀ value ∈ operand.values, Given values value) :
    Acts values blocks names (returnOperand operand) builder GivesNothing := by
  intro ready
  simp only [returnOperand, ends_bind, ends_function]
  apply ends_accept (fun _ => .inl rfl)
  intro value resolved
  apply ends_expectTy (fun _ => .inl rfl)
  intro _
  exact ret_acts (Given.resolve operandGiven resolved).known ready

/-! Patterns of several instructions -/

theorem returnWithCast_works {value : Value} (given : Given values value) :
    Works values blocks names (returnWithCast value) builder GivesNothing := by
  intro ready
  simp only [returnWithCast, ends_bind, ends_function]
  split
  · exact (ret_acts given.known).works ready
  · rw [ends_bind, ends_layout, ends_bind]
    apply ends_accept (fun _ => .refl)
    intro operator _
    have casts : Works values blocks names
        (cast operator builder.function.signature.result value) builder GivesOwned :=
      (cast_acts given.known).works
    exact casts.keep (fun converted _ _ => (ret_acts Given.newest.known).works) ready

theorem foldLanes_works {operator : BinaryOperator} {lanes folded : Value} {remaining lane : Nat}
    (lanesGiven : Given values lanes) (foldedGiven : Given values folded)
    (owned : builder.function.Owns folded) :
    Works values blocks names (foldLanes operator lanes remaining lane folded) builder
      GivesOwned := by
  induction remaining generalizing values folded lane builder with
  | zero => exact .pure owned
  | succ remaining ih =>
    refine .keep (extractElement_acts lanesGiven.known).works fun element _ _ => ?_
    refine .keep (binary_acts foldedGiven.later.known Given.newest.known).works ?_
    intro folded _ owned
    exact ih lanesGiven.later.later .newest owned

theorem compareVector_works {operator : CompareOperator} {lhs rhs : Operand}
    (lhsGiven : ∀ value ∈ lhs.values, Given values value)
    (rhsGiven : ∀ value ∈ rhs.values, Given values value) :
    Works values blocks names (compareVector operator lhs rhs) builder GivesOwned := by
  refine .keep (compareOperands_acts lhsGiven rhsGiven).works fun lanes _ _ => ?_
  split
  · refine .keep (extractElement_acts Given.newest.known).works fun first _ owned => ?_
    exact foldLanes_works Given.newest.later .newest owned
  · exact .refuse

theorem insertOperands_works {vector : Value} {lane : Nat} {operands : List Operand}
    (vectorGiven : Given values vector) (owned : builder.function.Owns vector)
    (operandsGiven : ∀ operand ∈ operands, ∀ value ∈ operand.values, Given values value) :
    Works values blocks names (insertOperands vector lane operands) builder GivesOwned := by
  induction operands generalizing values vector lane builder with
  | nil => exact .pure owned
  | cons operand operands ih =>
    have firstGiven := operandsGiven operand (List.mem_cons_self ..)
    refine .keep (insertOperand_acts vectorGiven firstGiven).works fun vector _ owned => ?_
    refine ih .newest owned fun operand member value mentioned => ?_
    exact (operandsGiven operand (List.mem_cons_of_mem _ member) value mentioned).later

theorem fillVector_works {source : Value} {operands : List Operand}
    (sourceGiven : Given values source)
    (operandsGiven : ∀ operand ∈ operands, ∀ value ∈ operand.values, Given values value) :
    Works values blocks names (fillVector source operands) builder GivesOwned := by
  refine .keep (load_acts sourceGiven.known).works fun vector _ owned => ?_
  refine insertOperands_works .newest owned fun operand member value mentioned => ?_
  exact (operandsGiven operand member value mentioned).later

/-! Variable arguments -/

theorem vaListTag_acts {list : Value} (given : Given values list) :
    Acts values blocks names (vaListTag list) builder GivesOwned := by
  refine elementPointer_acts given.known ?_
  simp [constant32, Given.constant.known]

theorem vaListField_acts {tag : Value} {field : VaListField} (given : Given values tag) :
    Acts values blocks names (vaListField tag field) builder GivesOwned := by
  refine elementPointer_acts given.known ?_
  simp [constant32, Given.constant.known]

theorem vaIntrinsic_works {intrinsic : Intrinsic} {list : Value} (given : Given values list) :
    Works values blocks names (vaIntrinsic intrinsic list) builder GivesNothing := by
  refine .keep (vaListTag_acts given).works fun tag _ _ => ?_
  refine .keep (cast_acts Given.newest.known).works fun bytes _ _ => ?_
  refine .next (call_acts Given.callee.known ?_).works fun _ _ => .pure trivial
  simp [Given.newest.known]

theorem vaArg_works {list : Value} {ty : Ty} (given : Given values list) :
    Works values blocks names (vaArg list ty) builder GivesOwned := by
  unfold vaArg
  split
  · rename_i registers
    refine insertBlocks_acts.works.bind (fun _ => []) id (by simp) (fun _ _ ends => ends.2) ?_
    intro inserted _ ⟨three, _⟩
    have aims {position : Nat} (inRange : position < 3) (builder : Builder) :
        builder.Aims (inserted ++ blocks) (inserted.getD position ⟨0⟩) := by
      have bound : position < inserted.length := three ▸ inRange
      exact .inl (List.mem_append_left _ (by simp [List.getD, bound]))
    dsimp only
    refine .keep (vaListTag_acts given).works fun tag _ _ => ?_
    refine .keep (vaListField_acts .newest).works fun offsetPointer _ _ => ?_
    refine .keep (load_acts Given.newest.known).works fun offset _ _ => ?_
    have isLiteral {number : Int64} {given : List Value} :
        ∀ value ∈ Operand.values (Literal.int number), Given given value := by
      simp [Operand.values]
    refine .keep (compareOperands_acts ?_ isLiteral).works fun inRegisters _ _ => ?_
    · simpa [Operand.values] using Given.newest
    refine .next (conditionalBranch_acts Given.newest.known (aims (by decide) _)
      (aims (by decide) _)).works fun _ _ => ?_
    -- the address in the register save area
    refine .next nextBlock_acts.works fun _ _ => ?_
    refine .keep (vaListField_acts (.inl (by simp))).works fun saveAreaPointer _ _ => ?_
    refine .keep (load_acts Given.newest.known).works fun saveArea _ _ => ?_
    refine .keep (elementPointer_acts Given.newest.known ?_).works fun slot _ _ => ?_
    · simp [Builder.Known]
    refine .keep (cast_acts Given.newest.known).works fun registerAddress _ _ => ?_
    refine .keep (binaryOperands_acts ?_ isLiteral).works fun nextOffset _ _ => ?_
    · simp [Operand.values, Given]
    refine .layout (.next (storeOperand_acts (.inl (by simp)) ?_).works fun _ _ => ?_)
    · simp [Operand.values, Given]
    refine .next (branch_acts (aims (by decide) _)).works fun _ _ => ?_
    -- the address in the overflow area
    refine .next nextBlock_acts.works fun _ _ => ?_
    refine .keep (vaListField_acts (.inl (by simp))).works fun overflowPointer _ _ => ?_
    refine .keep (load_acts Given.newest.known).works fun overflow _ _ => ?_
    refine .keep (cast_acts Given.newest.known).works fun stackAddress _ _ => ?_
    refine .keep (elementPointer_acts Given.newest.later.known ?_).works fun nextSlot _ _ => ?_
    · simpa [constant32] using Given.constant.known
    refine .layout (.next (storeOperand_acts (.inl (by simp)) ?_).works fun _ _ => ?_)
    · simp [Operand.values, Given]
    refine .next (branch_acts (aims (by decide) _)).works fun _ _ => ?_
    -- the join
    refine .next nextBlock_acts.works fun _ _ => ?_
    refine .keep (phi_acts ?_ ?_).works fun address _ _ => (load_acts Given.newest.known).works
    · simp [Builder.Known]
    · simpa using ⟨aims (by decide) _, aims (by decide) _⟩
  · exact .refuse

theorem vaArgStackOnly_works {list : Value} {ty : Ty} (given : Given values list) :
    Works values blocks names (vaArgStackOnly list ty) builder GivesOwned := by
  unfold vaArgStackOnly
  split
  · exact .refuse
  · refine .layout ?_
    refine .keep (vaListTag_acts given).works fun tag _ _ => ?_
    refine .keep (vaListField_acts .newest).works fun overflowPointer _ _ => ?_
    refine .keep (load_acts Given.newest.known).works fun overflow _ _ => ?_
    refine .keep (cast_acts Given.newest.known).works fun source _ _ => ?_
    refine .keep (elementPointer_acts Given.newest.later.known ?_).works fun nextSlot _ _ => ?_
    · simpa [constant32] using Given.constant.known
    refine .layout (.next (storeOperand_acts (.inl (by simp)) ?_).works fun _ _ => ?_)
    · simp [Operand.values, Given]
    refine .keep allocate_acts.works fun copy _ owned => .returning owned ?_
    refine .keep (cast_acts Given.newest.known).works fun copyBytes _ _ => ?_
    refine .keep (cast_acts (.inl (by simp))).works fun sourceBytes _ _ => ?_
    refine .next (call_acts Given.callee.known ?_).works fun _ _ => .pure rfl
    simp [constant32, Builder.Known, FunctionDef.Owns]

end Build

end IrAssembly
