import IrAssembly.Proofs.Builder.Comparison

/-! Conversions of returned values. Integers and pointers are converted as they have to be. Any two
other types are reinterpreted if they take as many bytes in memory; but padding is not part of a
value, and structures and arrays cannot be reinterpreted. -/

namespace IrAssembly

/-- The bits of a number, or of all lanes of a vector. Pointers in lanes have the given number of
bits, or none. -/
def Ty.bitWidth? (pointerBits : Option Nat) : Ty → Option Nat
  | int bits => some bits.toNat
  | float kind => some kind.bitWidth
  | ptr _ => pointerBits
  | vector len element => (bitWidth? pointerBits element).map (len.toNat * ·)
  | _ => none

/-- Integers and pointers. -/
def Ty.isIntegral (ty : Ty) : Bool := ty.isInteger || ty.isPointer

theorem Ty.isIntegral_iff {ty : Ty} :
    ty.isIntegral = true ↔ (∃ bits, ty = .int bits) ∨ ∃ pointee, ty = .ptr pointee := by
  cases ty <;> simp [isIntegral, isInteger, isPointer]

/-- The conversions that there are between types: integers become wider or narrower, pointers become
integers and back, and a value is reinterpreted as another pointer or as a value of as many bits. -/
inductive CastOperator.Legal (pointerBits : Option Nat) : CastOperator → Ty → Ty → Prop where
  | zext {bits wider : UInt32} (widens : bits < wider) :
      Legal pointerBits .zext (.int bits) (.int wider)
  | trunc {bits narrower : UInt32} (narrows : narrower < bits) :
      Legal pointerBits .trunc (.int bits) (.int narrower)
  | ptrToInt (pointee : Ty) (bits : UInt32) :
      Legal pointerBits .ptrToInt (.ptr pointee) (.int bits)
  | intToPtr (bits : UInt32) (pointee : Ty) :
      Legal pointerBits .intToPtr (.int bits) (.ptr pointee)
  | pointers (pointee other : Ty) : Legal pointerBits .bitCast (.ptr pointee) (.ptr other)
  | values {source target : Ty} {width : Nat} (noAddress : source.isPointer = false)
      (noPointer : target.isPointer = false) (bits : source.bitWidth? pointerBits = some width)
      (same : target.bitWidth? pointerBits = some width) :
      Legal pointerBits .bitCast source target

namespace Build

section Choice

variable {layout : DataLayout} {source target : Ty} {operator : CastOperator}

theorem legal_of_isIntegral (pointerBits : Option Nat) (differ : source ≠ target)
    (integral : source.isIntegral = true) (too : target.isIntegral = true) :
    ∃ operator, returnCast layout source target = .ok operator ∧
      operator.Legal pointerBits source target := by
  rcases Ty.isIntegral_iff.mp integral with ⟨bits, rfl⟩ | ⟨pointee, rfl⟩ <;>
    rcases Ty.isIntegral_iff.mp too with ⟨other, rfl⟩ | ⟨target, rfl⟩
  · refine ⟨_, rfl, ?_⟩
    split
    · rename_i wider
      exact .zext wider
    · rename_i notWider
      refine .trunc (UInt32.lt_of_le_of_ne (UInt32.not_lt.mp notWider) ?_)
      rintro rfl
      exact differ rfl
  · exact ⟨_, rfl, .intToPtr ..⟩
  · exact ⟨_, rfl, .ptrToInt ..⟩
  · exact ⟨_, rfl, .pointers ..⟩

theorem returnCast_of_not_isIntegral
    (other : ¬ (source.isIntegral = true ∧ target.isIntegral = true)) :
    returnCast layout source target = .ok operator ↔ operator = .bitCast ∧
      source.isPointer = false ∧ target.isPointer = false ∧
      layout.sizeOf source = layout.sizeOf target ∧ 0 < layout.sizeOf target := by
  unfold returnCast
  split
  · exact absurd ⟨rfl, rfl⟩ other
  · exact absurd ⟨rfl, rfl⟩ other
  · exact absurd ⟨rfl, rfl⟩ other
  · exact absurd ⟨rfl, rfl⟩ other
  · split
    · rename_i pointer
      rw [Bool.or_eq_true] at pointer
      refine iff_of_false (fun chosen => nomatch chosen) ?_
      rintro ⟨_, noAddress, noPointer, _⟩
      rcases pointer with address | pointer
      · cases noAddress.symm.trans address
      · cases noPointer.symm.trans pointer
    · rename_i noPointers
      rw [Bool.or_eq_true, not_or, Bool.not_eq_true, Bool.not_eq_true] at noPointers
      split
      · rename_i sizes
        simp [noPointers, sizes, eq_comm]
      · rename_i sizes
        exact iff_of_false (fun chosen => nomatch chosen) fun converts => sizes converts.2.2.2

/-- What is chosen is legal for integers and pointers, and for values of as many bits. -/
theorem legal_returnCast_iff (pointerBits : Option Nat) (differ : source ≠ target)
    (chosen : returnCast layout source target = .ok operator) :
    operator.Legal pointerBits source target ↔
      (source.isIntegral = true ∧ target.isIntegral = true) ∨
        ∃ width, source.bitWidth? pointerBits = some width ∧
          target.bitWidth? pointerBits = some width := by
  by_cases integral : source.isIntegral = true ∧ target.isIntegral = true
  · obtain ⟨other, found, legal⟩ := legal_of_isIntegral pointerBits differ integral.1 integral.2
    obtain rfl := Except.ok.inj (chosen.symm.trans found)
    exact iff_of_true legal (.inl integral)
  · obtain ⟨rfl, noAddress, noPointer, _⟩ := (returnCast_of_not_isIntegral integral).mp chosen
    constructor
    · intro legal
      cases legal with
      | pointers => cases noAddress
      | values _ _ bits same => exact .inr ⟨_, bits, same⟩
    · rintro (both | ⟨width, bits, same⟩)
      · exact absurd both integral
      · exact .values noAddress noPointer bits same

/-- A conversion is chosen between integers and pointers, and between other values of one size. -/
theorem exists_returnCast_iff (differ : source ≠ target) :
    (∃ operator, returnCast layout source target = .ok operator) ↔
      (source.isIntegral = true ∧ target.isIntegral = true) ∨
        (source.isPointer = false ∧ target.isPointer = false ∧
          layout.sizeOf source = layout.sizeOf target ∧ 0 < layout.sizeOf target) := by
  by_cases integral : source.isIntegral = true ∧ target.isIntegral = true
  · obtain ⟨operator, found, _⟩ := legal_of_isIntegral none differ integral.1 integral.2
    exact iff_of_true ⟨operator, found⟩ (.inl integral)
  · simp [returnCast_of_not_isIntegral integral, integral]

end Choice

/-- What a return with conversion leaves behind. -/
inductive Converts (builder : Builder) (value : Value) : Builder → Prop where
  | returned (same : value.ty = builder.function.signature.result) :
      Converts builder value
        (builder.append [value] (.ret (some builder.function.symbols.length)))
  | refused (differ : value.ty ≠ builder.function.signature.result)
      (none : ∀ operator,
        returnCast builder.layout value.ty builder.function.signature.result ≠ .ok operator) :
      Converts builder value builder
  | converted {operator : CastOperator} (differ : value.ty ≠ builder.function.signature.result)
      (chosen : returnCast builder.layout value.ty builder.function.signature.result =
        .ok operator) (result : Value) (index : SymbolIndex) :
      Converts builder value
        ((builder.append [value] (.cast ⟨builder.resultName, builder.function.signature.result⟩
          operator builder.function.symbols.length)).append [result] (.ret (some index)))

variable {builder : Builder} {value : Value}

theorem returnWithCast_converts (isOpen : builder.function.finished = false) (value : Value) :
    Ends (returnWithCast value) builder (fun _ after => Converts builder value after)
      fun _ after => Converts builder value after := by
  simp only [returnWithCast, ends_bind, ends_function]
  split
  · rename_i same
    rw [ends_ret isOpen]
    exact .returned same
  · rename_i differ
    rw [ends_bind, ends_layout, ends_bind]
    cases chosen : returnCast builder.layout value.ty builder.function.signature.result with
    | error error =>
      refine .refused differ fun operator other => ?_
      cases chosen.symm.trans other
    | ok operator =>
      refine (ends_bind ..).mpr ((ends_cast isOpen ..).mpr ((ends_ret ?_ _).mpr ?_))
      · rw [Builder.append_function]
        exact isOpen
      · exact .converted differ chosen _ _

/-- The casts among the new instructions: one of the value, if it has another type than the result
and a conversion is chosen. -/
theorem Converts.cast_mem_iff {after : Builder} (converts : Converts builder value after)
    {slot : ResultSlot} {operator : CastOperator} {index : SymbolIndex} :
    .cast slot operator index ∈
        after.function.instructions.drop builder.function.instructions.length ↔
      (value.ty ≠ builder.function.signature.result ∧
        returnCast builder.layout value.ty builder.function.signature.result = .ok operator) ∧
      slot = ⟨builder.resultName, builder.function.signature.result⟩ ∧
      index = builder.function.symbols.length := by
  cases converts with
  | returned same => simp [Builder.append_instructions, same]
  | refused differ none => simp [none]
  | converted differ chosen result last =>
    simp [Builder.append_instructions, differ, chosen, eq_comm, and_left_comm]

theorem Converts.symbol?_eq {after : Builder} (converts : Converts builder value after)
    (differ : value.ty ≠ builder.function.signature.result) {operator : CastOperator}
    (chosen : returnCast builder.layout value.ty builder.function.signature.result =
      .ok operator) : after.function.symbol? builder.function.symbols.length = some value := by
  cases converts with
  | returned same => exact absurd same differ
  | refused _ none => exact absurd chosen (none operator)
  | converted _ _ result last =>
    refine (Builder.grows_append _ [result] _).symbol? ?_
    rw [Builder.append_function]
    exact FunctionDef.symbol?_withSymbols_first builder.function value []

end Build

/-- Integers and pointers are always converted as they may be. Other values that are reinterpreted,
which are those of the same nonzero size, may be just if they have as many bits, and so are neither
structures nor arrays. -/
theorem Operation.returnWithCast_legal_iff {builder : Builder}
    (isOpen : builder.function.finished = false) (value : Value) (pointerBits : Option Nat) :
    let source := value.ty
    let target := builder.function.signature.result
    let after := ((Operation.returnWithCast value).step builder).2.function
    let emitted := after.instructions.drop builder.function.instructions.length
    (∀ slot operator index, .cast slot operator index ∈ emitted →
      slot.ty = target ∧ after.symbol? index = some value ∧
      (operator.Legal pointerBits source target ↔
        (source.isIntegral = true ∧ target.isIntegral = true) ∨
          ∃ width, source.bitWidth? pointerBits = some width ∧
            target.bitWidth? pointerBits = some width)) ∧
    ((∃ slot operator index, .cast slot operator index ∈ emitted) ↔
      source ≠ target ∧ ((source.isIntegral = true ∧ target.isIntegral = true) ∨
        (source.isPointer = false ∧ target.isPointer = false ∧
          builder.layout.sizeOf source = builder.layout.sizeOf target ∧
          0 < builder.layout.sizeOf target))) := by
  intro source target after emitted
  have converts :
      Build.Converts builder value ((Operation.returnWithCast value).step builder).2 := by
    refine Build.Ends.state ?_
    rw [run, Build.ends_bind]
    exact Build.returnWithCast_converts isOpen value
  constructor
  · intro slot operator index member
    obtain ⟨⟨differ, chosen⟩, rfl, rfl⟩ := converts.cast_mem_iff.mp member
    exact ⟨rfl, converts.symbol?_eq differ chosen,
      Build.legal_returnCast_iff pointerBits differ chosen⟩
  · constructor
    · rintro ⟨slot, operator, index, member⟩
      obtain ⟨⟨differ, chosen⟩, _⟩ := converts.cast_mem_iff.mp member
      exact ⟨differ, (Build.exists_returnCast_iff differ).mp ⟨operator, chosen⟩⟩
    · rintro ⟨differ, convertible⟩
      obtain ⟨operator, chosen⟩ := (Build.exists_returnCast_iff differ).mpr convertible
      exact ⟨_, operator, _, converts.cast_mem_iff.mpr ⟨⟨differ, chosen⟩, rfl, rfl⟩⟩

/-- An integer of 32 bits is reinterpreted as a number of 32 bits. -/
theorem Operation.returnWithCast_legal_of_integer : ∃ builder : Builder, builder.Reachable ∧
    let value : Value := .parameter ⟨0, "arg_1", .i32⟩
    let after := ((Operation.returnWithCast value).step builder).2.function
    after.instructions = [.cast ⟨"1", .float .single⟩ .bitCast 0, .ret (some 1)] ∧
    after.symbol? 0 = some value ∧
    CastOperator.Legal none .bitCast .i32 (.float .single) := by
  have reachable := Builder.Reachable.run (.fresh "f" ⟨.float .single, [.i32], false⟩)
    (Builder.run_start rfl .x86_64) [.nextParameter]
  refine ⟨_, reachable, ?_⟩
  intro value after
  obtain ⟨casts, -⟩ := Operation.returnWithCast_legal_iff reachable.ready.isOpen value none
  obtain ⟨-, operand, legal⟩ := casts ⟨"1", .float .single⟩ .bitCast 0 (by decide +kernel)
  exact ⟨by decide +kernel, operand, legal.mpr (.inr ⟨32, rfl, rfl⟩)⟩

/-- An extended precision number of 80 bits is reinterpreted as one of 128 bits, since both take 16
bytes in memory. -/
theorem Operation.extended_reinterpreted_as_quad : ∃ builder : Builder, builder.Reachable ∧
    let value : Value := .parameter ⟨0, "arg_1", .float .x87⟩
    let step := (Operation.returnWithCast value).step builder
    step.1 = .ok .nothing ∧
    step.2.function.instructions = [.cast ⟨"1", .float .quad⟩ .bitCast 0, .ret (some 1)] ∧
    step.2.function.symbol? 0 = some value ∧
    ∀ pointerBits, ¬ CastOperator.Legal pointerBits .bitCast (.float .x87) (.float .quad) := by
  have reachable := Builder.Reachable.run (.fresh "f" ⟨.float .quad, [.float .x87], false⟩)
    (Builder.run_start rfl .x86_64) [.nextParameter]
  refine ⟨_, reachable, by decide +kernel, by decide +kernel, by decide +kernel, ?_⟩
  intro pointerBits legal
  cases legal with
  | values _ _ bits same => cases (same.trans bits.symm : some 128 = some 80)

end IrAssembly
