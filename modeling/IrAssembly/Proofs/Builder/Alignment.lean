import IrAssembly.Proofs.Builder.Frame
import IrAssembly.Proofs.Layout.Alignment

/-! Alignments while building. The one rule that an operation on an open function can break is that
alignments are powers of two, and it breaks it with an alignment that it was given, or with that of
a type for which the layout lists another one. -/

namespace IrAssembly

theorem isPowerOfTwo_iff_log2 {align : Nat} : align.isPowerOfTwo ↔ 2 ^ align.log2 = align := by
  constructor
  · rintro ⟨exponent, rfl⟩
    rw [Nat.log2_two_pow]
  · exact fun same => ⟨_, same.symm⟩

/-- An alignment is refused if it is neither zero nor a power of two. -/
theorem encodeAlignment_eq_error_iff {align : Nat} {violation : Violation} :
    encodeAlignment align = .error violation ↔
      violation = .alignment align ∧ align ≠ 0 ∧ ¬ align.isPowerOfTwo := by
  unfold encodeAlignment
  rw [isPowerOfTwo_iff_log2]
  by_cases zero : align = 0
  · simp [zero]
  · by_cases power : 2 ^ align.log2 = align
    · simp [zero, power]
    · simp [zero, power, eq_comm]

/-- An alignment that fits a word is the one that its encoding stands for. -/
theorem decodeAlignment_of_encodeAlignment {align : Nat} {encoded : UInt32} (positive : align ≠ 0)
    (short : align < 2 ^ 64) (encodes : encodeAlignment align = .ok encoded) :
    decodeAlignment encoded = some align := by
  have lead : align.log2 < 64 := (Nat.log2_lt positive).mpr short
  unfold encodeAlignment at encodes
  rw [if_neg positive] at encodes
  split at encodes
  · rename_i power
    obtain rfl := Except.ok.inj encodes
    have own : (UInt32.ofNat (align.log2 + 1)).toNat = align.log2 + 1 :=
      UInt32.toNat_ofNat_of_lt' (by change _ < 2 ^ 32; omega)
    have some : UInt32.ofNat (align.log2 + 1) ≠ 0 := by
      intro none
      rw [none] at own
      cases own
    have place : (UInt32.ofNat (align.log2 + 1) - 1).toNat = align.log2 := by
      have one : 1 ≤ UInt32.ofNat (align.log2 + 1) := by
        rw [UInt32.le_iff_toNat_le, own]
        exact Nat.le_add_left ..
      rw [UInt32.toNat_sub_of_le _ _ one, own]
      rfl
    rw [decodeAlignment, if_neg some, UInt64.toNat_shiftLeft, UInt32.toNat_toUInt64, place,
      Nat.mod_eq_of_lt lead, Nat.shiftLeft_eq, UInt64.toNat_one, Nat.one_mul, power,
      Nat.mod_eq_of_lt short]
  · cases encodes

namespace Build

variable {α : Type} {layout : DataLayout} {given : List Nat} {moves makes : Bool} {step : Build α}
  {builder : Builder}

/-- How a step may fail if it encodes the given alignments and those of the layout: it refuses, or
one of the alignments is no power of two. -/
inductive Uneven (layout : DataLayout) (given : List Nat) : Failure → Prop where
  | refused (error : BuildError) : Uneven layout given (.refused error)
  | given (member : align ∈ given) : Uneven layout given (.violated (.alignment align))
  | ofLayout (ty : Ty) (uneven : ¬ (layout.alignOf ty).isPowerOfTwo) :
      Uneven layout given (.violated (.alignment (layout.alignOf ty)))

theorem Straight.uneven (straight : Straight layout given moves makes step)
    (same : builder.layout = layout) (isOpen : builder.function.finished = false) :
    Ends step builder (fun _ _ => True) fun failure _ => Uneven layout given failure := by
  induction straight generalizing builder with
  | done value => trivial
  | refuse error => exact .refused error
  | look blind rest ih =>
    rw [ends_bind, ends_get]
    exact ih builder same isOpen
  | byLayout rest ih =>
    rw [ends_bind, ends_layout, same]
    exact ih same isOpen
  | @encoded align asked =>
    unfold Build.encoded
    split
    · trivial
    · rename_i violation refused
      obtain ⟨rfl, _, uneven⟩ := encodeAlignment_eq_error_iff.mp refused
      rcases asked with member | ⟨ty, rfl⟩
      · exact .given member
      · exact .ofLayout ty uneven
  | symbol value =>
    rw [ends_symbol isOpen]
    trivial
  | emit instruction =>
    rw [ends_emit isOpen]
    trivial
  | emitValue ty instruction =>
    rw [ends_emitValue isOpen]
    trivial
  | createParameter allowed ty =>
    rw [ends_createParameter isOpen]
    trivial
  | setNextName name => trivial
  | nextBlock allowed =>
    rw [ends_nextBlock isOpen]
    trivial
  | bind first rest firstIh restIh =>
    rw [ends_bind]
    refine ((first.continues same isOpen).and (firstIh same isOpen)).mono ?_ ?_
    · intro value middle ⟨continues, _⟩
      exact restIh value (continues.layout.trans same) (continues.finished.trans isOpen)
    · exact fun _ _ failed => failed.2

end Build

namespace Operation

open Build

variable {builder : Builder}

/-- The rule that was broken is traced back to the caller or to the layout. -/
theorem uneven_of_violated (operation : Operation) (isOpen : builder.function.finished = false)
    {violation : Violation} (violated : (operation.step builder).1 = .error (.violated violation)) :
    ∃ align, violation = .alignment align ∧ (align ∈ operation.alignments ∨
      ∃ ty, align = builder.layout.alignOf ty ∧ ¬ align.isPowerOfTwo) := by
  obtain ⟨opened, rest, opening, straight, comes⟩ := operation.exists_opening isOpen
  have openedOpen : opened.function.finished = false := opening.finished.trans isOpen
  rw [comes] at violated
  cases (straight.uneven opening.layout openedOpen).of_error violated with
  | given member => exact ⟨_, rfl, .inl member⟩
  | ofLayout ty uneven => exact ⟨_, rfl, .inr ⟨ty, rfl, uneven⟩⟩

/-- A type with such an alignment cannot be allocated. -/
theorem allocate_violated (isOpen : builder.function.finished = false) {ty : Ty}
    (uneven : ¬ (builder.layout.alignOf ty).isPowerOfTwo) :
    ((allocate ty).step builder).1 =
      .error (.violated (.alignment (builder.layout.alignOf ty))) := by
  have encoded : encodeAlignment (builder.layout.alignOf ty) =
      .error (.alignment (builder.layout.alignOf ty)) :=
    encodeAlignment_eq_error_iff.mpr ⟨rfl, (builder.layout.alignOf_pos ty).ne', uneven⟩
  have ends : Ends (allocate ty).run builder (fun _ _ => False) fun failure _ =>
      failure = .violated (.alignment (builder.layout.alignOf ty)) := by
    rw [run, ends_map]
    -- the count is the constant one, so it passes its check
    change Ends (symbol (.constant (.i32 1)) >>= fun count => layoutAlignment ty >>= fun align =>
      emitValue (.ptr ty) fun result => .allocate result ty count align) builder _ _
    rw [ends_operand isOpen, ends_bind, layoutAlignment, ends_bind, ends_layout, Build.encoded]
    rw [show (builder.register [.constant (.i32 1)]).layout = builder.layout from rfl, encoded]
    rfl
  obtain ⟨failure, outcome, rfl⟩ := ends.exists_error
  exact outcome

/-- Under a layout that was spelled, types are aligned to powers of two just if the listed
alignments are such, and just then no operation fails for an alignment that it was not given. -/
theorem alignments_iff_of_parse {spec : String} {layout : DataLayout}
    (parsed : DataLayout.parse spec = .ok layout) :
    (layout.ListsOnly Nat.isPowerOfTwo ↔ ∀ ty, (layout.alignOf ty).isPowerOfTwo) ∧
      (layout.ListsOnly Nat.isPowerOfTwo ↔
        ∀ builder : Builder, builder.Reachable → builder.layout = layout →
          ∀ (operation : Operation) (align : Nat),
            (operation.step builder).1 = .error (.violated (.alignment align)) →
              align ∈ operation.alignments) := by
  have types : layout.ListsOnly Nat.isPowerOfTwo ↔ ∀ ty, (layout.alignOf ty).isPowerOfTwo :=
    DataLayout.listsOnly_iff_of_parse parsed fun _ power => power
  refine ⟨types, ?_⟩
  rw [types]
  constructor
  · rintro even builder reachable rfl operation align violated
    obtain ⟨_, same, cause⟩ := operation.uneven_of_violated reachable.ready.isOpen violated
    cases same
    rcases cause with given | ⟨ty, rfl, uneven⟩
    · exact given
    · exact absurd (even ty) uneven
  · intro blameless ty
    by_contra uneven
    -- a builder that was just started under the layout
    have reachable := Builder.Reachable.run (.fresh "f" ⟨.void, [], false⟩)
      (Builder.run_start rfl layout) []
    have given := blameless _ reachable rfl (.allocate ty) _
      (allocate_violated reachable.ready.isOpen uneven)
    cases given

/-- All alignments of the default layout are powers of two, so only a given alignment can fail. -/
theorem default_alignments : DataLayout.parse DataLayout.x86_64Spec = .ok .x86_64 ∧
    (∀ ty, (DataLayout.x86_64.alignOf ty).isPowerOfTwo) ∧
    ∀ builder : Builder, builder.Reachable → builder.layout = .x86_64 →
      ∀ (operation : Operation) (align : Nat),
        (operation.step builder).1 = .error (.violated (.alignment align)) →
          align ∈ operation.alignments := by
  have parsed := DataLayout.parse_x86_64Spec
  have floats : ∀ entry ∈ DataLayout.x86_64.floats,
      (DataLayout.abiBytes entry.abi).isPowerOfTwo := by decide
  have lists : DataLayout.x86_64.ListsOnly Nat.isPowerOfTwo :=
    ⟨by decide, by decide, by decide, fun entry member _ _ => floats entry member, by decide⟩
  obtain ⟨types, operations⟩ := alignments_iff_of_parse parsed
  exact ⟨parsed, types.mp lists, operations.mp lists⟩

/-- A layout may list 24 bits; an integer then has to be allocated at a multiple of three bytes. -/
theorem three_bytes_accepted : ∃ layout : DataLayout, DataLayout.parse "i32:24" = .ok layout ∧
    layout.alignOf .i32 = 3 ∧ ¬ (layout.alignOf .i32).isPowerOfTwo ∧
    ∃ builder : Builder, builder.Reachable ∧ builder.layout = layout ∧
      ((allocate .i32).step builder).1 = .error (.violated (.alignment 3)) := by
  let layout : DataLayout := { DataLayout.unspecified with integers := [⟨32, 24, 24⟩] }
  have reachable := Builder.Reachable.run (.fresh "f" ⟨.void, [], false⟩)
    (Builder.run_start rfl layout) []
  exact ⟨layout, by rfl, by decide, by decide, _, reachable, rfl, by decide⟩

end Operation

end IrAssembly
