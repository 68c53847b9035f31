import IrAssembly.Proofs.Assembly.ConstantReading
import IrAssembly.Proofs.Constant.Wrapping

/-! The text of a constant loses nothing of it but the bodies of named types. What is read back is
its shape, and the type and the first letter of a word tell which kind of constant the word is. -/

namespace IrAssembly

open Reading

/-! Kinds of words -/

/-- What a word may be as a constant of its type. -/
inductive AtomSort where
  | number
  | null
  | undef
  | zero
  | global

def AtomSort.ofLetter : Char → AtomSort
  | 'n' => null
  | 'u' => undef
  | 'z' => zero
  | '@' => global
  | _ => number

namespace Shape

def ty : Shape → Ty
  | atom ty _ | aggregate ty _ | asm ty _ _ _ | elementPointer ty _ _ => ty

def sort? : Shape → Option AtomSort
  | atom _ letters => letters.head?.map AtomSort.ofLetter
  | _ => none

end Shape

namespace Constant

def sort? : Constant → Option AtomSort
  | int _ _ | bigInt _ _ | float _ => some .number
  | null _ => some .null
  | undef _ => some .undef
  | zero _ => some .zero
  | global _ _ => some .global
  | aggregate _ _ | inlineAsm _ | elementPointer _ _ _ _ => none

theorem ty_shape (constant : Constant) : constant.shape.ty = constant.ty.outline := by
  cases constant <;> rfl

end Constant

theorem ofLetter_of_isDigit {char : Char} (digit : char.isDigit = true) :
    AtomSort.ofLetter char = .number := by
  have other : char ∉ ['n', 'u', 'z', '@'] := Text.notMem_of_isDigit digit (by decide)
  unfold AtomSort.ofLetter
  split
  · exact absurd (by decide) other
  · exact absurd (by decide) other
  · exact absurd (by decide) other
  · exact absurd (by decide) other
  · rfl

theorem sort_toDigits (value : Nat) :
    (Nat.toDigits 10 value).head?.map AtomSort.ofLetter = some .number := by
  obtain ⟨first, others, spelled, digit⟩ := Text.exists_toDigits_eq_cons value
  rw [spelled, List.head?_cons, Option.map_some, ofLetter_of_isDigit digit]

theorem sort_toString (value : Int) :
    (toString value).toList.head?.map AtomSort.ofLetter = some .number := by
  cases value with
  | ofNat value =>
    rw [Text.toList_toString_ofNat]
    exact sort_toDigits value
  | negSucc value =>
    rw [Text.toList_toString_negSucc]
    rfl

theorem sort_integerText (ty : Ty) (value : Int64) :
    (integerText ty value).toList.head?.map AtomSort.ofLetter = some .number := by
  unfold integerText
  split
  · split <;> rfl
  · exact sort_toString _

theorem sort_literal (number : FloatConstant) :
    number.literal.toList.head?.map AtomSort.ofLetter = some .number := by
  unfold FloatConstant.literal
  split <;> simp [AtomSort.ofLetter]

namespace Constant

theorem sort?_shape (constant : Constant) : constant.shape.sort? = constant.sort? := by
  cases constant with
  | int ty value => exact sort_integerText ty value
  | bigInt ty value => exact sort_toString value
  | float number => exact sort_literal number
  | global name ty => simp [shape, Shape.sort?, globalName, AtomSort.ofLetter, sort?]
  | _ => rfl

end Constant

/-! Words -/

theorem integerText_injective {bits : UInt32} {value other : Int64} (filled : 1 ≤ bits)
    (short : bits ≤ 64) (normal : signNormalize value bits = value)
    (otherNormal : signNormalize other bits = other)
    (same : integerText (.int bits) value = integerText (.int bits) other) : value = other := by
  have wraps := wraps_signNormalize filled short value
  have otherWraps := wraps_signNormalize filled short other
  rw [normal] at wraps
  rw [otherNormal] at otherWraps
  -- One bit has two words for its two numbers; otherwise the digits tell.
  unfold integerText at same
  split at same
  · rename_i single
    cases single
    have zeros : value = 0 ↔ other = 0 := by
      by_cases zero : value = 0 <;> by_cases otherZero : other = 0 <;>
        simp [zero, otherZero] at same ⊢
    rw [← Int64.toInt_inj, ← Int64.toInt_inj] at zeros
    have number := wraps.one_bit
    have otherNumber := otherWraps.one_bit
    exact Int64.toInt_inj.mp (by simp at zeros; omega)
  · exact Int64.toInt_inj.mp (Text.toString_int_injective same)

theorem words_injective {asm other : InlineAsm} (same : asm.words = other.words) :
    asm.sideEffects = other.sideEffects ∧ asm.alignStack = other.alignStack := by
  have effects (asm : InlineAsm) : "sideeffect" ∈ asm.words ↔ asm.sideEffects = true := by
    simp [InlineAsm.words]
  have align (asm : InlineAsm) : "alignstack" ∈ asm.words ↔ asm.alignStack = true := by
    simp [InlineAsm.words]
  rw [Bool.eq_iff_iff, Bool.eq_iff_iff (a := asm.alignStack), ← effects, ← effects, ← align,
    ← align, same]
  exact ⟨Iff.rfl, Iff.rfl⟩

theorem addressWords_injective : Function.Injective addressWords := by
  intro inbounds other same
  cases inbounds <;> cases other <;> simp_all [addressWords]

theorem map_toList_injective : Function.Injective (List.map String.toList) :=
  List.map_injective_iff.mpr fun _ _ => String.toList_injective

theorem globalName_injective : Function.Injective globalName :=
  fun _ _ same => spelledName_injective ((String.append_right_inj _).mp same)

/-! Shapes -/

namespace Constant

variable {left right : Constant}

theorem ty_outline_eq (same : left.shape = right.shape) : left.ty.outline = right.ty.outline := by
  rw [← ty_shape, ← ty_shape, same]

theorem sort?_eq (same : left.shape = right.shape) : left.sort? = right.sort? := by
  rw [← sort?_shape, ← sort?_shape, same]

/-- The type tells how a number is written. -/
theorem outline_eq_of_number (canonical : left.Canonical) (otherCanonical : right.Canonical)
    (sort : left.sort? = some .number) (same : left.shape = right.shape) :
    left.outline = right.outline := by
  have otherSort := (sort?_eq same).symm.trans sort
  have types := ty_outline_eq same
  cases canonical with
  | int filled short normal =>
    cases otherCanonical with
    | int otherFilled otherShort otherNormal =>
      cases types
      have text := String.toList_injective (Shape.atom.inj same).2
      rw [integerText_injective filled short normal otherNormal text]
    | bigInt long =>
      cases types
      exact absurd short (UInt32.not_le.mpr long)
    | float => cases types
    | _ => cases otherSort
  | bigInt long =>
    cases otherCanonical with
    | int filled short =>
      cases types
      exact absurd short (UInt32.not_le.mpr long)
    | bigInt =>
      cases types
      have text := String.toList_injective (Shape.atom.inj same).2
      rw [Text.toString_int_injective text]
    | float => cases types
    | _ => cases otherSort
  | float normal =>
    cases otherCanonical with
    | int | bigInt => cases types
    | float otherNormal =>
      have text := String.toList_injective (Shape.atom.inj same).2
      rw [normal.literal_injective otherNormal (Ty.float.inj types) text]
    | _ => cases otherSort
  | _ => cases sort

theorem outlines_eq {items others : List Constant}
    (each : ∀ item ∈ items, ∀ {right : Constant}, right.Canonical → item.shape = right.shape →
      item.outline = right.outline)
    (canonical : ∀ other ∈ others, other.Canonical) (same : shapes items = shapes others) :
    outlines items = outlines others := by
  induction items generalizing others with
  | nil =>
    cases others with
    | nil => rfl
    | cons other others => cases same
  | cons item items ih =>
    cases others with
    | nil => cases same
    | cons other others =>
      obtain ⟨own, rest⟩ := List.forall_mem_cons.mp each
      obtain ⟨first, behind⟩ := List.forall_mem_cons.mp canonical
      obtain ⟨ownSame, restSame⟩ := List.cons.inj same
      rw [outlines, outlines, own first ownSame, ih rest behind restSame]

/-- What a constant with normal numbers shows of itself is all but the bodies of named types. -/
theorem outline_eq_of_shape (canonical : left.Canonical) (otherCanonical : right.Canonical)
    (same : left.shape = right.shape) : left.outline = right.outline := by
  induction canonical generalizing right with
  | int filled short normal =>
    exact outline_eq_of_number (.int filled short normal) otherCanonical rfl same
  | bigInt long => exact outline_eq_of_number (.bigInt long) otherCanonical rfl same
  | float normal => exact outline_eq_of_number (.float normal) otherCanonical rfl same
  | null plain =>
    cases right with
    | null other => exact congrArg null (ty_outline_eq same)
    | _ => cases sort?_eq same
  | undef plain =>
    cases right with
    | undef other => exact congrArg undef (ty_outline_eq same)
    | _ => cases sort?_eq same
  | zero plain =>
    cases right with
    | zero other => exact congrArg zero (ty_outline_eq same)
    | _ => cases sort?_eq same
  | global plain =>
    cases right with
    | global otherName other =>
      have text := String.toList_injective (Shape.atom.inj same).2
      rw [outline, globalName_injective text]
      exact congrArg (global otherName) (ty_outline_eq same)
    | _ => cases sort?_eq same
  | @inlineAsm asm plain =>
    cases right with
    | inlineAsm other =>
      obtain ⟨types, words, bodies, constraints⟩ := Shape.asm.inj same
      obtain ⟨effects, align⟩ := words_injective (map_toList_injective words)
      have body := escapeString_injective (String.toList_injective bodies)
      have constraint := escapeString_injective (String.toList_injective constraints)
      rw [outline, outline, types, body, constraint, effects, align]
    | _ => cases same
  | aggregate plain bracketed each ih =>
    cases right with
    | aggregate other others =>
      cases otherCanonical with
      | aggregate _ _ otherEach =>
        obtain ⟨types, elements⟩ := Shape.aggregate.inj same
        rw [outline, outline, types, outlines_eq ih otherEach elements]
    | _ => cases same
  | elementPointer plain start each baseIh ih =>
    cases right with
    | elementPointer other otherBase otherIndices otherInbounds =>
      cases otherCanonical with
      | elementPointer _ otherStart otherEach =>
        obtain ⟨types, words, operands⟩ := Shape.elementPointer.inj same
        obtain ⟨bases, steps⟩ := List.cons.inj operands
        have inbounds := addressWords_injective (map_toList_injective words)
        rw [outline, outline, types, baseIh otherStart bases, outlines_eq ih otherEach steps,
          inbounds]
    | _ => cases same

/-- In either dialect, constants that are written alike are equal but for what the names of types
stand for. -/
theorem outline_eq_of_typedText {dialect : Dialect} {text : String} (canonical : left.Canonical)
    (otherCanonical : right.Canonical) (written : left.typedText dialect = .ok text)
    (otherWritten : right.typedText dialect = .ok text) : left.outline = right.outline := by
  have read := (canonical.pushes_shape written).reads []
  have too := (otherCanonical.pushes_shape otherWritten).reads []
  have shapes := Item.shape.inj (List.cons.inj (read.unique too)).1
  exact outline_eq_of_shape canonical otherCanonical shapes

/-- An address in front of a variable of the type. -/
def addressBefore (ty : Ty) : Constant :=
  elementPointer (.ptr .i8) (global "a b" (.ptr ty)) [int .i32 (-1)] true

theorem canonical_addressBefore {ty : Ty} (plain : (Ty.ptr ty).PlainlyNamed) :
    (addressBefore ty).Canonical := by
  have step : (int .i32 (-1)).Canonical := .int (by decide) (by decide) (by decide +kernel)
  exact .elementPointer nofun (.global plain) (List.forall_mem_singleton.mpr step)

theorem plainlyNamed_pair {fields : List Ty} (bare : Ty.namedPartsOf fields = []) :
    (Ty.ptr (.struct (some "pair") fields false)).PlainlyNamed := by
  have name : isPlainName ['p', 'a', 'i', 'r'] = true := by decide
  simp [Ty.PlainlyNamed, Ty.namedParts, Ty.name?, bare, name]

/-- Two bodies of a structure leave no trace in the texts. -/
theorem outline_eq_of_two_bodies :
    let bytes := addressBefore (.struct (some "pair") [.i8, .i8] false)
    let words := addressBefore (.struct (some "pair") [.i32, .i32] false)
    let text := "i8* getelementptr inbounds (%pair, %pair* @\"a b\", i32 -1)"
    bytes.Canonical ∧ words.Canonical ∧ bytes ≠ words ∧
    bytes.typedText .v38 = .ok text ∧ words.typedText .v38 = .ok text ∧
    bytes.outline = words.outline := by
  intro bytes words text
  have first : bytes.Canonical := canonical_addressBefore (plainlyNamed_pair rfl)
  have second : words.Canonical := canonical_addressBefore (plainlyNamed_pair rfl)
  have written : bytes.typedText .v38 = .ok text := by decide +kernel
  have otherWritten : words.typedText .v38 = .ok text := by decide +kernel
  exact ⟨first, second, by decide, written, otherWritten,
    outline_eq_of_typedText first second written otherWritten⟩

/-- Nor do the texts show whether a body is known at all. -/
theorem same_text_of_addresses :
    let whole := addressBefore (.struct (some "pair") [.i8, .i8] false)
    let unknown := addressBefore (.bodiless "pair")
    let text := "i8* getelementptr inbounds (%pair, %pair* @\"a b\", i32 -1)"
    whole.Canonical ∧ unknown.Canonical ∧
    whole.typedText .v38 = .ok text ∧ unknown.typedText .v38 = .ok text ∧
    ¬ whole.SameButBodies unknown := by
  intro whole unknown text
  have name : isPlainName ['p', 'a', 'i', 'r'] = true := by decide
  refine ⟨canonical_addressBefore (plainlyNamed_pair rfl), canonical_addressBefore ?_,
    by decide +kernel, by decide +kernel, ?_⟩
  · simp [Ty.PlainlyNamed, Ty.namedParts, Ty.name?, name]
  · intro same
    change SameButBodies (.elementPointer _ _ _ _) (.elementPointer _ _ _ _) at same
    cases same with
    | elementPointer _ start =>
      cases start with
      | global _ types =>
        cases types with
        | ptr pair => cases pair

end Constant

end IrAssembly
