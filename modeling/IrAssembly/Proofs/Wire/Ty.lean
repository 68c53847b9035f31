import IrAssembly.Proofs.Wire.Recovery
import IrAssembly.Wire.Ty

/-! Plain choices and types are read back from their interchange form. -/

namespace IrAssembly

theorem Ty.toJsons_eq_map (types : List Ty) : Ty.toJsons types = types.map Ty.toJson := by
  induction types with
  | nil => rfl
  | cons ty types ih => rw [Ty.toJsons, ih, List.map_cons]

namespace Reading

/-! Choices -/

@[simp] theorem floatKind_wireName (depth : Nat) (kind : FloatKind) :
    floatKind depth (.text kind.wireName) = some kind :=
  oneOf_text (by cases kind <;> rfl) depth

@[simp] theorem binaryOperator_wireName (depth : Nat) (operator : BinaryOperator) :
    binaryOperator depth (.text operator.wireName) = some operator :=
  oneOf_text (by cases operator <;> rfl) depth

@[simp] theorem binaryFlag_wireName (depth : Nat) (flag : BinaryFlag) :
    binaryFlag depth (.text flag.wireName) = some flag :=
  oneOf_text (by cases flag <;> rfl) depth

@[simp] theorem compareOperator_wireName (depth : Nat) (operator : CompareOperator) :
    compareOperator depth (.text operator.wireName) = some operator :=
  oneOf_text (by cases operator <;> rfl) depth

@[simp] theorem castOperator_wireName (depth : Nat) (operator : CastOperator) :
    castOperator depth (.text operator.wireName) = some operator :=
  oneOf_text (by cases operator <;> rfl) depth

@[simp] theorem atomicOrdering_wireName (depth : Nat) (ordering : AtomicOrdering) :
    atomicOrdering depth (.text ordering.wireName) = some ordering :=
  oneOf_text (by cases ordering <;> rfl) depth

@[simp] theorem scope_wireName (depth : Nat) (given : SynchronizationScope) :
    scope depth (.text given.wireName) = some given :=
  oneOf_text (by cases given <;> rfl) depth

@[simp] theorem linkage_wireName (depth : Nat) (given : Linkage) :
    linkage depth (.text given.wireName) = some given :=
  oneOf_text (by cases given <;> rfl) depth

@[simp] theorem endianness_wireName (depth : Nat) (given : Endianness) :
    endianness depth (.text given.wireName) = some given :=
  oneOf_text (by cases given <;> rfl) depth

/-! Types, given a reader of the types inside -/

variable {bound : Nat} {read : Reading Ty}

theorem sequenceWith_recovers {α : Type} {length : Reading α} {written : Json} {len : α}
    (lengthRead : ∀ depth, length depth written = some len) {element : Ty}
    (elementRead : Recovers bound read element.toJson element) :
    Recovers bound (sequenceWith length read)
      (.record [("len", written), ("element_type", element.toJson)]) (len, element) := by
  intro depth le nests
  obtain ⟨inner, innerLe, within, found⟩ := fields_record le nests (by simp)
  simp only [List.map_cons, List.map_nil, List.forall_mem_cons] at within found
  have inside := elementRead inner innerLe within.2.1
  simp [sequenceWith, found, lengthRead, inside]

theorem structWith_recovers {name : Option String} {fields : List Ty} {packed : Bool}
    (each : ∀ field ∈ fields, Recovers bound read field.toJson field) :
    Recovers bound (structWith read)
      (.record [("name", .option .text name), ("fields", .list Ty.toJson fields),
        ("packed", .bool packed)]) (.struct name fields packed) := by
  intro depth le nests
  obtain ⟨inner, innerLe, within, found⟩ := fields_record le nests (by simp)
  simp only [List.map_cons, List.map_nil, List.forall_mem_cons] at within found
  have inside := Recovers.list each inner innerLe within.2.1
  simp [structWith, found, inside]

theorem signatureWith_recovers {signature : Signature}
    (result : Recovers bound read signature.result.toJson signature.result)
    (params : ∀ param ∈ signature.params, Recovers bound read param.toJson param) :
    Recovers bound (signatureWith read) signature.toJson signature := by
  intro depth le nests
  obtain ⟨inner, innerLe, within, found⟩ := fields_record le nests (by simp)
  simp only [List.map_cons, List.map_nil, List.forall_mem_cons] at within found
  have resultRead := result inner innerLe within.1
  have paramsRead := Recovers.list params inner innerLe within.2.1
  simp [signatureWith, Signature.toJson, found, resultRead, paramsRead]

/-- A type variant with a value is read as the value, one level below. -/
theorem tyWithin_tagged (fuel : Nat) {depth : Nat} {name : String} {json : Json}
    (plain : plainTy name = none) (nests : (Json.tagged name json).nesting ≤ depth) :
    ∃ inner, depth = inner + 1 ∧ json.nesting ≤ inner ∧
      tyWithin (fuel + 1) depth (.tagged name json) =
        tyVariant (tyWithin fuel) name inner json := by
  obtain ⟨inner, rfl, within, found⟩ := variant_tagged nests
  refine ⟨inner, rfl, within, ?_⟩
  simp [tyWithin, found, plain, Payload.read]

/-- By induction on the fuel, which is always more than the depth that is left. -/
theorem tyWithin_recovers {fuel : Nat} (enough : bound < fuel) (ty : Ty) :
    Recovers bound (tyWithin fuel) ty.toJson ty := by
  induction fuel generalizing bound ty with
  | zero => exact absurd enough (Nat.not_lt_zero _)
  | succ fuel ih =>
    intro depth le nests
    cases ty with
    | void => simp [Ty.toJson, tyWithin, plainTy, Payload.isUnit]
    | label => simp [Ty.toJson, tyWithin, plainTy, Payload.isUnit]
    | metadata => simp [Ty.toJson, tyWithin, plainTy, Payload.isUnit]
    | int bits =>
      rw [Ty.toJson] at nests ⊢
      obtain ⟨inner, rfl, within, same⟩ := tyWithin_tagged fuel rfl nests
      simp [same, tyVariant]
    | float kind =>
      rw [Ty.toJson] at nests ⊢
      obtain ⟨inner, rfl, within, same⟩ := tyWithin_tagged fuel rfl nests
      simp [same, tyVariant]
    | bodiless name =>
      rw [Ty.toJson] at nests ⊢
      obtain ⟨inner, rfl, within, same⟩ := tyWithin_tagged fuel rfl nests
      simp [same, tyVariant]
    | ptr pointee =>
      rw [Ty.toJson] at nests ⊢
      obtain ⟨inner, rfl, within, same⟩ := tyWithin_tagged fuel rfl nests
      have inside := ih (show inner < fuel by omega) pointee inner (Nat.le_refl _) within
      simp [same, tyVariant, inside]
    | array len element =>
      rw [Ty.toJson] at nests ⊢
      obtain ⟨inner, rfl, within, same⟩ := tyWithin_tagged fuel rfl nests
      have inside := sequenceWith_recovers (fun depth => uint64_nat depth len)
        (ih (show inner < fuel by omega) element) inner (Nat.le_refl _) within
      simp [same, tyVariant, inside]
    | vector len element =>
      rw [Ty.toJson] at nests ⊢
      obtain ⟨inner, rfl, within, same⟩ := tyWithin_tagged fuel rfl nests
      have inside := sequenceWith_recovers (fun depth => uint32_nat depth len)
        (ih (show inner < fuel by omega) element) inner (Nat.le_refl _) within
      simp [same, tyVariant, inside]
    | struct name fields packed =>
      rw [Ty.toJson, Ty.toJsons_eq_map] at nests ⊢
      obtain ⟨inner, rfl, within, same⟩ := tyWithin_tagged fuel rfl nests
      have inside := structWith_recovers (fun field _ => ih (show inner < fuel by omega) field)
        inner (Nat.le_refl _) within
      rw [same]
      exact inside
    | func result params vararg =>
      rw [Ty.toJson, Ty.toJsons_eq_map] at nests ⊢
      obtain ⟨inner, rfl, within, same⟩ := tyWithin_tagged fuel rfl nests
      have inside := @signatureWith_recovers inner (tyWithin fuel) ⟨result, params, vararg⟩
        (ih (show inner < fuel by omega) result)
        (fun param _ => ih (show inner < fuel by omega) param) inner (Nat.le_refl _) within
      rw [same, tyVariant]
      exact congrArg _ inside

theorem ty_recovers (bound : Nat) (ty : Ty) : Recovers bound Reading.ty ty.toJson ty := by
  intro depth _ nests
  exact tyWithin_recovers (Nat.lt_succ_self depth) ty depth (Nat.le_refl _) nests

theorem signature_recovers (bound : Nat) (given : Signature) :
    Recovers bound signature given.toJson given :=
  signatureWith_recovers (ty_recovers bound _) fun param _ => ty_recovers bound param

end Reading

end IrAssembly
