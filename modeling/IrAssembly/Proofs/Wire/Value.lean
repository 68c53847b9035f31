import IrAssembly.Proofs.Wire.Ty
import IrAssembly.Wire.Value

/-! Constants and operands are read back from their interchange form. -/

namespace IrAssembly

theorem ofWordDigits_wordDigits (magnitude : Nat) :
    ofWordDigits (wordDigits magnitude) = magnitude := by
  induction magnitude using wordDigits.induct with
  | case1 => rw [wordDigits, if_pos rfl, ofWordDigits]
  | case2 magnitude positive ih =>
    have low : (UInt32.ofNat (magnitude % 2 ^ 32)).toNat = magnitude % 2 ^ 32 :=
      UInt32.toNat_ofNat_of_lt' (Nat.mod_lt _ (by decide))
    rw [wordDigits, if_neg positive, ofWordDigits, low, ih]
    exact Nat.mod_add_div ..

theorem Constant.toJsons_eq_map (constants : List Constant) :
    Constant.toJsons constants = constants.map Constant.toJson := by
  induction constants with
  | nil => rfl
  | cons constant constants ih => rw [Constant.toJsons, ih, List.map_cons]

/-- Results and parameters are numbered by machine words. -/
def Value.Fits : Value → Prop
  | result slot => IsWord slot.id
  | parameter formal => IsWord formal.index
  | constant _ | function _ => True

namespace Reading

variable {bound : Nat}

/-! Numbers of any size -/

@[simp] theorem sign_integer (depth : Nat) (value : Int) :
    sign depth (.integer value.sign) = some value.sign := by
  rcases Int.lt_trichotomy value 0 with negative | rfl | positive
  · rw [Int.sign_eq_neg_one_of_neg negative]
    rfl
  · rfl
  · rw [Int.sign_eq_one_of_pos positive]
    rfl

theorem bigInt_recovers (bound : Nat) (value : Int) :
    Recovers bound bigInt (bigIntJson value) value := by
  have digits : ∀ digit ∈ wordDigits value.natAbs, Recovers bound uint32 (.nat digit.toNat) digit :=
    fun digit _ depth _ _ => uint32_nat depth digit
  have parts := Recovers.pair (fun depth _ _ => sign_integer depth value) (Recovers.list digits)
  intro depth le nests
  have read : Reading.pair sign (list uint32) depth (bigIntJson value) =
      some (value.sign, wordDigits value.natAbs) := parts depth le nests
  rw [bigInt, read]
  show some (value.sign * (ofWordDigits (wordDigits value.natAbs) : Int)) = some value
  rw [ofWordDigits_wordDigits, Int.sign_mul_natAbs]

/-! Constants -/

theorem floatConstant_recovers (bound : Nat) (constant : FloatConstant) :
    Recovers bound floatConstant constant.toJson constant := by
  intro depth le nests
  obtain ⟨inner, innerLe, within, found⟩ := fields_record le nests (by simp)
  simp only [List.map_cons, List.map_nil] at found
  simp [floatConstant, FloatConstant.toJson, found]

theorem inlineAsm_recovers (bound : Nat) (asm : InlineAsm) :
    Recovers bound inlineAsm asm.toJson asm := by
  intro depth le nests
  obtain ⟨inner, innerLe, within, found⟩ := fields_record le nests (by simp)
  simp only [List.map_cons, List.map_nil, List.forall_mem_cons] at within found
  have given := ty_recovers bound asm.ty inner innerLe within.1
  simp [inlineAsm, InlineAsm.toJson, found, given]

theorem typed_recovers {α : Type} {name : String} {read : Reading α} {ty : Ty} {json : Json}
    {value : α} (other : name ≠ "ty") (inside : Recovers bound read json value) :
    Recovers bound (typed name read) (.record [("ty", ty.toJson), (name, json)]) (ty, value) := by
  intro depth le nests
  obtain ⟨inner, innerLe, within, found⟩ := fields_record le nests (by simpa using other.symm)
  simp only [List.map_cons, List.map_nil, List.forall_mem_cons] at within found
  have given := ty_recovers bound ty inner innerLe within.1
  have valueRead := inside inner innerLe within.2.1
  simp [typed, found, given, valueRead]

theorem named_recovers {α : Type} {read : Reading α} {name : String} {json : Json} {value : α}
    (inside : Recovers bound read json value) :
    Recovers bound (named read) (.record [("name", .text name), ("ty", json)]) (name, value) := by
  intro depth le nests
  obtain ⟨inner, innerLe, within, found⟩ := fields_record le nests (by simp)
  simp only [List.map_cons, List.map_nil, List.forall_mem_cons] at within found
  have valueRead := inside inner innerLe within.2.1
  simp [named, found, valueRead]

theorem constantElementPointer_recovers {read : Reading Constant} {ty : Ty} {base : Constant}
    {indices : List Constant} {inbounds : Bool} (baseRead : Recovers bound read base.toJson base)
    (each : ∀ index ∈ indices, Recovers bound read index.toJson index) :
    Recovers bound (constantElementPointer read)
      (.record [("ty", ty.toJson), ("base", base.toJson),
        ("indices", .list Constant.toJson indices), ("inbounds", .bool inbounds)])
      (.elementPointer ty base indices inbounds) := by
  intro depth le nests
  obtain ⟨inner, innerLe, within, found⟩ := fields_record le nests (by simp)
  simp only [List.map_cons, List.map_nil, List.forall_mem_cons] at within found
  have given := ty_recovers bound ty inner innerLe within.1
  have inside := baseRead inner innerLe within.2.1
  have others := Recovers.list each inner innerLe within.2.2.1
  simp [constantElementPointer, found, given, inside, others]

/-- A constant variant is read as its value, one level below. -/
theorem constantWithin_tagged (fuel : Nat) {depth : Nat} {name : String} {json : Json}
    (nests : (Json.tagged name json).nesting ≤ depth) :
    ∃ inner, depth = inner + 1 ∧ json.nesting ≤ inner ∧
      constantWithin (fuel + 1) depth (.tagged name json) =
        constantVariant (constantWithin fuel) name inner json := by
  obtain ⟨inner, rfl, within, found⟩ := variant_tagged nests
  refine ⟨inner, rfl, within, ?_⟩
  simp [constantWithin, found, Payload.read]

/-- By induction on the fuel, which is always more than the depth that is left. -/
theorem constantWithin_recovers {fuel : Nat} (enough : bound < fuel) (constant : Constant) :
    Recovers bound (constantWithin fuel) constant.toJson constant := by
  induction fuel generalizing bound constant with
  | zero => exact absurd enough (Nat.not_lt_zero _)
  | succ fuel ih =>
    intro depth le nests
    cases constant with
    | int ty value =>
      rw [Constant.toJson] at nests ⊢
      obtain ⟨inner, rfl, within, same⟩ := constantWithin_tagged fuel nests
      have inside := typed_recovers (by decide) (fun depth _ _ => int64_integer depth value)
        inner (Nat.le_refl _) within
      simp [same, constantVariant, inside]
    | bigInt ty value =>
      rw [Constant.toJson] at nests ⊢
      obtain ⟨inner, rfl, within, same⟩ := constantWithin_tagged fuel nests
      have inside := typed_recovers (by decide) (bigInt_recovers inner value)
        inner (Nat.le_refl _) within
      simp [same, constantVariant, inside]
    | float value =>
      rw [Constant.toJson] at nests ⊢
      obtain ⟨inner, rfl, within, same⟩ := constantWithin_tagged fuel nests
      have inside := floatConstant_recovers inner value inner (Nat.le_refl _) within
      simp [same, constantVariant, inside]
    | null ty =>
      rw [Constant.toJson] at nests ⊢
      obtain ⟨inner, rfl, within, same⟩ := constantWithin_tagged fuel nests
      have inside := ty_recovers inner ty inner (Nat.le_refl _) within
      simp [same, constantVariant, inside]
    | undef ty =>
      rw [Constant.toJson] at nests ⊢
      obtain ⟨inner, rfl, within, same⟩ := constantWithin_tagged fuel nests
      have inside := ty_recovers inner ty inner (Nat.le_refl _) within
      simp [same, constantVariant, inside]
    | zero ty =>
      rw [Constant.toJson] at nests ⊢
      obtain ⟨inner, rfl, within, same⟩ := constantWithin_tagged fuel nests
      have inside := ty_recovers inner ty inner (Nat.le_refl _) within
      simp [same, constantVariant, inside]
    | aggregate ty elements =>
      rw [Constant.toJson, Constant.toJsons_eq_map] at nests ⊢
      obtain ⟨inner, rfl, within, same⟩ := constantWithin_tagged fuel nests
      have elementsRead : Recovers inner (list (constantWithin fuel))
          (.list Constant.toJson elements) elements :=
        .list fun element _ => ih (show inner < fuel by omega) element
      have inside := typed_recovers (by decide) elementsRead inner (Nat.le_refl _) within
      rw [same, constantVariant]
      exact congrArg _ inside
    | inlineAsm asm =>
      rw [Constant.toJson] at nests ⊢
      obtain ⟨inner, rfl, within, same⟩ := constantWithin_tagged fuel nests
      have inside := inlineAsm_recovers inner asm inner (Nat.le_refl _) within
      simp [same, constantVariant, inside]
    | elementPointer ty base indices inbounds =>
      rw [Constant.toJson, Constant.toJsons_eq_map] at nests ⊢
      obtain ⟨inner, rfl, within, same⟩ := constantWithin_tagged fuel nests
      rw [same, constantVariant]
      exact constantElementPointer_recovers (ih (show inner < fuel by omega) base)
        (fun index _ => ih (show inner < fuel by omega) index) inner (Nat.le_refl _) within
    | global name ty =>
      rw [Constant.toJson] at nests ⊢
      obtain ⟨inner, rfl, within, same⟩ := constantWithin_tagged fuel nests
      have inside := named_recovers (ty_recovers inner ty) inner (Nat.le_refl _) within
      simp [same, constantVariant, inside]

theorem constant_recovers (bound : Nat) (given : Constant) :
    Recovers bound constant given.toJson given := by
  intro depth _ nests
  exact constantWithin_recovers (Nat.lt_succ_self depth) given depth (Nat.le_refl _) nests

/-! Operands -/

theorem slot_recovers {key : String} {number : Nat} (small : IsWord number)
    (distinct : key ≠ "name" ∧ key ≠ "ty") (name : String) (given : Ty) :
    Recovers bound (slot key)
      (.record [(key, .nat number), ("name", .text name), ("ty", given.toJson)])
      (number, name, given) := by
  intro depth le nests
  obtain ⟨inner, innerLe, within, found⟩ := fields_record le nests (by simpa using distinct)
  simp only [List.map_cons, List.map_nil, List.forall_mem_cons] at within found
  have inside := ty_recovers bound given inner innerLe within.2.2.1
  simp [slot, found, index_nat small, inside]

theorem parameter_recovers {formal : Parameter} (small : IsWord formal.index) :
    Recovers bound parameter formal.toJson formal := by
  intro depth le nests
  have inside := slot_recovers small (by decide) formal.name formal.ty depth le nests
  exact congrArg _ inside

theorem functionRef_recovers (bound : Nat) (callee : FunctionRef) :
    Recovers bound functionRef callee.toJson callee := by
  intro depth le nests
  have inside := named_recovers (signature_recovers bound callee.signature) depth le nests
  exact congrArg _ inside

theorem value_recovers {given : Value} (fits : given.Fits) :
    Recovers bound value given.toJson given := by
  intro depth le nests
  cases given with
  | constant known =>
    obtain ⟨inner, rfl, within, found⟩ := variant_tagged nests
    have inside := constant_recovers inner known inner (Nat.le_refl _) within
    simp [value, Value.toJson, found, Payload.read, inside]
  | result result =>
    obtain ⟨inner, rfl, within, found⟩ := variant_tagged nests
    have inside : slot "id" inner result.toJson = some (result.id, result.name, result.ty) :=
      slot_recovers fits (by decide) result.name result.ty inner (Nat.le_refl _) within
    simp [value, Value.toJson, found, Payload.read, inside]
  | parameter formal =>
    obtain ⟨inner, rfl, within, found⟩ := variant_tagged nests
    have inside := parameter_recovers fits inner (Nat.le_refl _) within
    simp [value, Value.toJson, found, Payload.read, inside]
  | function callee =>
    obtain ⟨inner, rfl, within, found⟩ := variant_tagged nests
    have inside := functionRef_recovers inner callee inner (Nat.le_refl _) within
    simp [value, Value.toJson, found, Payload.read, inside]

end Reading

end IrAssembly
