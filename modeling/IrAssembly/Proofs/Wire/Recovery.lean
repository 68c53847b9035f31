import IrAssembly.Wire.Reading
import Mathlib.Data.List.Nodup

/-! Readers that get back what was written, with enough depth for its nesting. -/

namespace IrAssembly

namespace Json

mutual

/-- The number of containers around the innermost part of a value. -/
def nesting : Json → Nat
  | arr items => nestingOfItems items + 1
  | obj members => nestingOfMembers members + 1
  | null | bool _ | int _ _ | real | str _ => 0

def nestingOfItems : List Json → Nat
  | [] => 0
  | item :: items => max (nesting item) (nestingOfItems items)

def nestingOfMembers : List (Option String × Json) → Nat
  | [] => 0
  | (_, value) :: members => max (nesting value) (nestingOfMembers members)

end

theorem nestingOfItems_le_iff {items : List Json} {depth : Nat} :
    nestingOfItems items ≤ depth ↔ ∀ item ∈ items, item.nesting ≤ depth := by
  induction items with
  | nil => simp [nestingOfItems]
  | cons item items ih => rw [nestingOfItems, Nat.max_le, ih, List.forall_mem_cons]

theorem nestingOfMembers_le_iff {members : List (Option String × Json)} {depth : Nat} :
    nestingOfMembers members ≤ depth ↔ ∀ member ∈ members, member.2.nesting ≤ depth := by
  induction members with
  | nil => simp [nestingOfMembers]
  | cons member members ih => rw [nestingOfMembers, Nat.max_le, ih, List.forall_mem_cons]

/-- An array takes one level, its items the levels below. -/
theorem exists_depth_of_arr {items : List Json} {depth : Nat}
    (nests : (arr items).nesting ≤ depth) :
    ∃ inner, depth = inner + 1 ∧ ∀ item ∈ items, item.nesting ≤ inner := by
  rw [nesting] at nests
  obtain ⟨inner, rfl⟩ := Nat.exists_eq_add_of_le nests
  refine ⟨nestingOfItems items + inner, by omega, nestingOfItems_le_iff.mp ?_⟩
  exact Nat.le_add_right ..

/-- An object takes one level, the values of its members the levels below. -/
theorem exists_depth_of_record {members : List (String × Json)} {depth : Nat}
    (nests : (record members).nesting ≤ depth) :
    ∃ inner, depth = inner + 1 ∧ ∀ member ∈ members, member.2.nesting ≤ inner := by
  rw [record, nesting] at nests
  obtain ⟨more, rfl⟩ := Nat.exists_eq_add_of_le nests
  refine ⟨_, Nat.add_right_comm .., fun member listed => ?_⟩
  refine Nat.le_trans (nestingOfMembers_le_iff.mp (Nat.le_refl _) (some member.1, member.2) ?_)
    (Nat.le_add_right ..)
  exact List.mem_map.mpr ⟨member, listed, rfl⟩

end Json

/-- Positions and numbers are held by a machine word. -/
def IsWord (value : Nat) : Prop := value < 2 ^ 64

instance : DecidablePred IsWord := fun value => inferInstanceAs (Decidable (value < 2 ^ 64))

namespace Reading

variable {α β : Type} {bound depth : Nat}

/-- At depths up to a bound, the reader gets the value from what was written for it, unless that is
nested more deeply. -/
def Recovers (bound : Nat) (read : Reading α) (json : Json) (value : α) : Prop :=
  ∀ depth ≤ bound, json.nesting ≤ depth → read depth json = some value

/-! Values without parts -/

@[simp] theorem bool_bool (depth : Nat) (value : Bool) : bool depth (.bool value) = some value :=
  rfl

@[simp] theorem string_text (depth : Nat) (value : String) :
    string depth (.text value) = some value := rfl

theorem below_nat {limit value : Nat} (small : value < limit) (depth : Nat) :
    below limit depth (.nat value) = some value :=
  if_pos small

theorem index_nat {value : Nat} (small : IsWord value) (depth : Nat) :
    index depth (.nat value) = some value :=
  below_nat small depth

@[simp] theorem uint32_nat (depth : Nat) (value : UInt32) :
    uint32 depth (.nat value.toNat) = some value := by
  rw [uint32, below_nat value.toNat_lt, Option.map_some, UInt32.ofNat_toNat]

@[simp] theorem uint64_nat (depth : Nat) (value : UInt64) :
    uint64 depth (.nat value.toNat) = some value := by
  rw [uint64, below_nat value.toNat_lt, Option.map_some, UInt64.ofNat_toNat]

@[simp] theorem bits128_nat (depth : Nat) (value : BitVec 128) :
    bits128 depth (.nat value.toNat) = some value := by
  rw [bits128, below_nat value.isLt, Option.map_some, BitVec.ofNat_toNat, BitVec.setWidth_eq]

@[simp] theorem int64_integer (depth : Nat) (value : Int64) :
    int64 depth (.integer value.toInt) = some value := by
  have low := value.le_toInt
  have high := value.toInt_lt
  by_cases negative : value.toInt < 0
  · have small : 0 < value.toInt.natAbs ∧ value.toInt.natAbs ≤ 2 ^ 63 := by omega
    have same : -(value.toInt.natAbs : Int) = value.toInt := by omega
    simp only [Json.integer, negative, decide_true, int64, if_pos small, same, Int64.ofInt_toInt]
  · have small : value.toInt.natAbs < 2 ^ 63 := by omega
    have same : (value.toInt.natAbs : Int) = value.toInt := by omega
    simp only [Json.integer, negative, decide_false, int64, if_pos small]
    rw [← Int64.ofInt_eq_ofNat, same, Int64.ofInt_toInt]

/-- A plain choice is found by its name. -/
theorem oneOf_text {name : α → String} {variants : List α} {value : α}
    (found : variants.find? (fun candidate => name candidate == name value) = some value)
    (depth : Nat) : oneOf name variants depth (.text (name value)) = some value :=
  found

/-! Parts -/

theorem mapM_map_eq_some {γ : Type} {f : β → Option γ} {key : α → β} {result : α → γ}
    {values : List α} (all : ∀ value ∈ values, f (key value) = some (result value)) :
    (values.map key).mapM f = some (values.map result) := by
  induction values with
  | nil => rfl
  | cons value values ih =>
    obtain ⟨first, others⟩ := List.forall_mem_cons.mp all
    simp [first, ih others]

theorem Recovers.list {read : Reading α} {write : α → Json} {values : List α}
    (each : ∀ value ∈ values, Recovers bound read (write value) value) :
    Recovers bound (list read) (.list write values) values := by
  intro depth le nests
  obtain ⟨inner, rfl, within⟩ := Json.exists_depth_of_arr nests
  have all : ∀ value ∈ values, read inner (write value) = some (id value) := by
    intro value member
    exact each value member inner (by omega) (within _ (List.mem_map_of_mem member))
  have mapped := mapM_map_eq_some all
  rwa [List.map_id] at mapped

theorem Recovers.pair {first : Reading α} {second : Reading β} {left right : Json} {a : α} {b : β}
    (recovers : Recovers bound first left a) (other : Recovers bound second right b) :
    Recovers bound (pair first second) (.arr [left, right]) (a, b) := by
  intro depth le nests
  obtain ⟨inner, rfl, within⟩ := Json.exists_depth_of_arr nests
  have leftRead := recovers inner (by omega) (within left (.head _))
  have rightRead := other inner (by omega) (within right (.tail _ (.head _)))
  simp [Reading.pair, leftRead, rightRead]

/-- An optional value is recovered if no value is written as null. -/
theorem Recovers.option {read : Reading α} {write : α → Json} {value : Option α}
    (each : ∀ given ∈ value, Recovers bound read (write given) given)
    (noNull : ∀ given, write given ≠ .null) :
    Recovers bound (option read) (.option write value) value := by
  intro depth le nests
  cases value with
  | none => rfl
  | some given =>
    have read := each given rfl depth le nests
    show Reading.option _ depth (write given) = some (some given)
    unfold Reading.option
    split
    · rename_i same
      exact absurd same (noNull given)
    · rw [read]
      rfl

/-! Records -/

theorem member?_record {members : List (String × Json)} (distinct : (members.map Prod.fst).Nodup)
    {member : String × Json} (listed : member ∈ members) :
    member? (members.map fun (name, value) => (some name, value)) member.1 =
      some (some member.2) := by
  have only : (members.map fun (name, value) => (some name, value)).filter
      (fun other => other.1 == some member.1) = [(some member.1, member.2)] := by
    induction members with
    | nil => cases listed
    | cons first others ih =>
      obtain ⟨absent, distinct⟩ := List.nodup_cons.mp distinct
      rcases List.mem_cons.mp listed with rfl | later
      · have none : (others.map fun (name, value) => (some name, value)).filter
            (fun other => other.1 == some member.1) = [] := by
          refine List.filter_eq_nil_iff.mpr fun other written same => ?_
          obtain ⟨source, held, rfl⟩ := List.mem_map.mp written
          exact absent (List.mem_map.mpr ⟨source, held, by simpa using same⟩)
        rw [List.map_cons, List.filter_cons_of_pos (by simp), none]
      · have other : first.1 ≠ member.1 := by
          intro same
          exact absent (same ▸ List.mem_map_of_mem later)
        rw [List.map_cons, List.filter_cons_of_neg (by simpa using other), ih distinct later]
  rw [member?, only]

/-- The fields of a record are found under their names, one level below it. -/
theorem fields_record {members : List (String × Json)} (le : depth ≤ bound)
    (nests : (Json.record members).nesting ≤ depth) (distinct : (members.map Prod.fst).Nodup) :
    ∃ inner ≤ bound, (∀ member ∈ members, member.2.nesting ≤ inner) ∧
      fields (members.map Prod.fst) depth (.record members) =
        some (inner, members.map fun member => some member.2) := by
  obtain ⟨inner, rfl, within⟩ := Json.exists_depth_of_record nests
  refine ⟨inner, by omega, within, ?_⟩
  have all := mapM_map_eq_some fun member => @member?_record members distinct member
  simp [Json.record, fields, all]

@[simp] theorem required_some (read : Reading α) (depth : Nat) (json : Json) :
    required read depth (some json) = read depth json := rfl

@[simp] theorem optional_some (read : Reading α) (depth : Nat) (json : Json) :
    optional read depth (some json) = option read depth json := rfl

@[simp] theorem option_text (depth : Nat) (value : Option String) :
    option string depth (.option .text value) = some value := by
  cases value <;> rfl

/-! Variants -/

@[simp] theorem variant_text (depth : Nat) (name : String) :
    variant depth (.text name) = some (name, .none) := by
  cases depth <;> rfl

/-- The value of a variant stands one level below it. -/
theorem variant_tagged {name : String} {json : Json}
    (nests : (Json.tagged name json).nesting ≤ depth) :
    ∃ inner, depth = inner + 1 ∧ json.nesting ≤ inner ∧
      variant depth (.tagged name json) = some (name, .value inner json) := by
  obtain ⟨inner, rfl, within⟩ := Json.exists_depth_of_record nests
  exact ⟨inner, rfl, within (name, json) (.head _), rfl⟩

end Reading

end IrAssembly
