import IrAssembly.Assembly.Listing

/-! The name that a type is defined under, beside the text that the types around it refer to it
by. The definition quotes a name that is not plain, a reference never does. -/

namespace IrAssembly

theorem length_le_length_flatMap {α β : Type} {spell : α → List β}
    (filled : ∀ item, 0 < (spell item).length) (items : List α) :
    items.length ≤ (items.flatMap spell).length := by
  induction items with
  | nil => exact Nat.zero_le _
  | cons item items ih =>
    have first := filled item
    rw [List.flatMap_cons, List.length_append, List.length_cons]
    omega

theorem length_escapeByte_pos (byte : UInt8) : 0 < (escapeByte byte).length := by
  unfold escapeByte
  split <;> exact Nat.succ_pos _

theorem length_utf8EncodeChar_pos (char : Char) : 0 < (String.utf8EncodeChar char).length := by
  rw [String.length_utf8EncodeChar]
  exact char.utf8Size_pos

/-- Escaping makes no text shorter. -/
theorem length_le_length_escapeString (text : String) :
    text.toList.length ≤ (escapeString text).toList.length := by
  rw [escapeString, String.toList_ofList, utf8Bytes]
  exact Nat.le_trans (length_le_length_flatMap length_utf8EncodeChar_pos _)
    (length_le_length_flatMap length_escapeByte_pos _)

/-- Quotes change every name, so only the plain ones are spelled as they are. -/
theorem spelledName_eq_self_iff (name : String) :
    spelledName name = name ↔ isPlainName name.toList = true := by
  constructor
  · intro same
    by_cases plain : isPlainName name.toList = true
    · exact plain
    · rw [spelledName, if_neg plain] at same
      have lengths := congrArg (fun text => text.toList.length) same
      have longer := length_le_length_escapeString name
      have quote : "\"".toList.length = 1 := rfl
      simp only [String.toList_append, List.length_append, quote] at lengths
      omega
  · intro plain
    rw [spelledName, if_pos plain]

namespace Ty

/-- The name of a structure that has one, or of a type without a body. -/
def name? : Ty → Option String
  | struct name _ _ => name
  | bodiless name => some name
  | _ => none

/-- What follows the name where a type is defined. -/
def bodyText : Ty → String
  | struct _ fields packed => structBody (texts fields) packed
  | _ => "opaque"

variable {ty : Ty} {name : String}

theorem definitionLine_of_named (named : ty.name? = some name) :
    ty.definitionLine = .ok (localName name ++ " = type " ++ ty.bodyText) := by
  cases ty with
  | struct own fields packed =>
    cases named
    rfl
  | bodiless own =>
    cases named
    simp [definitionLine, bodyText, String.append_assoc]
  | _ => cases named

theorem text_of_named (named : ty.name? = some name) : ty.text = "%" ++ name := by
  cases ty with
  | struct own fields packed =>
    cases named
    rw [text]
  | bodiless own =>
    cases named
    rw [text]
  | _ => cases named

/-- A named type is defined under its name as names are spelled, and the types around it refer to
it in the same way just if the name is plain. -/
theorem resolves_iff_plain (named : ty.name? = some name) :
    ty.definitionLine = .ok (localName name ++ " = type " ++ ty.bodyText) ∧
      (ty.text = localName name ↔ isPlainName name.toList = true) := by
  refine ⟨definitionLine_of_named named, ?_⟩
  rw [text_of_named named, localName, String.append_right_inj, ← spelledName_eq_self_iff, eq_comm]

/-- A structure with a plain name is referred to as it is defined. -/
theorem plain_pair_resolves : (struct (some "pair") [.i32, .i32] false).name? = some "pair" ∧
    isPlainName "pair".toList = true ∧
    (struct (some "pair") [.i32, .i32] false).text = localName "pair" := by
  have plain : isPlainName "pair".toList = true := by decide +kernel
  exact ⟨rfl, plain, (resolves_iff_plain rfl).2.mpr plain⟩

/-- A pointer to a structure whose name holds a blank refers to a name that no line defines. -/
theorem blank_in_name_dangles : ∃ spaced : Ty, spaced.name? = some "my type" ∧
    (ptr spaced).text = "%my type*" ∧
    spaced.definitionLine.toOption = some "%\"my type\" = type \x7b i32 \x7d" ∧
    ¬ ∃ body, spaced.definitionLine = .ok (spaced.text ++ " = type " ++ body) := by
  refine ⟨struct (some "my type") [.i32] false, rfl, by decide +kernel, by decide +kernel, ?_⟩
  rintro ⟨body, same⟩
  rw [definitionLine_of_named rfl, Except.ok.injEq, text_of_named rfl, localName,
    String.append_assoc, String.append_assoc, String.append_assoc, String.append_assoc,
    String.append_right_inj] at same
  have letters := congrArg (fun text => text.toList.head?) same
  have quoted : spelledName "my type" = "\"my type\"" := by decide +kernel
  simp [quoted] at letters

end Ty

end IrAssembly
