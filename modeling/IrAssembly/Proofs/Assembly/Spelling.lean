import IrAssembly.Assembly.Identifier
import Mathlib.Data.List.Basic

/-! Names are told apart by their spelling: no quoted name looks like a plain one, and what stands
between the quotes can be read back byte by byte. -/

namespace IrAssembly

/-- If codes differ wherever they begin, what they are strung together from differs. -/
theorem flatMap_injective {α β : Type} {code : α → List β} (filled : ∀ item, code item ≠ [])
    (begins : ∀ {first second front back}, code first ++ front = code second ++ back →
      first = second) : Function.Injective (List.flatMap code) := by
  intro items others same
  induction items generalizing others with
  | nil =>
    cases others with
    | nil => rfl
    | cons other others => simp [filled] at same
  | cons item items ih =>
    cases others with
    | nil => simp [filled] at same
    | cons other others =>
      rw [List.flatMap_cons, List.flatMap_cons] at same
      obtain rfl := begins same
      rw [ih (List.append_cancel_left same)]

/-! Bytes -/

theorem hexDigit_injective : ∀ digit < 16, ∀ other < 16, hexDigit digit = hexDigit other →
    digit = other := by
  decide

/-- A digit tells four bits. -/
theorem mod_eq_of_hexDigit {value other : Nat}
    (same : hexDigit (value % 16) = hexDigit (other % 16)) : value % 16 = other % 16 :=
  hexDigit_injective _ (Nat.mod_lt _ (by decide)) _ (Nat.mod_lt _ (by decide)) same

theorem toNat_ofNat_toNat (byte : UInt8) : (Char.ofNat byte.toNat).toNat = byte.toNat := by
  have bound := byte.toNat_lt
  rw [Char.ofNat, dif_pos (Or.inl (by omega))]
  rfl

theorem ofNat_ne_backslash {byte : UInt8} (plain : isPlainByte byte = true) :
    Char.ofNat byte.toNat ≠ '\\' := by
  intro same
  have code := toNat_ofNat_toNat byte
  rw [same] at code
  have backslash : byte = 0x5c := UInt8.toNat_inj.mp code.symm
  rw [backslash] at plain
  exact absurd plain (by decide)

theorem escapeByte_begins {byte other : UInt8} {front back : List Char}
    (same : escapeByte byte ++ front = escapeByte other ++ back) : byte = other := by
  unfold escapeByte at same
  by_cases plain : isPlainByte byte = true
  · rw [if_pos plain] at same
    by_cases otherPlain : isPlainByte other = true
    · rw [if_pos otherPlain] at same
      have chars := congrArg Char.toNat (List.cons.inj same).1
      rw [toNat_ofNat_toNat, toNat_ofNat_toNat] at chars
      exact UInt8.toNat_inj.mp chars
    · rw [if_neg otherPlain] at same
      exact absurd (List.cons.inj same).1 (ofNat_ne_backslash plain)
  · rw [if_neg plain] at same
    by_cases otherPlain : isPlainByte other = true
    · rw [if_pos otherPlain] at same
      exact absurd (List.cons.inj same).1.symm (ofNat_ne_backslash otherPlain)
    · rw [if_neg otherPlain] at same
      have digits := (List.cons.inj same).2
      simp only [hexDigits, List.nil_append, List.cons_append] at digits
      obtain ⟨high, others⟩ := List.cons.inj digits
      obtain ⟨low, _⟩ := List.cons.inj others
      have highs := mod_eq_of_hexDigit high
      have lows := mod_eq_of_hexDigit low
      have bound := byte.toNat_lt
      have otherBound := other.toNat_lt
      exact UInt8.toNat_inj.mp (by omega)

theorem escapeByte_ne_nil (byte : UInt8) : escapeByte byte ≠ [] := by
  unfold escapeByte
  split <;> exact List.cons_ne_nil _ _

theorem exists_of_mem_hexDigits {width value : Nat} {char : Char}
    (member : char ∈ hexDigits width value) : ∃ digit < 16, char = hexDigit digit := by
  induction width generalizing value with
  | zero => cases member
  | succ width ih =>
    rcases List.mem_append.mp member with front | last
    · exact ih front
    · exact ⟨value % 16, Nat.mod_lt _ (by decide), List.mem_singleton.mp last⟩

/-- A quote is escaped. -/
theorem quote_notMem_escapeByte (byte : UInt8) : '"' ∉ escapeByte byte := by
  unfold escapeByte
  by_cases plain : isPlainByte byte = true
  · rw [if_pos plain, List.mem_singleton]
    intro same
    have code := toNat_ofNat_toNat byte
    rw [← same] at code
    have quote : byte = 0x22 := UInt8.toNat_inj.mp code.symm
    rw [quote] at plain
    exact absurd plain (by decide)
  · rw [if_neg plain, List.mem_cons, not_or]
    refine ⟨by decide, fun member => ?_⟩
    obtain ⟨digit, bounded, same⟩ := exists_of_mem_hexDigits member
    have others : ∀ digit < 16, '"' ≠ hexDigit digit := by decide
    exact others digit bounded same

/-! Texts -/

theorem quote_notMem_escapeString (text : String) : '"' ∉ (escapeString text).toList := by
  rw [escapeString, String.toList_ofList, List.mem_flatMap]
  rintro ⟨byte, _, member⟩
  exact quote_notMem_escapeByte byte member

theorem utf8Bytes_injective : Function.Injective utf8Bytes := by
  intro text other same
  rw [← String.toByteArray_inj, ← String.utf8Encode_toList, ← String.utf8Encode_toList]
  exact congrArg List.toByteArray same

theorem escapeString_injective : Function.Injective escapeString := by
  intro text other same
  have codes := String.ofList_injective same
  exact utf8Bytes_injective (flatMap_injective escapeByte_ne_nil escapeByte_begins codes)

/-! Names -/

theorem isNameChar_of_isPlainName {name : List Char} (plain : isPlainName name = true) {char : Char}
    (member : char ∈ name) : isNameChar char = true := by
  cases name with
  | nil => cases member
  | cons first others =>
    simp only [isPlainName, Bool.or_eq_true, Bool.and_eq_true] at plain
    rcases plain with digits | ⟨_, chars⟩
    · have digit := List.all_eq_true.mp digits char member
      simp [isNameChar, Char.isAlphanum, digit]
    · exact List.all_eq_true.mp chars char member

/-- A plain name does not start with a quote. -/
theorem ne_quoted_of_isPlainName {name : String} (plain : isPlainName name.toList = true)
    (text : String) : name ≠ "\"" ++ text := by
  rintro rfl
  have quote : '"' ∈ ("\"" ++ text).toList := by simp
  exact absurd (isNameChar_of_isPlainName plain quote) (by decide)

theorem spelledName_injective : Function.Injective spelledName := by
  intro name other same
  unfold spelledName at same
  by_cases plain : isPlainName name.toList = true
  · rw [if_pos plain] at same
    by_cases otherPlain : isPlainName other.toList = true
    · rwa [if_pos otherPlain] at same
    · rw [if_neg otherPlain, String.append_assoc] at same
      exact absurd same (ne_quoted_of_isPlainName plain _)
  · rw [if_neg plain] at same
    by_cases otherPlain : isPlainName other.toList = true
    · rw [if_pos otherPlain, String.append_assoc] at same
      exact absurd same.symm (ne_quoted_of_isPlainName otherPlain _)
    · rw [if_neg otherPlain, String.append_left_inj, String.append_right_inj] at same
      exact escapeString_injective same

/-- The first character of a spelled name belongs to a name or is a quote. -/
theorem exists_head_spelledName (name : String) : ∃ char others,
    (spelledName name).toList = char :: others ∧ (isNameChar char = true ∨ char = '"') := by
  unfold spelledName
  by_cases plain : isPlainName name.toList = true
  · rw [if_pos plain]
    cases letters : name.toList with
    | nil =>
      rw [letters] at plain
      cases plain
    | cons char others =>
      have member : char ∈ name.toList := letters ▸ List.mem_cons_self ..
      exact ⟨char, others, rfl, .inl (isNameChar_of_isPlainName plain member)⟩
  · rw [if_neg plain]
    exact ⟨'"', (escapeString name ++ "\"").toList, by simp, .inr rfl⟩

end IrAssembly
