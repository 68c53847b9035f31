import IrAssembly.Proofs.Text.Hexadecimal

/-! What stands between quotes is one line of printable characters from which the bytes can be read
back, so a name cannot leave its quotes: it ends at the first quote behind the opening one. -/

namespace IrAssembly

/-- The characters of ASCII that are no control characters. -/
def isPrintable (char : Char) : Bool := 0x20 ≤ char.toNat && char.toNat < 0x7f

/-- The bytes that a text with escapes stands for. A backslash has to stand in front of two digits,
which are one byte; any other character stands for its own bytes. -/
def unescape : List Char → Option (List UInt8)
  | [] => some []
  | '\\' :: high :: low :: rest => do
    let byte ← hexNumber? [high, low]
    return .ofNat byte :: (← unescape rest)
  | '\\' :: _ => none
  | char :: rest => do return String.utf8EncodeChar char ++ (← unescape rest)

/-- A name behind a sigil. -/
def identifier (sigil : Char) (name : String) : String := String.singleton sigil ++ spelledName name

theorem localName_eq_identifier (name : String) : localName name = identifier '%' name := rfl

theorem globalName_eq_identifier (name : String) : globalName name = identifier '@' name := rfl

/-! Characters -/

theorem isPrintable_hexDigit : ∀ digit < 16, isPrintable (hexDigit digit) = true := by
  decide

theorem isPrintable_of_isNameChar {char : Char} (inName : isNameChar char = true) :
    isPrintable char = true := by
  unfold isNameChar Char.isAlphanum Char.isAlpha Char.isUpper Char.isLower Char.isDigit at inName
  simp only [Bool.or_eq_true, Bool.and_eq_true, decide_eq_true_eq, beq_iff_eq, ge_iff_le,
    UInt32.le_iff_toNat_le, Char.toNat_val] at inName
  rcases inName with ((((((upper | lower) | digit) | rfl) | rfl) | rfl) | rfl)
  · simp [isPrintable] at upper ⊢
    omega
  · simp [isPrintable] at lower ⊢
    omega
  · simp [isPrintable] at digit ⊢
    omega
  all_goals rfl

theorem isPlainByte_bounds {byte : UInt8} (plain : isPlainByte byte = true) :
    0x20 ≤ byte.toNat ∧ byte.toNat < 0x7f := by
  simp only [isPlainByte, Bool.and_eq_true, decide_eq_true_eq, UInt8.le_iff_toNat_le,
    UInt8.lt_iff_toNat_lt] at plain
  exact ⟨plain.1.1.1, plain.1.1.2⟩

theorem isPrintable_of_mem_escapeByte {byte : UInt8} {char : Char}
    (member : char ∈ escapeByte byte) : isPrintable char = true := by
  unfold escapeByte at member
  split at member
  · rename_i plain
    rw [List.mem_singleton.mp member, isPrintable, toNat_ofNat_toNat]
    simpa using isPlainByte_bounds plain
  · rcases List.mem_cons.mp member with rfl | inDigits
    · rfl
    · obtain ⟨digit, bounded, rfl⟩ := exists_of_mem_hexDigits inDigits
      exact isPrintable_hexDigit digit bounded

/-- Nothing but printable characters stands between quotes. -/
theorem isPrintable_of_mem_escapeString {text : String} {char : Char}
    (member : char ∈ (escapeString text).toList) : isPrintable char = true := by
  rw [escapeString, String.toList_ofList] at member
  obtain ⟨byte, _, inByte⟩ := List.mem_flatMap.mp member
  exact isPrintable_of_mem_escapeByte inByte

theorem isPrintable_of_mem_spelledName {name : String} {char : Char}
    (member : char ∈ (spelledName name).toList) : isPrintable char = true := by
  unfold spelledName at member
  split at member
  · rename_i plain
    exact isPrintable_of_isNameChar (isNameChar_of_isPlainName plain member)
  · have quote : "\"".toList = ['"'] := rfl
    simp only [String.toList_append, List.mem_append, quote, List.mem_singleton] at member
    rcases member with (rfl | inside) | rfl
    · rfl
    · exact isPrintable_of_mem_escapeString inside
    · rfl

/-! Reading back -/

theorem unescape_plain {char : Char} (plain : char ≠ '\\') (rest : List Char) :
    unescape (char :: rest) = (unescape rest).map (String.utf8EncodeChar char ++ ·) := by
  rw [unescape]
  · cases unescape rest <;> rfl
  all_goals simp [plain]

theorem utf8EncodeChar_of_isPlainByte {byte : UInt8} (plain : isPlainByte byte = true) :
    String.utf8EncodeChar (Char.ofNat byte.toNat) = [byte] := by
  have small := (isPlainByte_bounds plain).2
  have code : (Char.ofNat byte.toNat).val.toNat = byte.toNat := toNat_ofNat_toNat byte
  rw [String.utf8EncodeChar, code, if_pos (by omega), UInt8.ofNat_toNat]

/-- A byte is read back, and what follows it is read as it was. -/
theorem unescape_escapeByte (byte : UInt8) (rest : List Char) :
    unescape (escapeByte byte ++ rest) = (unescape rest).map (byte :: ·) := by
  unfold escapeByte
  split
  · rename_i plain
    rw [List.singleton_append, unescape_plain (ofNat_ne_backslash plain),
      utf8EncodeChar_of_isPlainByte plain]
    rfl
  · have digits : hexNumber? (hexDigits 2 byte.toNat) = some byte.toNat := by
      rw [hexNumber?_hexDigits, Nat.mod_eq_of_lt byte.toNat_lt]
    simp only [hexDigits, List.nil_append, List.cons_append] at digits ⊢
    rw [unescape, digits]
    cases unescape rest <;> simp

theorem unescape_flatMap (bytes : List UInt8) :
    unescape (bytes.flatMap escapeByte) = some bytes := by
  induction bytes with
  | nil => rfl
  | cons byte bytes ih => rw [List.flatMap_cons, unescape_escapeByte, ih, Option.map_some]

/-- The bytes of a text are read back. -/
theorem unescape_escapeString (text : String) :
    unescape (escapeString text).toList = some (utf8Bytes text) := by
  rw [escapeString, String.toList_ofList, unescape_flatMap]

/-- What can be read has two digits behind every backslash. -/
theorem isHexDigit_behind_backslash {letters front back : List Char} {bytes : List UInt8}
    (read : unescape letters = some bytes) (parts : letters = front ++ '\\' :: back) :
    ∃ high low rest, back = high :: low :: rest ∧ isHexDigit high = true ∧
      isHexDigit low = true := by
  fun_induction unescape letters generalizing front bytes with
  | case1 => simp at parts
  | case2 high low rest ih =>
    obtain ⟨byte, digits, behind⟩ := Option.bind_eq_some_iff.mp read
    obtain ⟨others, rest, _⟩ := Option.bind_eq_some_iff.mp behind
    obtain ⟨isHigh, isLow⟩ : isHexDigit high = true ∧ isHexDigit low = true := by
      simpa using isHexDigit_of_hexNumber? digits
    -- neither digit is a backslash
    match front, parts with
    | [], parts =>
      obtain rfl := (List.cons.inj parts).2
      exact ⟨high, low, _, rfl, isHigh, isLow⟩
    | [_], parts =>
      obtain ⟨rfl, _⟩ := List.cons.inj (List.cons.inj parts).2
      cases isHigh
    | [_, _], parts =>
      obtain ⟨rfl, _⟩ := List.cons.inj (List.cons.inj (List.cons.inj parts).2).2
      cases isLow
    | _ :: _ :: _ :: front, parts =>
      exact ih rest (List.cons.inj (List.cons.inj (List.cons.inj parts).2).2).2
  | case3 => cases read
  | case4 char rest other alone ih =>
    obtain ⟨others, rest, _⟩ := Option.bind_eq_some_iff.mp read
    match front, parts with
    | [], parts => exact absurd (List.cons.inj parts).1 alone
    | _ :: front, parts => exact ih rest (List.cons.inj parts).2

/-! Names -/

theorem toList_identifier (sigil : Char) (name : String) :
    (identifier sigil name).toList = sigil :: (spelledName name).toList := by
  rw [identifier, String.toList_append, String.toList_singleton, List.singleton_append]

theorem identifier_injective (sigil : Char) : Function.Injective (identifier sigil) := by
  intro name other same
  exact spelledName_injective ((String.append_right_inj _).mp same)

theorem toList_spelledName_of_quoted {name : String} (quoted : isPlainName name.toList = false) :
    (spelledName name).toList = '"' :: (escapeString name).toList ++ ['"'] := by
  rw [spelledName, if_neg (by simp [quoted])]
  simp

/-- What stands in front of the first quote is the text that was put between the quotes. -/
theorem takeWhile_quoted (text : String) (after : List Char) :
    ((escapeString text).toList ++ '"' :: after).takeWhile (· != '"') =
        (escapeString text).toList ∧
      ((escapeString text).toList ++ '"' :: after).dropWhile (· != '"') = '"' :: after := by
  have inside : ∀ char ∈ (escapeString text).toList, (char != '"') = true := by
    intro char member
    rw [bne_iff_ne]
    rintro rfl
    exact quote_notMem_escapeString text member
  rw [List.takeWhile_append_of_pos inside, List.dropWhile_append_of_pos inside]
  simp

/-- An escaped text consists of printable characters other than the quote, has two digits behind
every backslash, and is read back byte by byte. So names behind a sigil are told apart, have no line
break, and, if they are quoted, end at the first quote behind the opening one, whatever follows. -/
theorem escapes_confine :
    (∀ text, unescape (escapeString text).toList = some (utf8Bytes text) ∧
      (∀ char ∈ (escapeString text).toList, isPrintable char = true ∧ char ≠ '"') ∧
      ∀ front back, (escapeString text).toList = front ++ '\\' :: back →
        ∃ high low rest, back = high :: low :: rest ∧ isHexDigit high = true ∧
          isHexDigit low = true) ∧
    ∀ sigil, Function.Injective (identifier sigil) ∧
      ∀ name, (∀ char ∈ (spelledName name).toList, isPrintable char = true) ∧
        ('\n' ∈ (identifier sigil name).toList ↔ sigil = '\n') ∧
        (isPlainName name.toList = false → ∀ after, ∃ rest,
          (identifier sigil name).toList ++ after = sigil :: '"' :: rest ∧
          rest.takeWhile (· != '"') = (escapeString name).toList ∧
          rest.dropWhile (· != '"') = '"' :: after) := by
  refine ⟨fun text => ⟨unescape_escapeString text, fun char member => ?_, fun front back => ?_⟩,
    fun sigil => ⟨identifier_injective sigil, fun name => ⟨fun char member => ?_, ?_, ?_⟩⟩⟩
  · refine ⟨isPrintable_of_mem_escapeString member, ?_⟩
    rintro rfl
    exact quote_notMem_escapeString text member
  · exact isHexDigit_behind_backslash (unescape_escapeString text)
  · exact isPrintable_of_mem_spelledName member
  · have inName : '\n' ∉ (spelledName name).toList := fun member =>
      absurd (isPrintable_of_mem_spelledName member) (by decide)
    simp [toList_identifier, inName, eq_comm]
  · intro quoted after
    obtain ⟨front, back⟩ := takeWhile_quoted name after
    refine ⟨_, ?_, front, back⟩
    rw [toList_identifier, toList_spelledName_of_quoted quoted]
    simp

/-- A name with a quote, a backslash and a line break. -/
theorem escapes_confine_of_quote : escapeString "a\"b\\c\n" = "a\\22b\\5Cc\\0A" ∧
    (∃ high low rest, "5Cc\\0A".toList = high :: low :: rest ∧ isHexDigit high = true ∧
      isHexDigit low = true) ∧
    identifier '@' "a\"b\\c\n" = "@\"a\\22b\\5Cc\\0A\"" ∧
    '\n' ∉ (identifier '@' "a\"b\\c\n").toList ∧
    ∃ rest, (identifier '@' "a\"b\\c\n").toList ++ [' ', '"'] = '@' :: '"' :: rest ∧
      rest.dropWhile (· != '"') = ['"', ' ', '"'] := by
  have spelled : escapeString "a\"b\\c\n" = "a\\22b\\5Cc\\0A" := by decide +kernel
  have quoted : isPlainName "a\"b\\c\n".toList = false := by decide +kernel
  obtain ⟨texts, names⟩ := escapes_confine
  obtain ⟨_, _, digits⟩ := texts "a\"b\\c\n"
  obtain ⟨_, line, ends⟩ := (names '@').2 "a\"b\\c\n"
  rw [spelled] at digits
  obtain ⟨rest, whole, _, behind⟩ := ends quoted [' ', '"']
  refine ⟨spelled, digits "a\\22b".toList _ rfl, by decide +kernel, ?_, rest, whole, behind⟩
  exact line.not.mpr (by decide)

end IrAssembly
