import IrAssembly.Json.Printer
import IrAssembly.Json.Reader
import IrAssembly.Proofs.Text.Digits

/-! Numbers and strings are read back from their texts. -/

namespace IrAssembly.Json

/-! Numbers -/

/-- What may follow a number: no character that could be a part of it. -/
def EndsNumber (rest : List Char) : Prop :=
  ∀ char ∈ rest.head?, char.isDigit = false ∧ char ≠ '.' ∧ char ≠ 'e' ∧ char ≠ 'E'

theorem takeDigits_append {digits rest : List Char} (some : digits ≠ [])
    (all : ∀ char ∈ digits, char.isDigit = true)
    (ends : ∀ char ∈ rest.head?, char.isDigit = false) :
    takeDigits (digits ++ rest) = .some (digits, rest) := by
  have none : rest.takeWhile Char.isDigit = [] ∧ rest.dropWhile Char.isDigit = rest := by
    cases rest with
    | nil => exact ⟨rfl, rfl⟩
    | cons char rest => simp [ends char rfl]
  obtain ⟨first, others, rfl⟩ := List.exists_cons_of_ne_nil some
  rw [takeDigits, List.takeWhile_append_of_pos all, List.dropWhile_append_of_pos all, none.1,
    none.2, List.append_nil]

namespace EndsNumber

variable {rest : List Char}

theorem noDigit (ends : EndsNumber rest) : ∀ char ∈ rest.head?, char.isDigit = false :=
  fun char first => (ends char first).1

theorem skipFraction (ends : EndsNumber rest) : skipFraction rest = some rest := by
  unfold Json.skipFraction
  split
  · exact absurd rfl (ends '.' rfl).2.1
  · rfl

theorem skipExponent (ends : EndsNumber rest) : skipExponent rest = some rest := by
  cases rest with
  | nil => rfl
  | cons char rest =>
    obtain ⟨_, _, lower, upper⟩ := ends char rfl
    simp [Json.skipExponent, lower, upper]

end EndsNumber

theorem decimalValue_toDigits (number : Nat) : decimalValue (Nat.toDigits 10 number) = number := by
  rw [decimalValue, ← Nat.ofDigitChars_eq_foldl, Nat.ofDigitChars_ten_toDigits]

theorem readMagnitude_toDigits (negative : Bool) (number : Nat) {rest : List Char}
    (ends : EndsNumber rest) :
    readMagnitude negative (Nat.toDigits 10 number ++ rest) =
      some (.int negative number, rest) := by
  have taken : takeDigits (Nat.toDigits 10 number ++ rest) =
      some (Nat.toDigits 10 number, rest) :=
    takeDigits_append Nat.toDigits_ne_nil (fun _ => Text.isDigit_of_mem_toDigits) ends.noDigit
  have canonical : ¬ ((Nat.toDigits 10 number).head? = some '0' ∧
      (Nat.toDigits 10 number).length ≠ 1) := by
    intro ⟨zero, long⟩
    rcases Nat.eq_zero_or_pos number with rfl | positive
    · exact long rfl
    · exact Text.head?_toDigits_ne positive zero
  simp [readMagnitude, taken, canonical, ends.skipFraction, ends.skipExponent,
    decimalValue_toDigits]

theorem readNumber_int (negative : Bool) (magnitude : Nat) {rest : List Char}
    (ends : EndsNumber rest) :
    readNumber ((scalarText (.int negative magnitude)).toList ++ rest) =
      some (.int negative magnitude, rest) := by
  rw [scalarText, String.toList_append, Text.toList_toString]
  cases negative with
  | true => exact readMagnitude_toDigits true magnitude ends
  | false =>
    show readNumber (Nat.toDigits 10 magnitude ++ rest) = _
    have read := readMagnitude_toDigits false magnitude ends
    obtain ⟨first, others, spelled, digit⟩ := Text.exists_toDigits_eq_cons magnitude
    rw [spelled, List.cons_append] at read ⊢
    have unsigned : first ≠ '-' := by
      rintro rfl
      exact absurd digit (by decide)
    rw [readNumber]
    · exact read
    · exact fun _ same => unsigned (List.cons.inj same).1

theorem readNumber_real {rest : List Char} (ends : EndsNumber rest) :
    readNumber ((scalarText .real).toList ++ rest) = some (.real, rest) := by
  have whole : takeDigits ('0' :: '.' :: '0' :: rest) = some (['0'], '.' :: '0' :: rest) := rfl
  have fraction : takeDigits ('0' :: rest) = some (['0'], rest) :=
    @takeDigits_append ['0'] rest (List.cons_ne_nil _ _)
      (fun _ member => List.mem_singleton.mp member ▸ rfl) ends.noDigit
  have shorter : ¬ rest.length = rest.length + 1 + 1 := by omega
  show readMagnitude false ('0' :: '.' :: '0' :: rest) = some (.real, rest)
  simp [readMagnitude, whole, skipFraction, fraction, ends.skipExponent, shorter]

/-! Strings -/

-- What is read starts with a known character or piece, so their equations say what happens next.
attribute [simp] assemble readPieces

theorem hexValue?_lowerHexDigit : ∀ value < 16, hexValue? (lowerHexDigit value) = some value := by
  decide

/-- A code unit that is no half of a surrogate pair is a character of its own. -/
theorem assemble_unit {unit : Nat} (leading : isLeading unit = false)
    (trailing : isTrailing unit = false) (pieces : List StringPiece) :
    assemble (.unit unit :: pieces) = (assemble pieces).map (Char.ofNat unit :: ·) := by
  cases pieces with
  | nil => simp [leading, trailing]
  | cons piece pieces => cases piece <;> simp [leading, trailing]

/-- A piece that stands for a character, whatever follows. -/
def StringPiece.Means (piece : StringPiece) (char : Char) : Prop :=
  ∀ pieces, assemble (piece :: pieces) = (assemble pieces).map (char :: ·)

theorem StringPiece.Means.char (char : Char) : (StringPiece.char char).Means char :=
  fun _ => by rw [assemble]

theorem StringPiece.Means.unit {char : Char} (control : char.toNat < 0x20) :
    (StringPiece.unit char.toNat).Means char := by
  have leading : isLeading char.toNat = false := by simp [isLeading]; omega
  have trailing : isTrailing char.toNat = false := by simp [isTrailing]; omega
  intro pieces
  rw [assemble_unit leading trailing, Char.ofNat_toNat]

/-- One more piece in front of what is read. -/
def withPiece (piece : StringPiece) (read : Option (List StringPiece × List Char)) :
    Option (List StringPiece × List Char) :=
  read.map fun (pieces, rest) => (piece :: pieces, rest)

theorem readPieces_escape {letter char : Char} (named : escaped? letter = some char)
    (rest : List Char) :
    readPieces ('\\' :: letter :: rest) = withPiece (.char char) (readPieces rest) := by
  have noUnit : letter ≠ 'u' := by
    rintro rfl
    cases named
  rw [readPieces]
  · rw [named]
    cases readPieces rest <;> rfl
  · intro a b c d others same
    exact absurd same noUnit

theorem readPieces_plain {char : Char} (noQuote : char ≠ '"') (noEscape : char ≠ '\\')
    (printable : ¬ char.toNat < 0x20) (rest : List Char) :
    readPieces (char :: rest) = withPiece (.char char) (readPieces rest) := by
  rw [readPieces]
  · rw [if_neg (not_or.mpr ⟨noEscape, printable⟩)]
    cases readPieces rest <;> rfl
  · exact fun same => absurd same noQuote
  · exact fun _ _ _ _ _ same => absurd same noEscape
  · exact fun _ _ same => absurd same noEscape

theorem readPieces_unit {value : Nat} (bound : value < 0x20) (rest : List Char) :
    readPieces ('\\' :: 'u' :: '0' :: '0' :: lowerHexDigit (value / 16) ::
        lowerHexDigit (value % 16) :: rest) = withPiece (.unit value) (readPieces rest) := by
  have high := hexValue?_lowerHexDigit (value / 16) (by omega)
  have low := hexValue?_lowerHexDigit (value % 16) (by omega)
  have zero : hexValue? '0' = some 0 := rfl
  have unit : unitValue? '0' '0' (lowerHexDigit (value / 16)) (lowerHexDigit (value % 16)) =
      some value := by
    simp only [unitValue?, high, low, zero, Option.bind_eq_bind, Option.bind_some, pure]
    rw [show (0 * 16 + 0) * 256 + value / 16 * 16 + value % 16 = value from by omega]
  rw [readPieces, unit]
  cases readPieces rest <;> rfl

/-- The reader takes the spelling of a character as one piece that stands for it. -/
theorem readPieces_escapeChar (char : Char) : ∃ piece : StringPiece, piece.Means char ∧
    ∀ rest, readPieces (escapeChar char ++ rest) = withPiece piece (readPieces rest) := by
  unfold escapeChar
  split
  case h_8 noQuote noEscape _ _ _ _ _ =>
    by_cases control : char.toNat < 0x20
    · rw [if_pos control]
      exact ⟨_, .unit control, readPieces_unit control⟩
    · rw [if_neg control]
      exact ⟨_, .char char, readPieces_plain noQuote noEscape control⟩
  all_goals exact ⟨_, .char _, readPieces_escape rfl⟩

theorem readPieces_escaped (chars rest : List Char) : ∃ pieces,
    readPieces (chars.flatMap escapeChar ++ '"' :: rest) = some (pieces, rest) ∧
      assemble pieces = some chars := by
  induction chars with
  | nil => exact ⟨[], by simp, by simp⟩
  | cons char chars ih =>
    obtain ⟨piece, means, read⟩ := readPieces_escapeChar char
    obtain ⟨pieces, others, same⟩ := ih
    refine ⟨piece :: pieces, ?_, ?_⟩
    · rw [List.flatMap_cons, List.append_assoc, read, others]
      rfl
    · rw [means, same]
      rfl

/-- A string in quotes is read back from what follows its opening quote. -/
theorem quoted_eq_cons (text : Option String) : ∃ body, (quoted text).toList = '"' :: body ∧
    ∀ rest, readString (body ++ rest) = some (text, rest) := by
  cases text with
  | none =>
    refine ⟨"\\ud800\"".toList, rfl, fun rest => ?_⟩
    have pieces : readPieces ("\\ud800\"".toList ++ rest) = some ([.unit 0xd800], rest) := by
      show readPieces ('\\' :: 'u' :: 'd' :: '8' :: '0' :: '0' :: '"' :: rest) = _
      rw [readPieces, show unitValue? 'd' '8' '0' '0' = some 0xd800 from rfl]
      simp
    rw [readString, pieces]
    rfl
  | some text =>
    refine ⟨text.toList.flatMap escapeChar ++ ['"'], by simp [quoted], fun rest => ?_⟩
    obtain ⟨pieces, read, same⟩ := readPieces_escaped text.toList rest
    have whole : text.toList.flatMap escapeChar ++ ['"'] ++ rest =
        text.toList.flatMap escapeChar ++ '"' :: rest := by simp
    rw [readString, whole, read]
    simp [same]

end IrAssembly.Json
