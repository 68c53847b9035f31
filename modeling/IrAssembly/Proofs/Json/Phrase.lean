import IrAssembly.Proofs.Json.Scalar

/-! Texts of JSON values with blanks between their parts, and the readers that take them: whatever
is spelled by these rules is read, and what follows it is left. -/

namespace IrAssembly.Json

/-- What one of the readers takes: a value, or the items or members of a container up to its closing
bracket. -/
inductive Phrase where
  | value (json : Json)
  | items (items : List Json)
  | members (members : List (Option String × Json))

/-- A value without parts. -/
def IsScalar : Json → Prop
  | arr _ | obj _ => False
  | _ => True

abbrev Blanks (chars : List Char) : Prop := ∀ char ∈ chars, isBlank char = true

namespace Phrase

/-- The texts of a phrase. No blank stands in front of it. -/
inductive Spelled : Phrase → List Char → Prop where
  | scalar {json : Json} (plain : json.IsScalar) :
      Spelled (.value json) (scalarText json).toList
  | emptyArray {inner : List Char} (blank : Blanks inner) :
      Spelled (.value (.arr [])) ('[' :: (inner ++ [']']))
  | array {items : List Json} {inner text : List Char} (blank : Blanks inner)
      (spelled : Spelled (.items items) text) :
      Spelled (.value (.arr items)) ('[' :: (inner ++ text))
  | emptyObject {inner : List Char} (blank : Blanks inner) :
      Spelled (.value (.obj [])) ('\x7b' :: (inner ++ ['\x7d']))
  | object {members : List (Option String × Json)} {inner text : List Char} (blank : Blanks inner)
      (spelled : Spelled (.members members) text) :
      Spelled (.value (.obj members)) ('\x7b' :: (inner ++ text))
  | lastItem {item : Json} {text after : List Char} (spelled : Spelled (.value item) text)
      (blank : Blanks after) : Spelled (.items [item]) (text ++ (after ++ [']']))
  | item {item : Json} {items : List Json} {text after before others : List Char}
      (spelled : Spelled (.value item) text) (blank : Blanks after) (blanks : Blanks before)
      (more : Spelled (.items items) others) :
      Spelled (.items (item :: items)) (text ++ (after ++ ',' :: (before ++ others)))
  | lastMember {name : Option String} {value : Json} {gap text after : List Char}
      (gapBlank : Blanks gap) (spelled : Spelled (.value value) text) (blank : Blanks after) :
      Spelled (.members [(name, value)])
        ((quoted name).toList ++ ':' :: (gap ++ (text ++ (after ++ ['\x7d']))))
  | member {name : Option String} {value : Json} {members : List (Option String × Json)}
      {gap text after before others : List Char} (gapBlank : Blanks gap)
      (spelled : Spelled (.value value) text) (blank : Blanks after) (blanks : Blanks before)
      (more : Spelled (.members members) others) :
      Spelled (.members ((name, value) :: members))
        ((quoted name).toList ++ ':' :: (gap ++ (text ++ (after ++ ',' :: (before ++ others)))))

/-- The reader of a phrase takes it from a text and leaves the rest. -/
def ReadFrom : Phrase → Nat → List Char → List Char → Prop
  | .value json, fuel, chars, rest => readValue fuel chars = some (json, rest)
  | .items list, fuel, chars, rest => readItems fuel chars = some (list, rest)
  | .members list, fuel, chars, rest => readMembers fuel chars = some (list, rest)

end Phrase

/-! The readers are evaluated by their equations. -/

attribute [simp] readValue readItems readMembers

/-! Blanks -/

theorem skipBlanks_append {blanks : List Char} (blank : Blanks blanks) (chars : List Char) :
    skipBlanks (blanks ++ chars) = skipBlanks chars :=
  List.dropWhile_append_of_pos blank

theorem skipBlanks_cons {char : Char} (noBlank : isBlank char = false) (chars : List Char) :
    skipBlanks (char :: chars) = char :: chars := by
  rw [skipBlanks, List.dropWhile_cons, noBlank]
  rfl

theorem skipBlanks_append_cons {blanks : List Char} (blank : Blanks blanks) {char : Char}
    (noBlank : isBlank char = false) (chars : List Char) :
    skipBlanks (blanks ++ char :: chars) = char :: chars :=
  (skipBlanks_append blank _).trans (skipBlanks_cons noBlank chars)

theorem readValue_append_blanks {blanks : List Char} (blank : Blanks blanks) (fuel : Nat)
    (chars : List Char) : readValue fuel (blanks ++ chars) = readValue fuel chars := by
  cases fuel with
  | zero => rw [readValue, readValue]
  | succ fuel => rw [readValue, readValue, skipBlanks_append blank]

/-- Every reader skips the blanks in front of what it takes. -/
theorem Phrase.readFrom_append_blanks {phrase : Phrase} {blanks chars rest : List Char} {fuel : Nat}
    (blank : Blanks blanks) (read : phrase.ReadFrom fuel chars rest) :
    phrase.ReadFrom fuel (blanks ++ chars) rest := by
  cases phrase with
  | value json => exact (readValue_append_blanks blank fuel chars).trans read
  | items items =>
    refine Eq.trans ?_ read
    cases fuel with
    | zero => rw [readItems, readItems]
    | succ fuel => rw [readItems, readItems, readValue_append_blanks blank]
  | members members =>
    refine Eq.trans ?_ read
    cases fuel with
    | zero => rw [readMembers, readMembers]
    | succ fuel => rw [readMembers, readMembers, skipBlanks_append blank]

/-! Values -/

variable {fuel : Nat} {chars rest : List Char} {char : Char}

theorem readValue_emptyArray (skipped : skipBlanks chars = ']' :: rest) :
    readValue (fuel + 1) ('[' :: chars) = some (.arr [], rest) := by
  rw [readValue, skipBlanks_cons (by decide)]
  simp [skipped]

theorem readValue_array {items : List Json} {after : List Char}
    (skipped : skipBlanks chars = char :: rest) (open' : char ≠ ']')
    (read : readItems fuel (char :: rest) = some (items, after)) :
    readValue (fuel + 1) ('[' :: chars) = some (.arr items, after) := by
  rw [readValue, skipBlanks_cons (by decide)]
  simp only [skipped]
  split
  · rename_i same
    exact absurd (List.cons.inj same).1 open'
  · rw [read]
    rfl

theorem readValue_emptyObject (skipped : skipBlanks chars = '\x7d' :: rest) :
    readValue (fuel + 1) ('\x7b' :: chars) = some (.obj [], rest) := by
  rw [readValue, skipBlanks_cons (by decide)]
  simp [skipped]

theorem readValue_object {members : List (Option String × Json)} {after : List Char}
    (skipped : skipBlanks chars = char :: rest) (open' : char ≠ '\x7d')
    (read : readMembers fuel (char :: rest) = some (members, after)) :
    readValue (fuel + 1) ('\x7b' :: chars) = some (.obj members, after) := by
  rw [readValue, skipBlanks_cons (by decide)]
  simp only [skipped]
  split
  · rename_i same
    exact absurd (List.cons.inj same).1 open'
  · rw [read]
    rfl

theorem isBlank_of_isDigit (digit : char.isDigit = true) : isBlank char = false := by
  rw [Bool.eq_false_iff]
  intro blank
  simp only [isBlank, Bool.or_eq_true, beq_iff_eq] at blank
  rcases blank with ((rfl | rfl) | rfl) | rfl <;> exact absurd digit (by decide)

theorem readValue_number (noBlank : isBlank char = false)
    (first : char.isDigit = true ∨ char = '-') :
    readValue (fuel + 1) (char :: chars) = readNumber (char :: chars) := by
  rw [readValue, skipBlanks_cons noBlank]
  split <;> simp_all

/-- The first character of a number. -/
theorem exists_scalarText_int_eq_cons (negative : Bool) (magnitude : Nat) : ∃ first others,
    (scalarText (.int negative magnitude)).toList = first :: others ∧
      (first.isDigit = true ∨ first = '-') := by
  rw [scalarText, String.toList_append, Text.toList_toString]
  cases negative with
  | true => exact ⟨'-', _, rfl, .inr rfl⟩
  | false =>
    obtain ⟨first, others, spelled, digit⟩ := Text.exists_toDigits_eq_cons magnitude
    exact ⟨first, others, spelled, .inl digit⟩

theorem readValue_scalar {json : Json} (plain : json.IsScalar) (fuel : Nat)
    (ends : EndsNumber rest) :
    readValue (fuel + 1) ((scalarText json).toList ++ rest) = some (json, rest) := by
  cases json with
  | null =>
    show readValue (fuel + 1) ('n' :: 'u' :: 'l' :: 'l' :: rest) = _
    rw [readValue, skipBlanks_cons (by decide)]
    rfl
  | bool value =>
    cases value with
    | true =>
      show readValue (fuel + 1) ('t' :: 'r' :: 'u' :: 'e' :: rest) = _
      rw [readValue, skipBlanks_cons (by decide)]
      rfl
    | false =>
      show readValue (fuel + 1) ('f' :: 'a' :: 'l' :: 's' :: 'e' :: rest) = _
      rw [readValue, skipBlanks_cons (by decide)]
      rfl
  | int negative magnitude =>
    have read := readNumber_int negative magnitude ends
    obtain ⟨first, others, spelled, starts⟩ := exists_scalarText_int_eq_cons negative magnitude
    have noBlank : isBlank first = false := by
      rcases starts with digit | rfl
      · exact isBlank_of_isDigit digit
      · decide
    rw [spelled, List.cons_append] at read ⊢
    rw [readValue_number noBlank starts, read]
  | real =>
    have read := readNumber_real ends
    have noBlank : isBlank '0' = false := by decide
    exact (readValue_number noBlank (.inl (by decide))).trans read
  | str text =>
    obtain ⟨body, spelled, read⟩ := quoted_eq_cons text
    rw [scalarText, spelled, List.cons_append, readValue, skipBlanks_cons (by decide)]
    simp only [read]
    rfl
  | arr items => cases plain
  | obj members => cases plain

/-! Containers -/

theorem readItems_last {item : Json} {middle : List Char}
    (read : readValue fuel chars = some (item, middle))
    (closed : skipBlanks middle = ']' :: rest) :
    readItems (fuel + 1) chars = some ([item], rest) := by
  simp [read, closed]

theorem readItems_cons {item : Json} {items : List Json} {middle others : List Char}
    (read : readValue fuel chars = some (item, middle))
    (comma : skipBlanks middle = ',' :: others)
    (more : readItems fuel others = some (items, rest)) :
    readItems (fuel + 1) chars = some (item :: items, rest) := by
  simp [read, comma, more]

theorem readMembers_last {name : Option String} {value : Json} {middle : List Char}
    (read : readValue fuel chars = some (value, middle))
    (closed : skipBlanks middle = '\x7d' :: rest) :
    readMembers (fuel + 1) ((quoted name).toList ++ ':' :: chars) =
      some ([(name, value)], rest) := by
  obtain ⟨body, spelled, readName⟩ := quoted_eq_cons name
  have colon : skipBlanks (':' :: chars) = ':' :: chars := skipBlanks_cons (by decide) _
  have quote : skipBlanks ('"' :: (body ++ ':' :: chars)) = '"' :: (body ++ ':' :: chars) :=
    skipBlanks_cons (by decide) _
  simp [spelled, quote, readName, colon, read, closed]

theorem readMembers_cons {name : Option String} {value : Json}
    {members : List (Option String × Json)} {middle others : List Char}
    (read : readValue fuel chars = some (value, middle))
    (comma : skipBlanks middle = ',' :: others)
    (more : readMembers fuel others = some (members, rest)) :
    readMembers (fuel + 1) ((quoted name).toList ++ ':' :: chars) =
      some ((name, value) :: members, rest) := by
  obtain ⟨body, spelled, readName⟩ := quoted_eq_cons name
  have colon : skipBlanks (':' :: chars) = ':' :: chars := skipBlanks_cons (by decide) _
  have quote : skipBlanks ('"' :: (body ++ ':' :: chars)) = '"' :: (body ++ ':' :: chars) :=
    skipBlanks_cons (by decide) _
  simp [spelled, quote, readName, colon, read, comma, more]

/-- Blanks end a number, and so does a character behind them that ends it. -/
theorem EndsNumber.append_blanks {blanks : List Char} (blank : Blanks blanks)
    (ends : EndsNumber rest) : EndsNumber (blanks ++ rest) := by
  cases blanks with
  | nil => exact ends
  | cons first others =>
    intro char same
    cases same
    have space := blank first (.head _)
    simp only [isBlank, Bool.or_eq_true, beq_iff_eq] at space
    rcases space with ((rfl | rfl) | rfl) | rfl <;> decide

theorem endsNumber_cons
    (noPart : char.isDigit = false ∧ char ≠ '.' ∧ char ≠ 'e' ∧ char ≠ 'E') :
    EndsNumber (char :: rest) := by
  intro first same
  cases same
  exact noPart

namespace Phrase

/-- How the text of a phrase starts. -/
theorem Spelled.exists_eq_cons {phrase : Phrase} {text : List Char}
    (spelled : phrase.Spelled text) : ∃ first others, text = first :: others ∧
      isBlank first = false ∧ first ≠ ']' ∧ first ≠ '\x7d' := by
  induction spelled with
  | @scalar json plain =>
    cases json with
    | null => exact ⟨'n', _, rfl, by decide⟩
    | bool value => cases value <;> exact ⟨_, _, rfl, by decide⟩
    | int negative magnitude =>
      obtain ⟨first, others, spelled, starts⟩ :=
        exists_scalarText_int_eq_cons negative magnitude
      refine ⟨first, others, spelled, ?_⟩
      rcases starts with digit | rfl
      · refine ⟨isBlank_of_isDigit digit, ?_, ?_⟩ <;> rintro rfl <;>
          exact absurd digit (by decide)
      · decide
    | real => exact ⟨'0', _, rfl, by decide⟩
    | str text =>
      obtain ⟨body, spelled, _⟩ := quoted_eq_cons text
      exact ⟨'"', body, spelled, by decide⟩
    | arr items => cases plain
    | obj members => cases plain
  | emptyArray blank => exact ⟨'[', _, rfl, by decide⟩
  | array blank spelled ih => exact ⟨'[', _, rfl, by decide⟩
  | emptyObject blank => exact ⟨'\x7b', _, rfl, by decide⟩
  | object blank spelled ih => exact ⟨'\x7b', _, rfl, by decide⟩
  | lastItem spelled blank ih =>
    obtain ⟨first, others, rfl, starts⟩ := ih
    exact ⟨first, _, rfl, starts⟩
  | item spelled blank blanks more ih ihMore =>
    obtain ⟨first, others, rfl, starts⟩ := ih
    exact ⟨first, _, rfl, starts⟩
  | @lastMember name _ _ _ _ gapBlank spelled blank ih =>
    obtain ⟨body, same, _⟩ := quoted_eq_cons name
    rw [same]
    exact ⟨'"', _, rfl, by decide⟩
  | @member name _ _ _ _ _ _ _ gapBlank spelled blank blanks more ih ihMore =>
    obtain ⟨body, same, _⟩ := quoted_eq_cons name
    rw [same]
    exact ⟨'"', _, rfl, by decide⟩

/-- Every reader takes a character of its own, so it needs some fuel. -/
theorem Spelled.exists_fuel {phrase : Phrase} {text : List Char} (spelled : phrase.Spelled text)
    {fuel : Nat} (enough : text.length ≤ fuel) : ∃ less, fuel = less + 1 := by
  obtain ⟨first, others, rfl, _⟩ := spelled.exists_eq_cons
  rw [List.length_cons] at enough
  exact ⟨fuel - 1, by omega⟩

/-- A phrase is read from its text with as much fuel as the text is long. -/
theorem Spelled.readFrom {phrase : Phrase} {text : List Char} (spelled : phrase.Spelled text)
    (fuel : Nat) (rest : List Char) (enough : text.length ≤ fuel + 1) (ends : EndsNumber rest) :
    phrase.ReadFrom (fuel + 1) (text ++ rest) rest := by
  have comma (others : List Char) : EndsNumber (',' :: others) :=
    endsNumber_cons (by decide)
  have bracket (others : List Char) : EndsNumber (']' :: others) :=
    endsNumber_cons (by decide)
  have brace (others : List Char) : EndsNumber ('\x7d' :: others) :=
    endsNumber_cons (by decide)
  induction spelled generalizing fuel rest with
  | scalar plain => exact readValue_scalar plain fuel ends
  | emptyArray blank =>
    refine readValue_emptyArray ?_
    simpa using skipBlanks_append_cons blank (by decide) rest
  | array blank spelled ih =>
    rw [List.length_cons, List.length_append] at enough
    obtain ⟨fuel, rfl⟩ := spelled.exists_fuel (show _ ≤ fuel by omega)
    have read := ih fuel rest (by omega) ends
    obtain ⟨first, others, rfl, noBlank, noClose, _⟩ := spelled.exists_eq_cons
    simp only [List.cons_append, List.append_assoc] at read ⊢
    exact readValue_array (skipBlanks_append_cons blank noBlank _) noClose read
  | emptyObject blank =>
    refine readValue_emptyObject ?_
    simpa using skipBlanks_append_cons blank (by decide) rest
  | object blank spelled ih =>
    rw [List.length_cons, List.length_append] at enough
    obtain ⟨fuel, rfl⟩ := spelled.exists_fuel (show _ ≤ fuel by omega)
    have read := ih fuel rest (by omega) ends
    obtain ⟨first, others, rfl, noBlank, _, noClose⟩ := spelled.exists_eq_cons
    simp only [List.cons_append, List.append_assoc] at read ⊢
    exact readValue_object (skipBlanks_append_cons blank noBlank _) noClose read
  | lastItem spelled blank ih =>
    simp only [List.length_append, List.length_singleton] at enough
    obtain ⟨fuel, rfl⟩ := spelled.exists_fuel (show _ ≤ fuel by omega)
    have read := ih fuel _ (by omega) ((bracket rest).append_blanks blank)
    simp only [List.append_assoc, List.singleton_append] at read ⊢
    exact readItems_last read (skipBlanks_append_cons blank (by decide) _)
  | @item _ _ _ _ before others spelled blank blanks more ih ihMore =>
    simp only [List.length_append, List.length_cons] at enough
    obtain ⟨fuel, rfl⟩ := spelled.exists_fuel (show _ ≤ fuel by omega)
    have read := ih fuel _ (by omega) ((comma (before ++ (others ++ rest))).append_blanks blank)
    have readMore := readFrom_append_blanks blanks (ihMore fuel _ (by omega) ends)
    simp only [List.append_assoc, List.cons_append] at read ⊢
    exact readItems_cons read (skipBlanks_append_cons blank (by decide) _) readMore
  | lastMember gapBlank spelled blank ih =>
    simp only [List.length_append, List.length_cons] at enough
    obtain ⟨fuel, rfl⟩ := spelled.exists_fuel (show _ ≤ fuel by omega)
    have read := readFrom_append_blanks gapBlank
      (ih fuel _ (by omega) ((brace rest).append_blanks blank))
    simp only [List.append_assoc, List.cons_append] at read ⊢
    exact readMembers_last read (skipBlanks_append_cons blank (by decide) _)
  | @member _ _ _ _ _ _ before others gapBlank spelled blank blanks more ih ihMore =>
    simp only [List.length_append, List.length_cons] at enough
    obtain ⟨fuel, rfl⟩ := spelled.exists_fuel (show _ ≤ fuel by omega)
    have read := readFrom_append_blanks gapBlank
      (ih fuel _ (by omega) ((comma (before ++ (others ++ rest))).append_blanks blank))
    have readMore := readFrom_append_blanks blanks (ihMore fuel _ (by omega) ends)
    simp only [List.append_assoc, List.cons_append] at read ⊢
    exact readMembers_cons read (skipBlanks_append_cons blank (by decide) _) readMore

end Phrase

end IrAssembly.Json
