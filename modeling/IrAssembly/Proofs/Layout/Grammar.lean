import IrAssembly.Layout.Spec
import IrAssembly.Proofs.Success

/-! The grammar of layout tokens: what the fields of a token spell. Reading a token succeeds just
for the tokens that spell a setting, and gives this setting. -/

namespace IrAssembly

theorem pieces_eq_splitOn (separator : Char) (text : List Char) :
    pieces separator text = text.splitOn separator := by
  simp only [List.splitOn_eq_splitOnP]
  induction text with
  | nil => rfl
  | cons char rest ih =>
    obtain ⟨piece, others, split⟩ :=
      List.exists_cons_of_ne_nil (List.splitOnP_ne_nil (· == separator) rest)
    rw [pieces, ih, List.splitOnP_cons_eq_if_modifyHead, split]
    simp

/-! Numbers -/

/-- The number is spelled by decimal digits, one at least. -/
structure SpellsNumber (digits : List Char) (number : Nat) : Prop where
  nonempty : digits ≠ []
  decimal : ∀ char ∈ digits, char.isDigit = true
  value : Nat.ofDigitChars 10 digits 0 = number

/-- A bit count is a number, after an optional plus sign. -/
def SpellsCount (field : List Char) (count : UInt32) : Prop :=
  ∃ digits, (field = digits ∨ field = '+' :: digits) ∧ SpellsNumber digits count.toNat

theorem SpellsCount.nonempty {field : List Char} {count : UInt32}
    (spelled : SpellsCount field count) : field ≠ [] := by
  obtain ⟨digits, rfl | rfl, number⟩ := spelled
  · exact number.nonempty
  · exact List.cons_ne_nil _ _

theorem digitsValue?_eq_some_iff {digits : List Char} {value number : Nat} :
    digitsValue? digits value = some number ↔
      (∀ char ∈ digits, char.isDigit = true) ∧ Nat.ofDigitChars 10 digits value = number := by
  induction digits generalizing value with
  | nil => simp [digitsValue?, Nat.ofDigitChars]
  | cons char digits ih =>
    rw [digitsValue?, List.forall_mem_cons, and_assoc]
    split
    · rename_i decimal
      exact ih.trans (by simp [decimal, Nat.ofDigitChars])
    · rename_i other
      simp [other]

theorem bitCount?_plus_eq_some_iff {digits : List Char} {count : UInt32} :
    bitCount? ('+' :: digits) = some count ↔ SpellsNumber digits count.toNat := by
  simp only [bitCount?, List.head?_cons, if_true, List.tail_cons]
  constructor
  · intro read
    split at read
    · cases read
    · rename_i some
      split at read
      · rename_i value found
        obtain ⟨decimal, spelled⟩ := digitsValue?_eq_some_iff.mp found
        split at read
        · rename_i bound
          cases read
          refine ⟨by simpa using some, decimal, ?_⟩
          rw [UInt32.toNat_ofNat_of_lt' bound, spelled]
        · cases read
      · cases read
  · rintro ⟨nonempty, decimal, value⟩
    rw [digitsValue?_eq_some_iff.mpr ⟨decimal, value⟩, if_neg (by simpa using nonempty)]
    simp [count.toNat_lt]

theorem bitCount?_eq_some_iff {field : List Char} {count : UInt32} :
    bitCount? field = some count ↔ SpellsCount field count := by
  by_cases plus : field.head? = some '+'
  · obtain ⟨rest, rfl⟩ := List.head?_eq_some_iff.mp plus
    rw [bitCount?_plus_eq_some_iff]
    constructor
    · exact fun spelled => ⟨rest, .inr rfl, spelled⟩
    · rintro ⟨digits, rfl | same, spelled⟩
      · exact absurd (spelled.decimal '+' (.head _)) (by decide)
      · cases same
        exact spelled
  · have bare : bitCount? field = bitCount? ('+' :: field) := by
      rw [bitCount?, if_neg plus]
      rfl
    rw [bare, bitCount?_plus_eq_some_iff]
    constructor
    · exact fun spelled => ⟨field, .inl rfl, spelled⟩
    · rintro ⟨digits, rfl | rfl, spelled⟩
      · exact spelled
      · exact absurd rfl plus

namespace LayoutItem

/-- The fields behind the first ones of a token give the required alignment and the preferred one,
which is the required one if it is not given. -/
inductive SpellsAligns : List (List Char) → UInt32 → UInt32 → Prop where
  | required {field : List Char} {abi : UInt32} (spelled : SpellsCount field abi) :
      SpellsAligns [field] abi abi
  | both {first second : List Char} {abi preferred : UInt32} (spelled : SpellsCount first abi)
      (further : SpellsCount second preferred) : SpellsAligns [first, second] abi preferred

end LayoutItem

/-- The letter of a kind of types. -/
def AlignedKind.letter : AlignedKind → Char
  | integer => 'i'
  | float => 'f'
  | vector => 'v'

namespace LayoutItem

/-- What the fields of a token spell. Letters alone tell the alignments of aggregates and of stack
objects: what stands behind the letter has no meaning. -/
inductive Spelled : List (List Char) → LayoutItem → Prop where
  | little : Spelled [['e']] (.endianness .little)
  | big : Spelled [['E']] (.endianness .big)
  | pointer {size : List Char} {fields : List (List Char)} {bits abi preferred : UInt32}
      (sized : SpellsCount size bits) (aligned : SpellsAligns fields abi preferred) :
      Spelled (['p'] :: size :: fields) (.pointer 0 bits abi)
  | pointerIn {number size : List Char} {fields : List (List Char)}
      {addressSpace bits abi preferred : UInt32} (space : SpellsCount number addressSpace)
      (sized : SpellsCount size bits) (aligned : SpellsAligns fields abi preferred) :
      Spelled (('p' :: number) :: size :: fields) (.pointer addressSpace bits abi)
  | alignment {number : List Char} {fields : List (List Char)} {bits abi preferred : UInt32}
      (kind : AlignedKind) (width : SpellsCount number bits)
      (aligned : SpellsAligns fields abi preferred) :
      Spelled ((kind.letter :: number) :: fields) (.alignment kind ⟨bits, abi, preferred⟩)
  | aggregate {ignored : List Char} {fields : List (List Char)} {abi preferred : UInt32}
      (aligned : SpellsAligns fields abi preferred) :
      Spelled (('a' :: ignored) :: fields) (.aggregate abi)
  | stackObject {ignored : List Char} {fields : List (List Char)} {abi preferred : UInt32}
      (aligned : SpellsAligns fields abi preferred) :
      Spelled (('s' :: ignored) :: fields) (.stackObject abi)
  | nativeIntegers {number : List Char} {fields : List (List Char)} {widths : List UInt32}
      (listed : List.Forall₂ SpellsCount (number :: fields) widths) :
      Spelled (('n' :: number) :: fields) (.nativeIntegers widths)
  | stack {number : List Char} {bits : UInt32} (aligned : SpellsCount number bits) :
      Spelled ['S' :: number] (.stack bits)
  | mangling (style : List Char) : Spelled [['m'], style] (.mangling (String.ofList style))

/-- A token spells an item, its fields being separated by colons. -/
def SpelledBy (item : LayoutItem) (token : List Char) : Prop := Spelled (token.splitOn ':') item

theorem bitCount_eq_ok_iff {field : List Char} {count : UInt32} :
    bitCount field = .ok count ↔ SpellsCount field count := by
  rw [← bitCount?_eq_some_iff, bitCount]
  split <;> simp_all

theorem alignments_eq_ok_iff {fields : List (List Char)} {abi preferred : UInt32} :
    alignments fields = .ok (abi, preferred) ↔ SpellsAligns fields abi preferred := by
  constructor
  · intro read
    unfold alignments at read
    split at read
    · rename_i field
      obtain ⟨count, spelled, same⟩ := bind_eq_ok_iff.mp read
      cases same
      exact .required (bitCount_eq_ok_iff.mp spelled)
    · rename_i first second
      obtain ⟨count, spelled, rest⟩ := bind_eq_ok_iff.mp read
      obtain ⟨further, next, same⟩ := bind_eq_ok_iff.mp rest
      cases same
      exact .both (bitCount_eq_ok_iff.mp spelled) (bitCount_eq_ok_iff.mp next)
    · cases read
  · intro spelled
    cases spelled with
    | required spelled => rw [alignments, bitCount_eq_ok_iff.mpr spelled]; rfl
    | both spelled further =>
      rw [alignments, bitCount_eq_ok_iff.mpr spelled, bitCount_eq_ok_iff.mpr further]
      rfl

theorem mapM_bitCount_eq_ok_iff {fields : List (List Char)} {widths : List UInt32} :
    fields.mapM bitCount = .ok widths ↔ List.Forall₂ SpellsCount fields widths := by
  simp only [mapM_eq_ok_iff, bitCount_eq_ok_iff]

theorem alignedEntry_eq_ok_iff {kind : AlignedKind} {number : List Char}
    {fields : List (List Char)} {item : LayoutItem} :
    alignedEntry kind number fields = .ok item ↔ ∃ bits abi preferred,
      SpellsCount number bits ∧ SpellsAligns fields abi preferred ∧
        item = .alignment kind ⟨bits, abi, preferred⟩ := by
  constructor
  · intro read
    obtain ⟨bits, width, rest⟩ := bind_eq_ok_iff.mp read
    obtain ⟨⟨abi, preferred⟩, aligned, same⟩ := bind_eq_ok_iff.mp rest
    cases same
    exact ⟨bits, abi, preferred, bitCount_eq_ok_iff.mp width, alignments_eq_ok_iff.mp aligned, rfl⟩
  · rintro ⟨bits, abi, preferred, width, aligned, rfl⟩
    rw [alignedEntry, bitCount_eq_ok_iff.mpr width, alignments_eq_ok_iff.mpr aligned]
    rfl

/-- The address space apart, all pointers are read alike. -/
theorem pointerEntry_cons (space size : List Char) (fields : List (List Char)) :
    pointerEntry space (size :: fields) =
      (if space.isEmpty then pure 0 else bitCount space) >>= fun addressSpace => do
        let bits ← bitCount size
        let (abi, _) ← alignments fields
        return .pointer addressSpace bits abi := by
  cases space <;> rfl

theorem spelled_of_pointerEntry {space : List Char} {fields : List (List Char)}
    {item : LayoutItem} (read : pointerEntry space fields = .ok item) :
    Spelled (('p' :: space) :: fields) item := by
  cases fields with
  | nil =>
    cases space with
    | nil => cases read
    | cons char number =>
      obtain ⟨_, _, refused⟩ : ∃ addressSpace, bitCount (char :: number) = .ok addressSpace ∧
          (throw .expectedPointer : Except LayoutFault LayoutItem) = .ok item :=
        bind_eq_ok_iff.mp read
      cases refused
  | cons size fields =>
    rw [pointerEntry_cons] at read
    obtain ⟨addressSpace, named, rest⟩ := bind_eq_ok_iff.mp read
    obtain ⟨bits, sized, rest⟩ := bind_eq_ok_iff.mp rest
    obtain ⟨⟨abi, preferred⟩, aligned, same⟩ := bind_eq_ok_iff.mp rest
    cases same
    have sized := bitCount_eq_ok_iff.mp sized
    have aligned := alignments_eq_ok_iff.mp aligned
    cases space with
    | nil =>
      cases named
      exact .pointer sized aligned
    | cons char number => exact .pointerIn (bitCount_eq_ok_iff.mp named) sized aligned

theorem ofFields_eq_ok_iff {kind : Char} {size : List Char} {fields : List (List Char)}
    {item : LayoutItem} :
    ofFields kind size fields = .ok item ↔ Spelled ((kind :: size) :: fields) item := by
  constructor
  · intro read
    unfold ofFields at read
    split at read
    case h_1 | h_2 =>
      split at read
      · rename_i alone
        simp only [Bool.and_eq_true, List.isEmpty_iff] at alone
        obtain ⟨rfl, rfl⟩ := alone
        cases read
        first | exact .little | exact .big
      · cases read
    case h_3 => exact spelled_of_pointerEntry read
    case h_4 =>
      obtain ⟨bits, abi, preferred, width, aligned, rfl⟩ := alignedEntry_eq_ok_iff.mp read
      exact .alignment .integer width aligned
    case h_5 =>
      obtain ⟨bits, abi, preferred, width, aligned, rfl⟩ := alignedEntry_eq_ok_iff.mp read
      exact .alignment .float width aligned
    case h_6 =>
      obtain ⟨bits, abi, preferred, width, aligned, rfl⟩ := alignedEntry_eq_ok_iff.mp read
      exact .alignment .vector width aligned
    case h_7 =>
      obtain ⟨⟨abi, preferred⟩, aligned, same⟩ := bind_eq_ok_iff.mp read
      cases same
      exact .aggregate (alignments_eq_ok_iff.mp aligned)
    case h_8 =>
      obtain ⟨⟨abi, preferred⟩, aligned, same⟩ := bind_eq_ok_iff.mp read
      cases same
      exact .stackObject (alignments_eq_ok_iff.mp aligned)
    case h_9 =>
      obtain ⟨widths, listed, same⟩ := bind_eq_ok_iff.mp read
      cases same
      exact .nativeIntegers (mapM_bitCount_eq_ok_iff.mp listed)
    case h_10 =>
      split at read
      · rename_i alone
        obtain rfl := List.isEmpty_iff.mp alone
        obtain ⟨bits, aligned, same⟩ := bind_eq_ok_iff.mp read
        cases same
        exact .stack (bitCount_eq_ok_iff.mp aligned)
      · cases read
    case h_11 =>
      split at read
      · cases read
        exact .mangling _
      · cases read
    case h_12 => cases read
  · intro spelled
    cases spelled with
    | little | big | mangling => rfl
    | pointer sized aligned =>
      rw [ofFields, pointerEntry_cons, bitCount_eq_ok_iff.mpr sized,
        alignments_eq_ok_iff.mpr aligned]
      rfl
    | pointerIn space sized aligned =>
      rw [ofFields, pointerEntry_cons, if_neg (by simpa using space.nonempty),
        bitCount_eq_ok_iff.mpr space, bitCount_eq_ok_iff.mpr sized,
        alignments_eq_ok_iff.mpr aligned]
      rfl
    | alignment kind width aligned =>
      cases kind <;> exact alignedEntry_eq_ok_iff.mpr ⟨_, _, _, width, aligned, rfl⟩
    | aggregate aligned | stackObject aligned =>
      rw [ofFields, alignments_eq_ok_iff.mpr aligned]
      rfl
    | nativeIntegers listed =>
      rw [ofFields, mapM_bitCount_eq_ok_iff.mpr listed]
      rfl
    | stack aligned =>
      rw [ofFields, bitCount_eq_ok_iff.mpr aligned]
      rfl

/-- The first field of whatever spells a setting begins with a letter. -/
theorem Spelled.exists_cons {fields : List (List Char)} {item : LayoutItem}
    (spelled : Spelled fields item) : ∃ kind size others, fields = (kind :: size) :: others := by
  cases spelled <;> exact ⟨_, _, _, rfl⟩

theorem ofToken_eq_ok_iff {token : List Char} {item : LayoutItem} :
    ofToken token = .ok item ↔ item.SpelledBy token := by
  unfold ofToken SpelledBy
  rw [← pieces_eq_splitOn]
  split
  · rename_i kind size fields split
    rw [split, ← ofFields_eq_ok_iff]
    cases ofFields kind size fields <;> simp [Except.mapError]
  · rename_i nothing
    constructor
    · exact fun read => nomatch read
    · intro spelled
      obtain ⟨kind, size, others, cons⟩ := spelled.exists_cons
      exact absurd cons (nothing kind size others)

end LayoutItem

end IrAssembly
