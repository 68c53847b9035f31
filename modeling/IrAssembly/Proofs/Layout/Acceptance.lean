import IrAssembly.Proofs.Layout.Settings

/-! Which layout strings are read. The tokens that are accepted follow the documented grammar but
for two liberties: a number may bear a plus sign, and anything may stand behind the letters of
aggregates and of stack objects. The first token that does not follow it is reported. -/

namespace IrAssembly

/-- A number as it is documented: decimal digits, one at least, of a value below `2 ^ 32`. -/
def IsNumber (field : List Char) : Prop := ∃ number < 2 ^ 32, SpellsNumber field number

/-- A number as it is accepted. -/
def IsCount (field : List Char) : Prop := ∃ count, SpellsCount field count

theorem isCount_iff {field : List Char} :
    IsCount field ↔ ∃ digits, (field = digits ∨ field = '+' :: digits) ∧ IsNumber digits := by
  constructor
  · rintro ⟨count, digits, written, spelled⟩
    exact ⟨digits, written, count.toNat, count.toNat_lt, spelled⟩
  · rintro ⟨digits, written, number, bound, spelled⟩
    refine ⟨.ofNat number, digits, written, ?_⟩
    rwa [UInt32.toNat_ofNat_of_lt' bound]

theorem IsNumber.isCount {field : List Char} (number : IsNumber field) : IsCount field :=
  isCount_iff.mpr ⟨field, .inl rfl, number⟩

theorem IsNumber.plus_notMem {field : List Char} (number : IsNumber field) : '+' ∉ field := by
  obtain ⟨_, _, spelled⟩ := number
  exact fun member => absurd (spelled.decimal '+' member) (by decide)

theorem IsCount.isNumber {field : List Char} (counts : IsCount field) (unsigned : '+' ∉ field) :
    IsNumber field := by
  obtain ⟨digits, rfl | rfl, number⟩ := isCount_iff.mp counts
  · exact number
  · exact absurd (List.mem_cons_self ..) unsigned

/-- What stands behind the letter of aggregates and of stack objects, as it is documented. -/
def IsLabel (text : List Char) : Prop := text = [] ∨ IsNumber text

namespace LayoutItem

/-- The fields of alignments, `abi` or `abi:pref`. -/
inductive AlignFields (Number : List Char → Prop) : List (List Char) → Prop where
  | required {abi : List Char} (spelled : Number abi) : AlignFields Number [abi]
  | both {abi preferred : List Char} (spelled : Number abi) (further : Number preferred) :
      AlignFields Number [abi, preferred]

/-- The grammar of the fields of a token: `e`, `E`, `p[n]:size:abi[:pref]`, `i<N>:abi[:pref]` and
the same for `f` and `v`, `a[N]:abi[:pref]` and the same for `s`, `n<w>:<w>…`, `S<align>` and
`m:<mangling>`. What a number is and what may stand behind `a` and `s` is left open. -/
inductive Follows (Number Label : List Char → Prop) : List (List Char) → Prop where
  | little : Follows Number Label [['e']]
  | big : Follows Number Label [['E']]
  | pointer {size : List Char} {fields : List (List Char)} (sized : Number size)
      (aligned : AlignFields Number fields) : Follows Number Label (['p'] :: size :: fields)
  | pointerIn {number size : List Char} {fields : List (List Char)} (space : Number number)
      (sized : Number size) (aligned : AlignFields Number fields) :
      Follows Number Label (('p' :: number) :: size :: fields)
  | alignment {number : List Char} {fields : List (List Char)} (kind : AlignedKind)
      (width : Number number) (aligned : AlignFields Number fields) :
      Follows Number Label ((kind.letter :: number) :: fields)
  | aggregate {label : List Char} {fields : List (List Char)} (labelled : Label label)
      (aligned : AlignFields Number fields) : Follows Number Label (('a' :: label) :: fields)
  | stackObject {label : List Char} {fields : List (List Char)} (labelled : Label label)
      (aligned : AlignFields Number fields) : Follows Number Label (('s' :: label) :: fields)
  | nativeIntegers {number : List Char} {fields : List (List Char)}
      (listed : ∀ width ∈ number :: fields, Number width) :
      Follows Number Label (('n' :: number) :: fields)
  | stack {number : List Char} (aligned : Number number) : Follows Number Label [('S' :: number)]
  | mangling (style : List Char) : Follows Number Label [['m'], style]

/-- A token follows the documented grammar. -/
def Documented (token : List Char) : Prop := Follows IsNumber IsLabel (token.splitOn ':')

/-- A token follows the grammar as it is read. -/
def Tolerated (token : List Char) : Prop := Follows IsCount (fun _ => True) (token.splitOn ':')

/-- The parts of a token that may be numbers: what stands behind the letter, and the other fields.
A mangling has none. -/
def parts : List (List Char) → List (List Char)
  | ['m'] :: _ => []
  | (_ :: text) :: fields => text :: fields
  | fields => fields

/-- What stands behind the letter of aggregates or of stack objects. -/
def Labels (fields : List (List Char)) (text : List Char) : Prop :=
  fields.head? = some ('a' :: text) ∨ fields.head? = some ('s' :: text)

/-- Fields that take none of the liberties: there is no plus sign but in manglings, and behind the
letter of aggregates and of stack objects stands a number, if anything. -/
structure Strict (fields : List (List Char)) : Prop where
  unsigned : ∀ part ∈ parts fields, '+' ∉ part
  labelled : ∀ text, Labels fields text → IsLabel text

variable {Number Other Label Further : List Char → Prop} {fields : List (List Char)}

theorem AlignFields.mono (weaker : ∀ field ∈ fields, Number field → Other field)
    (aligned : AlignFields Number fields) : AlignFields Other fields := by
  cases aligned with
  | required spelled => exact .required (weaker _ (by simp) spelled)
  | both spelled further => exact .both (weaker _ (by simp) spelled) (weaker _ (by simp) further)

theorem AlignFields.forall (aligned : AlignFields Number fields) :
    ∀ field ∈ fields, Number field := by
  cases aligned with
  | required spelled => simpa using spelled
  | both spelled further => simpa using ⟨spelled, further⟩

theorem alignFields_iff :
    AlignFields IsCount fields ↔ ∃ abi preferred, SpellsAligns fields abi preferred := by
  constructor
  · rintro (⟨abi, spelled⟩ | ⟨⟨abi, spelled⟩, preferred, further⟩)
    · exact ⟨abi, abi, .required spelled⟩
    · exact ⟨abi, preferred, .both spelled further⟩
  · rintro ⟨abi, preferred, spelled | ⟨spelled, further⟩⟩
    · exact .required ⟨_, spelled⟩
    · exact .both ⟨_, spelled⟩ ⟨_, further⟩

theorem letter_ne (kind : AlignedKind) :
    kind.letter ≠ 'm' ∧ kind.letter ≠ 'a' ∧ kind.letter ≠ 's' := by
  cases kind <;> decide

theorem parts_cons {letter : Char} (other : letter ≠ 'm') (text : List Char)
    (fields : List (List Char)) : parts ((letter :: text) :: fields) = text :: fields := by
  simp [parts, other]

/-- What the grammar asks of numbers and labels is asked of the parts of the token alone. -/
theorem Follows.mono (numbers : ∀ part ∈ parts fields, Number part → Other part)
    (labels : ∀ text, Labels fields text → Label text → Further text)
    (follows : Follows Number Label fields) : Follows Other Further fields := by
  cases follows with
  | little => exact .little
  | big => exact .big
  | pointer sized aligned =>
    rw [parts_cons (by decide), List.forall_mem_cons, List.forall_mem_cons] at numbers
    exact .pointer (numbers.2.1 sized) (aligned.mono numbers.2.2)
  | pointerIn space sized aligned =>
    rw [parts_cons (by decide), List.forall_mem_cons, List.forall_mem_cons] at numbers
    exact .pointerIn (numbers.1 space) (numbers.2.1 sized) (aligned.mono numbers.2.2)
  | alignment kind width aligned =>
    rw [parts_cons (letter_ne kind).1, List.forall_mem_cons] at numbers
    exact .alignment kind (numbers.1 width) (aligned.mono numbers.2)
  | aggregate labelled aligned =>
    rw [parts_cons (by decide), List.forall_mem_cons] at numbers
    exact .aggregate (labels _ (.inl rfl) labelled) (aligned.mono numbers.2)
  | stackObject labelled aligned =>
    rw [parts_cons (by decide), List.forall_mem_cons] at numbers
    exact .stackObject (labels _ (.inr rfl) labelled) (aligned.mono numbers.2)
  | nativeIntegers listed =>
    rw [parts_cons (by decide)] at numbers
    exact .nativeIntegers fun width member => numbers width member (listed width member)
  | stack aligned =>
    rw [parts_cons (by decide), List.forall_mem_cons] at numbers
    exact .stack (numbers.1 aligned)
  | mangling style => exact .mangling style

/-- Every part of a token is blank, a number or a label. -/
theorem Follows.forall_parts (blank : Other []) (numbers : ∀ text, Number text → Other text)
    (labels : ∀ text, Label text → Other text) (follows : Follows Number Label fields) :
    ∀ part ∈ parts fields, Other part := by
  cases follows with
  | little | big => simpa [parts] using blank
  | mangling => simp [parts]
  | pointer sized aligned =>
    rw [parts_cons (by decide), List.forall_mem_cons, List.forall_mem_cons]
    exact ⟨blank, numbers _ sized, fun field member => numbers field (aligned.forall field member)⟩
  | pointerIn space sized aligned =>
    rw [parts_cons (by decide), List.forall_mem_cons, List.forall_mem_cons]
    exact ⟨numbers _ space, numbers _ sized,
      fun field member => numbers field (aligned.forall field member)⟩
  | alignment kind width aligned =>
    rw [parts_cons (letter_ne kind).1, List.forall_mem_cons]
    exact ⟨numbers _ width, fun field member => numbers field (aligned.forall field member)⟩
  | aggregate labelled aligned | stackObject labelled aligned =>
    rw [parts_cons (by decide), List.forall_mem_cons]
    exact ⟨labels _ labelled, fun field member => numbers field (aligned.forall field member)⟩
  | nativeIntegers listed =>
    rw [parts_cons (by decide)]
    exact fun part member => numbers part (listed part member)
  | stack aligned =>
    simpa [parts_cons] using numbers _ aligned

theorem Follows.label (follows : Follows Number Label fields) {text : List Char}
    (labels : Labels fields text) : Label text := by
  cases follows with
  | aggregate labelled | stackObject labelled =>
    obtain rfl : _ = text := by simpa [Labels] using labels
    exact labelled
  | alignment kind => simp [Labels, letter_ne kind] at labels
  | _ => simp [Labels] at labels

/-- The documented grammar is what is left of the accepted one without the liberties. -/
theorem documented_iff {token : List Char} :
    Documented token ↔ Tolerated token ∧ Strict (token.splitOn ':') := by
  constructor
  · intro documented
    refine ⟨documented.mono (fun _ _ => IsNumber.isCount) fun _ _ _ => trivial, ?_, ?_⟩
    · refine documented.forall_parts List.not_mem_nil (fun _ => IsNumber.plus_notMem) ?_
      rintro text (rfl | number)
      · exact List.not_mem_nil
      · exact number.plus_notMem
    · exact fun text labels => documented.label labels
  · rintro ⟨tolerated, strict⟩
    refine tolerated.mono (fun part member count => ?_) fun text labels _ => ?_
    · exact count.isNumber (strict.unsigned part member)
    · exact strict.labelled text labels

theorem exists_counts_iff :
    (∃ widths, List.Forall₂ SpellsCount fields widths) ↔ ∀ field ∈ fields, IsCount field := by
  induction fields with
  | nil => simp
  | cons field fields ih =>
    rw [List.forall_mem_cons, ← ih]
    constructor
    · rintro ⟨_, _ | ⟨spelled, listed⟩⟩
      exact ⟨⟨_, spelled⟩, _, listed⟩
    · rintro ⟨⟨width, spelled⟩, widths, listed⟩
      exact ⟨width :: widths, .cons spelled listed⟩

/-- The fields that spell a setting are those that follow the grammar as it is read. -/
theorem exists_spelled_iff :
    (∃ item, Spelled fields item) ↔ Follows IsCount (fun _ => True) fields := by
  constructor
  · rintro ⟨item, spelled⟩
    cases spelled with
    | little => exact .little
    | big => exact .big
    | pointer sized aligned => exact .pointer ⟨_, sized⟩ (alignFields_iff.mpr ⟨_, _, aligned⟩)
    | pointerIn space sized aligned =>
      exact .pointerIn ⟨_, space⟩ ⟨_, sized⟩ (alignFields_iff.mpr ⟨_, _, aligned⟩)
    | alignment kind width aligned =>
      exact .alignment kind ⟨_, width⟩ (alignFields_iff.mpr ⟨_, _, aligned⟩)
    | aggregate aligned => exact .aggregate trivial (alignFields_iff.mpr ⟨_, _, aligned⟩)
    | stackObject aligned => exact .stackObject trivial (alignFields_iff.mpr ⟨_, _, aligned⟩)
    | nativeIntegers listed => exact .nativeIntegers (exists_counts_iff.mp ⟨_, listed⟩)
    | stack aligned => exact .stack ⟨_, aligned⟩
    | mangling style => exact .mangling style
  · intro follows
    cases follows with
    | little => exact ⟨_, .little⟩
    | big => exact ⟨_, .big⟩
    | pointer sized aligned =>
      obtain ⟨_, sized⟩ := sized
      obtain ⟨_, _, aligned⟩ := alignFields_iff.mp aligned
      exact ⟨_, .pointer sized aligned⟩
    | pointerIn space sized aligned =>
      obtain ⟨_, space⟩ := space
      obtain ⟨_, sized⟩ := sized
      obtain ⟨_, _, aligned⟩ := alignFields_iff.mp aligned
      exact ⟨_, .pointerIn space sized aligned⟩
    | alignment kind width aligned =>
      obtain ⟨_, width⟩ := width
      obtain ⟨_, _, aligned⟩ := alignFields_iff.mp aligned
      exact ⟨_, .alignment kind width aligned⟩
    | aggregate _ aligned =>
      obtain ⟨_, _, aligned⟩ := alignFields_iff.mp aligned
      exact ⟨_, .aggregate aligned⟩
    | stackObject _ aligned =>
      obtain ⟨_, _, aligned⟩ := alignFields_iff.mp aligned
      exact ⟨_, .stackObject aligned⟩
    | nativeIntegers listed =>
      obtain ⟨_, listed⟩ := exists_counts_iff.mpr listed
      exact ⟨_, .nativeIntegers listed⟩
    | stack aligned =>
      obtain ⟨_, aligned⟩ := aligned
      exact ⟨_, .stack aligned⟩
    | mangling style => exact ⟨_, .mangling style⟩

theorem tolerated_iff {token : List Char} :
    Tolerated token ↔ ∃ item : LayoutItem, item.SpelledBy token :=
  exists_spelled_iff.symm

/-- A refusal names the token. -/
theorem token_of_ofToken_eq_error {token : List Char} {error : LayoutError}
    (refused : ofToken token = .error error) : error.token = String.ofList token := by
  unfold ofToken at refused
  extract_lets item at refused
  cases outcome : item with
  | ok => exact nomatch outcome ▸ refused
  | error fault =>
    rw [outcome] at refused
    cases refused
    rfl

end LayoutItem

namespace DataLayout

open LayoutItem

variable {spec : String}

theorem exists_parse_iff :
    (∃ layout, parse spec = .ok layout) ↔ ∀ token ∈ tokens spec, Tolerated token := by
  simp only [tolerated_iff]
  constructor
  · rintro ⟨layout, parsed⟩ token member
    obtain ⟨items, reads, _⟩ := parse_eq_ok_iff.mp parsed
    exact reads.exists_of_mem member
  · intro spelled
    obtain ⟨items, reads⟩ := Reads.exists_of_forall spelled
    exact ⟨_, parse_eq_ok_iff.mpr ⟨items, reads, rfl⟩⟩

/-- The error names the first token that is not tolerated. -/
theorem first_of_parse_eq_error {error : LayoutError} (refused : parse spec = .error error) :
    ∃ before token behind, tokens spec = before ++ token :: behind ∧
      (∀ earlier ∈ before, Tolerated earlier) ∧ ¬ Tolerated token ∧
      error.token = String.ofList token := by
  have failed : (tokens spec).mapM ofToken = .error error := by
    unfold parse at refused
    cases outcome : (tokens spec).mapM ofToken with
    | ok items =>
      rw [outcome] at refused
      cases refused
    | error fault =>
      rw [outcome] at refused
      cases refused
      rfl
  obtain ⟨before, token, behind, parts, passed, fails⟩ := exists_first_of_mapM_eq_error failed
  refine ⟨before, token, behind, parts, ?_, ?_, token_of_ofToken_eq_error fails⟩
  · intro earlier member
    obtain ⟨item, read⟩ := passed earlier member
    exact tolerated_iff.mpr ⟨item, ofToken_eq_ok_iff.mp read⟩
  · intro tolerated
    obtain ⟨item, spelled⟩ := tolerated_iff.mp tolerated
    exact nomatch fails.symm.trans (ofToken_eq_ok_iff.mpr spelled)

theorem tokens_eq_filter (spec : String) :
    tokens spec = (spec.toList.splitOn '-').filter fun token => !token.isEmpty := by
  rw [tokens, pieces_eq_splitOn]

/-- A layout string is read just if each of its tokens, empty ones apart, follows the documented
grammar but for the two liberties; else the first token that does not is reported. -/
theorem parse_accepts_iff (spec : String) :
    ((∃ layout, parse spec = .ok layout) ↔
      ∀ token ∈ spec.toList.splitOn '-', token ≠ [] → Tolerated token) ∧
    (∀ error, parse spec = .error error → ∃ before token behind,
      (spec.toList.splitOn '-').filter (fun token => !token.isEmpty) = before ++ token :: behind ∧
      (∀ earlier ∈ before, Tolerated earlier) ∧ ¬ Tolerated token ∧
      error.token = String.ofList token) ∧
    ∀ token, Documented token ↔ Tolerated token ∧ Strict (token.splitOn ':') := by
  refine ⟨?_, fun error refused => ?_, fun _ => documented_iff⟩
  · rw [exists_parse_iff, tokens_eq_filter]
    simp
  · exact tokens_eq_filter spec ▸ first_of_parse_eq_error refused

/-- A word behind the letter of aggregates is read over, and so is a plus sign. -/
theorem undocumented_read :
    ((∃ layout, parse "afoo:64" = .ok layout) ∧ ¬ Documented "afoo:64".toList) ∧
      (∃ layout, parse "i+32:32" = .ok layout) ∧ ¬ Documented "i+32:32".toList := by
  refine ⟨⟨⟨_, rfl⟩, fun documented => ?_⟩, ⟨_, rfl⟩, fun documented => ?_⟩
  · have strict := (documented_iff.mp documented).2
    rcases strict.labelled "foo".toList (.inl rfl) with none | ⟨_, _, spelled⟩
    · exact absurd none (by decide)
    · exact absurd (spelled.decimal 'f' (by decide)) (by decide)
  · have strict := (documented_iff.mp documented).2
    exact strict.unsigned "+32".toList (by decide) (by decide)

end DataLayout

end IrAssembly
