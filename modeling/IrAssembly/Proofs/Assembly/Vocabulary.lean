import IrAssembly.Draft
import IrAssembly.Proofs.Assembly.InstructionLines
import IrAssembly.Proofs.Assembly.LocalNames
import IrAssembly.Proofs.Ty.Named

/-! What a listing consists of. A percent sign stands in front of a local name, in front of the name
of a type, or in quotes; everything else is words without one. -/

namespace IrAssembly

/-! Outcomes that have a property if there is a result -/

section Gives

variable {α β : Type} {error : Type}

/-- Whatever the outcome gives is good. -/
def Gives (good : α → Prop) (outcome : Except error α) : Prop :=
  ∀ value, outcome = .ok value → good value

namespace Gives

variable {good : α → Prop} {better : β → Prop}

theorem done {value : α} (isGood : good value) : Gives good (.ok value : Except error α) := by
  intro other same
  cases same
  exact isGood

theorem failed {failure : error} : Gives good (.error failure) := by
  intro value same
  cases same

theorem bind {outcome : Except error α} {next : α → Except error β} (first : Gives good outcome)
    (rest : ∀ value, outcome = .ok value → good value → Gives better (next value)) :
    Gives better (outcome >>= next) := by
  intro result succeeded
  obtain ⟨value, found, left⟩ := of_bind_eq_ok succeeded
  exact rest value found (first value found) result left

theorem mapM {step : β → Except error α} {items : List β}
    (each : ∀ item ∈ items, Gives good (step item)) :
    Gives (fun results => ∀ result ∈ results, good result) (items.mapM step) := by
  intro results succeeded
  have related := forall₂_of_mapM_eq_ok succeeded
  clear succeeded
  induction related with
  | nil => exact List.forall_mem_nil _
  | cons first _ ih =>
    refine List.forall_mem_cons.mpr ⟨each _ (List.mem_cons_self ..) _ first, ?_⟩
    exact ih fun other member => each other (List.mem_cons_of_mem _ member)

end Gives

end Gives

/-! Words -/

/-- Text without a percent sign. -/
def isWord (text : String) : Bool := !text.toList.contains '%'

/-- Text without percent signs and line breaks. -/
def isPhrase (text : String) : Bool := text.toList.all fun char => char != '%' && char != '\n'

theorem isWord_of_isPhrase {text : String} (free : isPhrase text = true) : isWord text = true := by
  rw [isWord, Bool.not_eq_true', List.contains_eq_any_beq, List.any_eq_false]
  intro char member same
  obtain rfl := beq_iff_eq.mp same
  exact absurd (List.all_eq_true.mp free '%' member) (by decide)

theorem isPhrase_append (front back : String) :
    isPhrase (front ++ back) = (isPhrase front && isPhrase back) := by
  simp [isPhrase]

theorem isPhrase_of_all {text : String} {holds : Char → Bool} (all : text.toList.all holds = true)
    (percent : holds '%' = false) (lineBreak : holds '\n' = false) : isPhrase text = true := by
  refine List.all_eq_true.mpr fun char member => ?_
  have holdsHere := List.all_eq_true.mp all char member
  rw [Bool.and_eq_true, bne_iff_ne, bne_iff_ne]
  constructor
  · rintro rfl
    cases percent.symm.trans holdsHere
  · rintro rfl
    cases lineBreak.symm.trans holdsHere

theorem isPhrase_toString (number : Nat) : isPhrase (toString number) = true := by
  refine isPhrase_of_all (?_ : _ = true) (show '%'.isDigit = false from rfl) rfl
  rw [Text.toList_toString]
  exact List.all_eq_true.mpr fun _ member => Text.isDigit_of_mem_toDigits member

theorem isPhrase_toString_int (number : Int) : isPhrase (toString number) = true := by
  cases number with
  | ofNat number => exact isPhrase_toString number
  | negSucc number =>
    have negative : toString (Int.negSucc number) = "-" ++ toString (number + 1) := rfl
    rw [negative, isPhrase_append, isPhrase_toString]
    rfl

theorem isPhrase_of_isPlainName {name : String} (plain : isPlainName name.toList = true) :
    isPhrase name = true := by
  unfold isPlainName at plain
  cases letters : name.toList with
  | nil => simp [isPhrase, letters]
  | cons first others =>
    rw [letters, Bool.or_eq_true, Bool.and_eq_true] at plain
    rw [← letters] at plain
    rcases plain with digits | ⟨_, chars⟩
    · exact isPhrase_of_all digits rfl rfl
    · exact isPhrase_of_all chars rfl rfl

theorem isPhrase_hexText (width value : Nat) : isPhrase (hexText width value) = true := by
  have digits : ∀ digit < 16, hexDigit digit ≠ '%' ∧ hexDigit digit ≠ '\n' := by decide
  rw [isPhrase, hexText, String.toList_ofList, List.all_eq_true]
  intro char member
  obtain ⟨digit, bounded, rfl⟩ := exists_of_mem_hexDigits member
  simpa using digits digit bounded

/-! Defined types -/

namespace Ty

theorem toTy_of_signature? {ty : Ty} {signature : Signature}
    (found : ty.signature? = some signature) : signature.toTy = ty := by
  cases ty with
  | func result params vararg =>
    cases found
    rfl
  | _ => cases found

/-- All named parts of the type are defined. -/
def DefinedIn (definitions : List Ty) (ty : Ty) : Prop := ty.namedParts ⊆ definitions

namespace DefinedIn

variable {definitions : List Ty} {ty : Ty}

theorem ptr (defined : ty.DefinedIn definitions) : (Ty.ptr ty).DefinedIn definitions := by
  simpa only [DefinedIn, namedParts] using defined

theorem pointee {pointee : Ty} (defined : ty.DefinedIn definitions)
    (points : ty.pointee? = some pointee) : pointee.DefinedIn definitions := by
  cases ty with
  | ptr target =>
    cases points
    simpa only [DefinedIn, namedParts] using defined
  | _ => cases points

theorem stripPointers (defined : ty.DefinedIn definitions) :
    ty.stripPointers.DefinedIn definitions := by
  fun_induction Ty.stripPointers ty with
  | case1 pointee ih => exact ih (defined.pointee rfl)
  | case2 ty _ => exact defined

theorem signature {signature : Signature} (defined : signature.toTy.DefinedIn definitions) :
    signature.result.DefinedIn definitions ∧
      ∀ param ∈ signature.params, param.DefinedIn definitions := by
  rw [Signature.toTy, DefinedIn, namedParts, namedPartsOf_eq_flatMap, List.append_subset] at defined
  refine ⟨defined.1, fun param member part inside => ?_⟩
  exact defined.2 (List.mem_flatMap.mpr ⟨param, member, inside⟩)

end DefinedIn

end Ty

/-! Vocabularies -/

/-- What percent signs may stand for in a text. -/
structure Vocabulary where
  /-- Names of local values and blocks, and names under which types are defined. -/
  names : String → Prop
  /-- Types that are defined. -/
  definitions : List Ty
  /-- Other types that may occur. -/
  strays : Ty → Prop

/-- The same vocabulary, with no types but the defined ones. -/
def Vocabulary.withoutStrays (vocabulary : Vocabulary) : Vocabulary :=
  { vocabulary with strays := fun _ => False }

/-- The texts that a vocabulary is enough for. -/
inductive Vocabulary.Forms (vocabulary : Vocabulary) : String → Prop where
  | word (free : isWord text = true) : Forms vocabulary text
  | quoted (text : String) : Forms vocabulary ("\"" ++ escapeString text ++ "\"")
  | name (known : vocabulary.names name) : Forms vocabulary (localName name)
  | ty {ty : Ty} (defined : ty.DefinedIn vocabulary.definitions) : Forms vocabulary ty.text
  | stray {ty : Ty} (known : vocabulary.strays ty) : Forms vocabulary ty.text
  | append (first : Forms vocabulary front) (second : Forms vocabulary back) :
    Forms vocabulary (front ++ back)

/-- The texts that a vocabulary is enough for, with line breaks in the names of types at most. -/
inductive Vocabulary.Phrases (vocabulary : Vocabulary) : String → Prop where
  | phrase (free : isPhrase text = true) : Phrases vocabulary text
  | quoted (text : String) : Phrases vocabulary ("\"" ++ escapeString text ++ "\"")
  | name (known : vocabulary.names name) : Phrases vocabulary (localName name)
  | ty {ty : Ty} (defined : ty.DefinedIn vocabulary.definitions) : Phrases vocabulary ty.text
  | stray {ty : Ty} (known : vocabulary.strays ty) : Phrases vocabulary ty.text
  | append (first : Phrases vocabulary front) (second : Phrases vocabulary back) :
    Phrases vocabulary (front ++ back)

/-- Phrases on a number of lines, each but the first with the indentation of cases. -/
inductive Vocabulary.Spans (vocabulary : Vocabulary) : Nat → String → Prop where
  | line (formed : vocabulary.Phrases text) : Spans vocabulary 1 text
  | broken (first : vocabulary.Phrases front) (rest : Spans vocabulary count back) :
    Spans vocabulary (count + 1) (front ++ ("\n" ++ indent ++ indent) ++ back)

/-! Texts put together -/

section Closed

variable {good : String → Prop} {parts : List String}

theorem good_intercalate {separator : String} (empty : good "") (separates : good separator)
    (append : ∀ {front back}, good front → good back → good (front ++ back))
    (each : ∀ part ∈ parts, good part) : good (separator.intercalate parts) := by
  induction parts with
  | nil => exact empty
  | cons part parts ih =>
    obtain ⟨first, others⟩ := List.forall_mem_cons.mp each
    cases parts with
    | nil => simpa using first
    | cons next parts =>
      rw [String.intercalate_cons_cons]
      exact append (append first separates) (ih others)

theorem good_join (empty : good "")
    (append : ∀ {front back}, good front → good back → good (front ++ back))
    (each : ∀ part ∈ parts, good part) : good (String.join parts) := by
  induction parts with
  | nil => exact empty
  | cons part parts ih =>
    obtain ⟨first, others⟩ := List.forall_mem_cons.mp each
    rw [String.join_cons]
    exact append first (ih others)

theorem good_parameterTexts (dots : good "...") (each : ∀ part ∈ parts, good part)
    (vararg : Bool) : ∀ text ∈ parameterTexts parts vararg, good text := by
  unfold parameterTexts
  split
  · exact List.forall_mem_append.mpr ⟨each, List.forall_mem_singleton.mpr dots⟩
  · exact each

end Closed

namespace Vocabulary

variable {vocabulary : Vocabulary} {front back text : String} {parts : List String}

/-! Phrases -/

namespace Phrases

theorem forms (formed : vocabulary.Phrases text) : vocabulary.Forms text := by
  induction formed with
  | phrase free => exact .word (isWord_of_isPhrase free)
  | quoted text => exact .quoted text
  | name known => exact .name known
  | ty defined => exact .ty defined
  | stray known => exact .stray known
  | append _ _ first second => exact .append first second

theorem empty : vocabulary.Phrases "" := .phrase rfl

theorem ite {condition : Prop} [Decidable condition] (first : vocabulary.Phrases front)
    (second : vocabulary.Phrases back) :
    vocabulary.Phrases (if condition then front else back) := by
  split
  · exact first
  · exact second

/-- A text behind its type. -/
theorem typed {ty : Ty} (type : vocabulary.Phrases ty.text) (formed : vocabulary.Phrases text) :
    vocabulary.Phrases (ty.text ++ " " ++ text) :=
  (type.append (.phrase rfl)).append formed

theorem commaSeparated (formed : ∀ part ∈ parts, vocabulary.Phrases part) :
    vocabulary.Phrases (commaSeparated parts) :=
  good_intercalate .empty (.phrase rfl) .append formed

theorem join (formed : ∀ part ∈ parts, vocabulary.Phrases part) :
    vocabulary.Phrases (String.join parts) :=
  good_join .empty .append formed

theorem spelledName (name : String) : vocabulary.Phrases (spelledName name) := by
  by_cases plain : isPlainName name.toList = true
  · rw [IrAssembly.spelledName, if_pos plain]
    exact .phrase (isPhrase_of_isPlainName plain)
  · rw [IrAssembly.spelledName, if_neg plain]
    exact .quoted name

theorem globalName (name : String) : vocabulary.Phrases (globalName name) :=
  .append (.phrase rfl) (.spelledName name)

end Phrases

/-! Lines -/

namespace Spans

variable {count : Nat}

theorem forms (spans : vocabulary.Spans count text) : vocabulary.Forms text := by
  induction spans with
  | line formed => exact formed.forms
  | broken first _ ih => exact .append (.append first.forms (.word rfl)) ih

theorem behind (first : vocabulary.Phrases front) (spans : vocabulary.Spans count text) :
    vocabulary.Spans count (front ++ text) := by
  cases spans with
  | line formed => exact .line (first.append formed)
  | broken formed rest =>
    rw [← String.append_assoc, ← String.append_assoc]
    exact .broken (first.append formed) rest

theorem append (spans : vocabulary.Spans count text) (last : vocabulary.Phrases back) :
    vocabulary.Spans count (text ++ back) := by
  induction spans with
  | line formed => exact .line (formed.append last)
  | broken first _ ih =>
    rw [String.append_assoc]
    exact .broken first ih

/-- One phrase a line; no phrases take a line as well. -/
theorem intercalate (formed : ∀ part ∈ parts, vocabulary.Phrases part) :
    vocabulary.Spans (max 1 parts.length) (("\n" ++ indent ++ indent).intercalate parts) := by
  induction parts with
  | nil => exact .line .empty
  | cons part parts ih =>
    obtain ⟨first, others⟩ := List.forall_mem_cons.mp formed
    cases parts with
    | nil => exact .line (by simpa using first)
    | cons next parts =>
      rw [String.intercalate_cons_cons]
      exact .broken first (ih others)

end Spans

/-! Forms -/

namespace Forms

theorem empty : vocabulary.Forms "" := .word rfl

theorem ite {condition : Prop} [Decidable condition] (first : vocabulary.Forms front)
    (second : vocabulary.Forms back) : vocabulary.Forms (if condition then front else back) := by
  split
  · exact first
  · exact second

theorem commaSeparated (formed : ∀ part ∈ parts, vocabulary.Forms part) :
    vocabulary.Forms (commaSeparated parts) :=
  good_intercalate .empty (.word rfl) .append formed

theorem unlines (formed : ∀ line ∈ parts, vocabulary.Forms line) :
    vocabulary.Forms (unlines parts) := by
  refine good_join .empty .append fun line member => ?_
  obtain ⟨line, listed, rfl⟩ := List.mem_map.mp member
  exact (formed line listed).append (.word rfl)

theorem globalName (name : String) : vocabulary.Forms (globalName name) :=
  (Phrases.globalName name).forms

/-- Strays that are defined need not be told from the other types. -/
theorem withoutStrays (formed : vocabulary.Forms text)
    (closed : ∀ ty, vocabulary.strays ty → ty.DefinedIn vocabulary.definitions) :
    vocabulary.withoutStrays.Forms text := by
  induction formed with
  | word free => exact .word free
  | quoted text => exact .quoted text
  | name known => exact .name known
  | ty defined => exact .ty defined
  | stray known => exact .ty (closed _ known)
  | append _ _ first second => exact .append first second

end Forms

end Vocabulary

end IrAssembly
