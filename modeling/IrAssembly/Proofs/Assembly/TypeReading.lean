import IrAssembly.Proofs.Assembly.Reader
import IrAssembly.Proofs.Assembly.Spelling
import IrAssembly.Proofs.Ty.Outline

/-! The text of a type is read as the type, without the bodies of the types that it names. -/

namespace IrAssembly

namespace Reading

variable {ty element result : Ty} {stack : List Item} {letters : List Char}

/-! Words -/

/-- The letters that words which are types start with. -/
def tyHeads : List Char := ['%', 'i', 'v', 'l', 'm', 'h', 'f', 'd', 'x']

theorem wordTy?_eq_none {first : Char} (rest : List Char) (other : first ∉ tyHeads) :
    wordTy? (first :: rest) = none := by
  have keywords : ∀ ty ∈ keywordTys, ty.text.toList.head?.all tyHeads.contains = true := by
    decide +kernel
  unfold wordTy?
  split
  · rename_i same
    cases same
    exact absurd (by decide) other
  · rename_i same
    cases same
    exact absurd (by decide) other
  · refine List.find?_eq_none.mpr fun ty member same => ?_
    have head := keywords ty member
    rw [of_decide_eq_true same] at head
    exact other (List.contains_iff_mem.mp head)

theorem wordTy?_toDigits (value : Nat) : wordTy? (Nat.toDigits 10 value) = none := by
  obtain ⟨first, others, spelled, digit⟩ := Text.exists_toDigits_eq_cons value
  rw [spelled]
  exact wordTy?_eq_none others (Text.notMem_of_isDigit digit (by decide))

theorem isLetter_of_isDigit {char : Char} (digit : char.isDigit = true) : isLetter char = true := by
  simp [isLetter, isNameChar, Char.isAlphanum, digit]

theorem isLetter_of_isNameChar {char : Char} (plain : isNameChar char = true) :
    isLetter char = true := by
  simp [isLetter, plain]

theorem all_isLetter_toDigits (value : Nat) : (Nat.toDigits 10 value).all isLetter = true :=
  List.all_eq_true.mpr fun _ member => isLetter_of_isDigit (Text.isDigit_of_mem_toDigits member)

theorem all_isLetter_of_isPlainName {name : List Char} (plain : isPlainName name = true) :
    name.all isLetter = true :=
  List.all_eq_true.mpr fun _ member =>
    isLetter_of_isNameChar (isNameChar_of_isPlainName plain member)

theorem number_toDigits (value : Nat) : number (Nat.toDigits 10 value) = value := by
  simp [number]

/-- A number on top of anything but a type. -/
theorem reads_toDigits (value : Nat) (lacks : Lacks Item.ty? stack) :
    Reads (Nat.toDigits 10 value) stack (.word (Nat.toDigits 10 value) :: stack) := by
  have read := Reads.word _ (all_isLetter_toDigits value) stack
  rwa [pushWord_word Nat.toDigits_ne_nil (wordTy?_toDigits value) (.inr lacks)] at read

/-- A word that is a type. -/
theorem Pushes.word {text : String} (whole : text.toList.all isLetter = true)
    (found : wordTy? text.toList = some ty) : Pushes text (.ty ty) where
  reads stack := by
    have read := Reads.word _ whole stack
    rwa [pushWord_ty found] at read
  solid := nofun

theorem Pushes.keyword (known : ty ∈ keywordTys) : Pushes ty.text (.ty ty) := by
  have words : ∀ ty ∈ keywordTys, ty.text.toList.all isLetter = true ∧
      wordTy? ty.text.toList = some ty := by decide +kernel
  exact .word (words ty known).1 (words ty known).2

theorem Pushes.int (bits : UInt32) : Pushes (Ty.int bits).text (.ty (.int bits)) := by
  have letters : (Ty.int bits).text.toList = 'i' :: Nat.toDigits 10 bits.toNat := by
    simp [Ty.text]
  refine .word ?_ ?_
  · rw [letters, List.all_cons, all_isLetter_toDigits]
    rfl
  · have digits : (Nat.toDigits 10 bits.toNat).all Char.isDigit = true :=
      List.all_eq_true.mpr fun _ => Text.isDigit_of_mem_toDigits
    rw [letters]
    simp only [wordTy?]
    rw [if_pos digits, number_toDigits, UInt32.ofNat_toNat]

theorem Pushes.named {name : String} (plain : isPlainName name.toList = true) :
    Pushes ("%" ++ name) (.ty (.bodiless name)) := by
  have letters : ("%" ++ name).toList = '%' :: name.toList := by simp
  refine .word ?_ ?_
  · rw [letters, List.all_cons, all_isLetter_of_isPlainName plain]
    rfl
  · rw [letters]
    simp [wordTy?]

/-! Brackets -/

section Brackets

variable {text : String}

theorem Pushes.ptr (reads : Pushes text (.ty element)) : Pushes (text ++ "*") (.ty (.ptr element))
    where
  reads stack := by
    have letters : (text ++ "*").toList = text.toList ++ ['*'] := by simp
    rw [letters]
    exact (reads.reads stack).closed rfl rfl
  solid := nofun

/-- What stands between the brackets of an array type or a vector type. -/
theorem reads_sequence (length : Nat) (bracket : Char) (reads : Pushes text (.ty element))
    (stack : List Item) :
    Reads (Nat.toDigits 10 length ++ ' ' :: (['x'] ++ ' ' :: text.toList))
      (.opening bracket :: stack)
      (.ty element :: .word ['x'] :: .word (Nat.toDigits 10 length) :: .opening bracket ::
        stack) := by
  refine (reads_toDigits length rfl).punctuated rfl ?_
  have x : Reads ['x'] (.word (Nat.toDigits 10 length) :: .opening bracket :: stack)
      (.word ['x'] :: .word (Nat.toDigits 10 length) :: .opening bracket :: stack) := by
    have read := Reads.word ['x'] (by decide)
      (.word (Nat.toDigits 10 length) :: .opening bracket :: stack)
    rwa [pushWord_word (by decide) (by decide +kernel) (.inr rfl)] at read
  exact x.punctuated rfl (reads.reads _)

theorem Pushes.array {len : UInt64} (reads : Pushes text (.ty element)) :
    Pushes ("[" ++ toString len.toNat ++ " x " ++ text ++ "]") (.ty (.array len element)) where
  reads stack := by
    have letters : ("[" ++ toString len.toNat ++ " x " ++ text ++ "]").toList = '[' ::
        ((Nat.toDigits 10 len.toNat ++ ' ' :: (['x'] ++ ' ' :: text.toList)) ++ [']']) := by
      simp
    rw [letters]
    refine .mark rfl ?_
    refine (reads_sequence _ _ reads stack).closed rfl ?_
    rw [punctuate_square, closeSquare, number_toDigits, UInt64.ofNat_toNat]
  solid := nofun

theorem Pushes.vector {len : UInt32} (reads : Pushes text (.ty element)) :
    Pushes ("<" ++ toString len.toNat ++ " x " ++ text ++ ">") (.ty (.vector len element)) where
  reads stack := by
    have letters : ("<" ++ toString len.toNat ++ " x " ++ text ++ ">").toList = '<' ::
        ((Nat.toDigits 10 len.toNat ++ ' ' :: (['x'] ++ ' ' :: text.toList)) ++ ['>']) := by
      simp
    rw [letters]
    refine .mark rfl ?_
    refine (reads_sequence _ _ reads stack).closed rfl ?_
    rw [punctuate_angle, closeAngle, number_toDigits, UInt32.ofNat_toNat]
  solid := nofun

end Brackets

/-! Lists -/

section Lists

variable {texts : List String} {types : List Ty} {vararg packed : Bool}

/-- A structure of the types between its braces. -/
theorem closeBrace_types (filled : types ≠ []) (stack : List Item) :
    closeBrace ((types.map Item.ty).reverse ++ .body :: stack) =
      .ty (.struct none types false) :: stack := by
  have gathered : gather Item.ty? ((types.map Item.ty).reverse ++ .body :: stack) =
      (types, .body :: stack) := gather_map _ Item.ty (fun _ => rfl) rfl types
  obtain ⟨front, last, rfl⟩ := (List.eq_nil_or_concat' types).resolve_left filled
  simp only [List.map_append, List.map_cons, List.map_nil, List.reverse_append,
    List.reverse_singleton, List.cons_append] at gathered ⊢
  simp only [closeBrace, closeFields, gathered]

theorem reads_structBody (pushes : PushesEach .ty texts types) (stack : List Item) :
    Reads (structBody texts false).toList stack (.ty (.struct none types false) :: stack) := by
  by_cases empty : types = []
  · subst empty
    obtain rfl := List.forall₂_nil_right_iff.mp pushes
    have letters : (structBody [] false).toList = ([] ++ ['\x7b']) ++ ['\x7d'] := rfl
    rw [letters]
    exact ((Reads.nil stack).closed rfl rfl).closed rfl rfl
  · have filled : texts ≠ [] := by
      rintro rfl
      exact empty (List.map_eq_nil_iff.mp (List.forall₂_nil_left_iff.mp pushes))
    have letters : (structBody texts false).toList = '\x7b' :: ' ' ::
        (((commaSeparated texts).toList ++ [' ']) ++ ['\x7d']) := by
      simp [structBody, filled]
    have solid : ((types.map Item.ty).reverse ++ .body :: stack).head? ≠
        some (.opening '\x7b') :=
      forall_top (P := fun stack => stack.head? ≠ some (.opening '\x7b')) .ty types
        (fun _ _ => nofun) nofun
    have fields := reads_commaSeparated pushes (.body :: stack)
    rw [letters]
    refine .mark rfl ?_
    refine .mark rfl ?_
    exact (fields.closed rfl (punctuate_blank solid)).closed rfl (closeBrace_types empty stack)

theorem Pushes.struct (pushes : PushesEach .ty texts types) :
    Pushes (structBody texts packed) (.ty (.struct none types packed)) where
  reads stack := by
    cases packed with
    | false => exact reads_structBody pushes stack
    | true =>
      have letters : (structBody texts true).toList = '<' ::
          ((structBody texts false).toList ++ ['>']) := by
        simp [structBody]
      rw [letters]
      refine .mark rfl ?_
      exact (reads_structBody pushes _).closed rfl rfl
  solid := nofun

/-- The ellipsis among the parameters. -/
def dots (vararg : Bool) : List (List Char) := if vararg then [['.', '.', '.']] else []

theorem reads_parameters (pushes : PushesEach .ty texts types) (stack : List Item) :
    Reads (commaSeparated (parameterTexts texts vararg)).toList stack
      (((dots vararg).map Item.word).reverse ++ ((types.map Item.ty).reverse ++ stack)) := by
  have ellipsis : Pushes "..." (.word ['.', '.', '.']) := ⟨.part (by decide +kernel), nofun⟩
  cases vararg with
  | false => exact reads_commaSeparated pushes stack
  | true =>
    have read := reads_commaSeparated (List.rel_append pushes (.cons ellipsis .nil)) stack
    rwa [List.reverse_append, List.append_assoc] at read

/-- A function type of the result in front of the parentheses and the parameters between them. -/
theorem closeRound_parameters (params : List Ty) (vararg : Bool) (stack : List Item) :
    closeRound (((dots vararg).map Item.word).reverse ++
      ((params.map Item.ty).reverse ++ .opening '(' :: .ty result :: stack)) =
    .ty (.func result params vararg) :: stack := by
  have lacks : Lacks Item.word?
      ((params.map Item.ty).reverse ++ .opening '(' :: .ty result :: stack) :=
    forall_top (P := Lacks Item.word?) .ty params (fun _ _ => rfl) rfl
  have words := gather_map Item.word? .word (fun _ => rfl) lacks (dots vararg)
  have types : gather Item.ty? ((params.map Item.ty).reverse ++
      .opening '(' :: .ty result :: stack) = (params, .opening '(' :: .ty result :: stack) :=
    gather_map _ Item.ty (fun _ => rfl) rfl params
  have ellipsis : (dots vararg).isEmpty = !vararg := by cases vararg <;> rfl
  -- On top lies a word, a type or the bracket, so these are no operands.
  refine (forall_top (P := fun stack => closeRound stack = closeParameters stack) .word
    (dots vararg) (fun _ _ => rfl) ?_).trans ?_
  · exact forall_top (P := fun stack => closeRound stack = closeParameters stack) .ty params
      (fun _ _ => rfl) rfl
  · simp only [closeParameters, words, types, ellipsis, Bool.not_not]

theorem Pushes.func {text : String} (reads : Pushes text (.ty result))
    (pushes : PushesEach .ty texts types) :
    Pushes (text ++ " (" ++ commaSeparated (parameterTexts texts vararg) ++ ")")
      (.ty (.func result types vararg)) where
  reads stack := by
    have letters : (text ++ " (" ++ commaSeparated (parameterTexts texts vararg) ++ ")").toList =
        text.toList ++ ' ' :: '(' ::
          ((commaSeparated (parameterTexts texts vararg)).toList ++ [')']) := by
      simp
    rw [letters]
    refine (reads.reads stack).punctuated rfl ?_
    rw [reads.blank]
    refine .mark rfl ?_
    refine (reads_parameters pushes _).closed rfl ?_
    exact closeRound_parameters types vararg stack
  solid := nofun

end Lists

end Reading

open Reading

namespace Ty

mutual

/-- A type with plain names is read as its outline. -/
theorem pushes_outline : ∀ ty : Ty, ty.PlainlyNamed → Pushes ty.text (.ty ty.outline)
  | void, _ | label, _ | metadata, _ => .keyword (by decide)
  | float kind, _ => .keyword (by cases kind <;> decide)
  | int bits, _ => .int bits
  | ptr pointee, plain => (pushes_outline pointee plain.ptr).ptr
  | array _ element, plain => (pushes_outline element plain.array).array
  | vector _ element, plain => (pushes_outline element plain.vector).vector
  | struct none fields _, plain => .struct (pushes_outlines fields plain.field)
  | struct (some _) _ _, plain => .named (plain.name rfl)
  | func result params _, plain =>
    (pushes_outline result plain.func.1).func (pushes_outlines params plain.func.2)
  | bodiless _, plain => .named (plain.name rfl)

theorem pushes_outlines : ∀ types : List Ty, (∀ ty ∈ types, ty.PlainlyNamed) →
    PushesEach .ty (texts types) (outlines types)
  | [], _ => .nil
  | ty :: types, plain =>
    .cons (pushes_outline ty (plain ty (List.mem_cons_self ..)))
      (pushes_outlines types fun other member => plain other (List.mem_cons_of_mem _ member))

end

/-- Two types with plain names have the same text just if they differ in nothing but the bodies
of named types. -/
theorem text_eq_iff_outline_eq {left right : Ty} (plain : left.PlainlyNamed)
    (otherPlain : right.PlainlyNamed) : left.text = right.text ↔ left.outline = right.outline := by
  constructor
  · intro same
    have read := (pushes_outline left plain).reads []
    rw [same] at read
    exact Item.ty.inj (List.cons.inj (read.unique ((pushes_outline right otherPlain).reads []))).1
  · intro same
    rw [← text_outline left, ← text_outline right, same]

/-- A function that returns a pointer to a function, of a structure in one and of an unknown type
of the same name in the other. -/
theorem same_text_of_pairs : ∃ left right : Ty,
    left = func (ptr (func .i32 [struct (some "pair") [.i8] false] true)) [] false ∧
    right = func (ptr (func .i32 [bodiless "pair"] true)) [] false ∧
    left.PlainlyNamed ∧ right.PlainlyNamed ∧ left ≠ right ∧
    left.text = "i32 (%pair, ...)* ()" ∧ left.text = right.text ∧
    left.outline = right.outline := by
  have name : isPlainName ['p', 'a', 'i', 'r'] = true := by decide
  have plain : (func (ptr (func .i32 [struct (some "pair") [.i8] false] true)) []
      false).PlainlyNamed := by
    simp [PlainlyNamed, namedParts, namedPartsOf, name?, i32, i8, name]
  have otherPlain : (func (ptr (func .i32 [bodiless "pair"] true)) [] false).PlainlyNamed := by
    simp [PlainlyNamed, namedParts, namedPartsOf, name?, i32, name]
  have same : (func (ptr (func .i32 [struct (some "pair") [.i8] false] true)) [] false).text =
      (func (ptr (func .i32 [bodiless "pair"] true)) [] false).text := by decide +kernel
  exact ⟨_, _, rfl, rfl, plain, otherPlain, by decide, by decide +kernel, same,
    (text_eq_iff_outline_eq plain otherPlain).mp same⟩

end Ty

end IrAssembly
