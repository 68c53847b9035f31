import IrAssembly.Proofs.Assembly.TypeReading
import IrAssembly.Proofs.Constant.Outline
import IrAssembly.Proofs.Success

/-! The text of a constant behind its type is read as what the constant shows of itself, in either
dialect. -/

namespace IrAssembly

/-! Shapes -/

/-- The words of a snippet in front of its strings. -/
def InlineAsm.words (asm : InlineAsm) : List String :=
  "asm" :: ((if asm.sideEffects then ["sideeffect"] else []) ++
    if asm.alignStack then ["alignstack"] else [])

/-- The words of an address computation in front of its operands. -/
def addressWords (inbounds : Bool) : List String :=
  "getelementptr" :: if inbounds then ["inbounds"] else []

namespace Constant

mutual

/-- What a constant shows of itself. -/
def shape : Constant → Shape
  | int ty value => .atom ty.outline (integerText ty value).toList
  | bigInt ty value => .atom ty.outline (toString value).toList
  | float value => .atom (.float value.kind) value.literal.toList
  | null ty => .atom ty.outline "null".toList
  | undef ty => .atom ty.outline "undef".toList
  | zero ty => .atom ty.outline "zeroinitializer".toList
  | aggregate ty elements => .aggregate ty.outline (shapes elements)
  | inlineAsm asm => .asm asm.ty.outline (asm.words.map String.toList)
      (escapeString asm.body).toList (escapeString asm.constraints).toList
  | elementPointer ty base indices inbounds =>
    .elementPointer ty.outline ((addressWords inbounds).map String.toList)
      (shape base :: shapes indices)
  | global name ty => .atom ty.outline (globalName name).toList

def shapes : List Constant → List Shape
  | [] => []
  | constant :: constants => shape constant :: shapes constants

end

end Constant

namespace Reading

variable {ty : Ty} {stack : List Item} {letters : List Char} {tyText text : String}

/-! Words -/

/-- The letters that words which are neither types nor constants start with. -/
def partHeads : List Char := ['.', 'a', 's', 'g', 'i', '@']

/-- The letters are a word that is a constant. -/
structure IsAtom (letters : List Char) : Prop where
  filled : letters ≠ []
  whole : letters.all isLetter = true
  noTy : wordTy? letters = none
  noPart : letters ∉ partWords

theorem IsAtom.of_head {first : Char} (head : letters.head? = some first) (noTy : first ∉ tyHeads)
    (noPart : first ∉ partHeads) (whole : letters.all isLetter = true) :
    IsAtom letters := by
  cases letters with
  | nil => cases head
  | cons other rest =>
    cases head
    refine ⟨by simp, whole, wordTy?_eq_none rest noTy, fun member => ?_⟩
    have heads : ∀ word ∈ partWords, word.head?.all partHeads.contains = true := by
      decide +kernel
    exact noPart (List.contains_iff_mem.mp (heads _ member))

/-- The words for constants of any value. -/
def atomWords : List String := ["true", "false", "null", "undef", "zeroinitializer"]

theorem isAtom_atomWords {word : String} (known : word ∈ atomWords) : IsAtom word.toList := by
  have atoms : ∀ word ∈ atomWords, word.toList ≠ [] ∧
      word.toList.all isLetter = true ∧ wordTy? word.toList = none ∧
      word.toList ∉ partWords := by decide +kernel
  obtain ⟨filled, whole, noTy, noPart⟩ := atoms word known
  exact ⟨filled, whole, noTy, noPart⟩

theorem isAtom_toDigits (value : Nat) : IsAtom (Nat.toDigits 10 value) := by
  obtain ⟨first, others, spelled, digit⟩ := Text.exists_toDigits_eq_cons value
  have whole := all_isLetter_toDigits value
  rw [spelled] at whole ⊢
  exact .of_head rfl (Text.notMem_of_isDigit digit (by decide))
    (Text.notMem_of_isDigit digit (by decide)) whole

theorem isAtom_toString (value : Int) : IsAtom (toString value).toList := by
  cases value with
  | ofNat value =>
    rw [Text.toList_toString_ofNat]
    exact isAtom_toDigits value
  | negSucc value =>
    rw [Text.toList_toString_negSucc]
    refine .of_head rfl (by decide) (by decide) ?_
    rw [List.all_cons, all_isLetter_toDigits]
    rfl

theorem isAtom_integerText (ty : Ty) (value : Int64) : IsAtom (integerText ty value).toList := by
  unfold integerText
  split
  · split <;> exact isAtom_atomWords (by decide)
  · exact isAtom_toString _

theorem all_isLetter_hexText (width value : Nat) :
    (hexText width value).toList.all isLetter = true := by
  have digits : ∀ digit < 16, isLetter (hexDigit digit) = true := by decide
  rw [hexText, String.toList_ofList, List.all_eq_true]
  intro char member
  obtain ⟨digit, bounded, rfl⟩ := exists_of_mem_hexDigits member
  exact digits digit bounded

theorem isAtom_literal (number : FloatConstant) : IsAtom number.literal.toList := by
  have whole : number.literal.toList.all isLetter = true := by
    unfold FloatConstant.literal
    split <;> simp only [String.toList_append, List.all_append, all_isLetter_hexText] <;> decide
  refine .of_head (?_ : _ = some '0') (by decide) (by decide) whole
  unfold FloatConstant.literal
  split <;> simp

/-! Constants behind their type -/

theorem reads_atom (atom : IsAtom letters) (ty : Ty) (stack : List Item) :
    Reads letters (.ty ty :: stack) (.shape (.atom ty letters) :: stack) := by
  have read := Reads.word letters atom.whole (.ty ty :: stack)
  rwa [pushWord_atom atom.filled atom.noTy atom.noPart] at read

theorem reads_globalName (name : String) (ty : Ty) (stack : List Item) :
    Reads (globalName name).toList (.ty ty :: stack)
      (.shape (.atom ty (globalName name).toList) :: stack) := by
  by_cases plain : isPlainName name.toList = true
  · have spelled : (globalName name).toList = '@' :: name.toList := by
      simp [globalName, spelledName, plain]
    refine reads_atom ?_ ty stack
    rw [spelled]
    refine ⟨by simp, ?_, wordTy?_eq_none _ (by decide), ?_⟩
    · rw [List.all_cons, all_isLetter_of_isPlainName plain]
      rfl
    · -- Only the sign alone is part of a quoted name.
      have lone : ∀ word ∈ partWords, word.head? = some '@' → word.tail = [] := by
        decide +kernel
      intro member
      have empty : name.toList = [] := lone _ member rfl
      rw [empty] at plain
      cases plain
  · have spelled : (globalName name).toList =
        ['@'] ++ '"' :: ((escapeString name).toList ++ ['"']) := by
      simp [globalName, spelledName, plain]
    rw [spelled]
    refine (Reads.part (by decide +kernel) _).quoted (quote_notMem_escapeString name) ?_
    exact .nil _

/-- Words in a row, each with a blank behind it. -/
theorem Reads.words {words : List String} (known : ∀ word ∈ words, word.toList ∈ partWords)
    {back : List Char} {stack after : List Item}
    (rest : Reads back (((words.map String.toList).map Item.word).reverse ++ stack) after) :
    Reads (words.flatMap (fun word => word.toList ++ [' ']) ++ back) stack after := by
  induction words generalizing stack with
  | nil => exact rest
  | cons word words ih =>
    obtain ⟨first, others⟩ := List.forall_mem_cons.mp known
    rw [List.flatMap_cons, List.append_assoc, List.append_assoc]
    refine (Reads.part first stack).punctuated rfl (ih others ?_)
    rw [List.map_cons, List.map_cons, List.reverse_cons, List.append_assoc] at rest
    exact rest

theorem gather_words (words : List (List Char)) (ty : Ty) (stack : List Item) :
    gather Item.word? ((words.map Item.word).reverse ++ .ty ty :: stack) =
      (words, .ty ty :: stack) :=
  gather_map _ Item.word (fun _ => rfl) rfl words

/-- The first string behind some words stays on the stack. -/
theorem pushQuoted_body {words : List (List Char)} (named : ['@'] ∉ words) (body : List Char)
    (ty : Ty) (stack : List Item) :
    pushQuoted body ((words.map Item.word).reverse ++ .ty ty :: stack) =
      .quoted body :: ((words.map Item.word).reverse ++ .ty ty :: stack) := by
  rcases List.eq_nil_or_concat' words with rfl | ⟨front, last, rfl⟩
  · rfl
  · have other : last ≠ ['@'] := by
      rintro rfl
      exact named (by simp)
    rw [List.map_append, List.reverse_append]
    unfold pushQuoted
    split
    · simp_all
    · simp_all
    · rfl

/-- The second string makes a snippet of the words and both strings. -/
theorem pushQuoted_constraints (words : List (List Char)) (body constraints : List Char)
    (ty : Ty) (stack : List Item) :
    pushQuoted constraints (.quoted body :: ((words.map Item.word).reverse ++ .ty ty :: stack)) =
      .shape (.asm ty words body constraints) :: stack := by
  simp only [pushQuoted, gather_words]

theorem reads_inlineAsm (asm : InlineAsm) (ty : Ty) (stack : List Item) :
    Reads asm.text.toList (.ty ty :: stack)
      (.shape (.asm ty (asm.words.map String.toList) (escapeString asm.body).toList
        (escapeString asm.constraints).toList) :: stack) := by
  have letters : asm.text.toList = asm.words.flatMap (fun word => word.toList ++ [' ']) ++
      '"' :: ((escapeString asm.body).toList ++ '"' :: ',' :: ' ' ::
        '"' :: ((escapeString asm.constraints).toList ++ ['"'])) := by
    cases effects : asm.sideEffects <;> cases align : asm.alignStack <;>
      simp [InlineAsm.text, InlineAsm.words, effects, align]
  have few : ∀ word ∈ asm.words, word ∈ ["asm", "sideeffect", "alignstack"] := by
    unfold InlineAsm.words
    split <;> split <;> decide
  have known : ∀ word ∈ ["asm", "sideeffect", "alignstack"],
      word.toList ∈ partWords ∧ word.toList ≠ ['@'] := by decide +kernel
  have named : ['@'] ∉ asm.words.map String.toList := by
    intro member
    obtain ⟨word, inside, same⟩ := List.mem_map.mp member
    exact (known word (few word inside)).2 same
  rw [letters]
  refine .words (fun word inside => (known word (few word inside)).1) ?_
  refine .string (quote_notMem_escapeString asm.body) ?_
  rw [pushQuoted_body named]
  refine .mark rfl ?_
  refine .mark rfl ?_
  refine .string (quote_notMem_escapeString asm.constraints) ?_
  have made := pushQuoted_constraints (asm.words.map String.toList) (escapeString asm.body).toList
    (escapeString asm.constraints).toList ty stack
  exact made ▸ Reads.nil _

/-! Brackets -/

theorem gather_shapes (shapes : List Shape) (lacks : Lacks Item.shape? stack) :
    gather Item.shape? ((shapes.map Item.shape).reverse ++ stack) = (shapes, stack) :=
  gather_map _ Item.shape (fun _ => rfl) lacks shapes

theorem closeAggregate_shapes (shapes : List Shape) (bracket : Char) (ty : Ty)
    (stack : List Item) :
    closeAggregate ((shapes.map Item.shape).reverse ++ .opening bracket :: .ty ty :: stack) =
      .shape (.aggregate ty shapes) :: stack := by
  have gathered := gather_shapes shapes
    (rfl : Lacks Item.shape? (.opening bracket :: .ty ty :: stack))
  simp only [closeAggregate, gathered]

theorem closeSquare_shapes (shapes : List Shape) (bracket : Char) (ty : Ty) (stack : List Item) :
    closeSquare ((shapes.map Item.shape).reverse ++ .opening bracket :: .ty ty :: stack) =
      .shape (.aggregate ty shapes) :: stack := by
  rw [← closeAggregate_shapes shapes bracket]
  exact forall_top (P := fun stack => closeSquare stack = closeAggregate stack) .shape shapes
    (fun _ _ => rfl) rfl

theorem closeAngle_shapes (shapes : List Shape) (bracket : Char) (ty : Ty) (stack : List Item) :
    closeAngle ((shapes.map Item.shape).reverse ++ .opening bracket :: .ty ty :: stack) =
      .shape (.aggregate ty shapes) :: stack := by
  rw [← closeAggregate_shapes shapes bracket]
  exact forall_top (P := fun stack => closeAngle stack = closeAggregate stack) .shape shapes
    (fun _ _ => rfl) rfl

theorem closeBrace_shapes (shapes : List Shape) (ty : Ty) (stack : List Item) :
    closeBrace ((shapes.map Item.shape).reverse ++ .body :: .ty ty :: stack) =
      .shape (.aggregate ty shapes) :: stack := by
  have gathered := gather_shapes shapes (rfl : Lacks Item.shape? (.body :: .ty ty :: stack))
  have elements := forall_top (P := fun stack => closeBrace stack = closeElements stack) .shape
    shapes (fun _ _ => rfl) (rfl : closeBrace (.body :: .ty ty :: stack) = _)
  simp only [elements, closeElements, gathered]

/-- The outer bracket of a packed structure is still open. -/
theorem closeBrace_members (shapes : List Shape) (bracket : Char) (stack : List Item) :
    closeBrace ((shapes.map Item.shape).reverse ++ .body :: .opening bracket :: stack) =
      .members shapes :: .opening bracket :: stack := by
  have gathered := gather_shapes shapes
    (rfl : Lacks Item.shape? (.body :: .opening bracket :: stack))
  have elements := forall_top (P := fun stack => closeBrace stack = closeElements stack) .shape
    shapes (fun _ _ => rfl) (rfl : closeBrace (.body :: .opening bracket :: stack) = _)
  simp only [elements, closeElements, gathered]

section Lists

variable {texts : List String} {shapes : List Shape}

/-- Members between blanks and a closing brace. -/
theorem reads_members (pushes : PushesEach .shape texts shapes) {stack after : List Item}
    (closes : closeBrace ((shapes.map Item.shape).reverse ++ .body :: stack) = after) :
    Reads ('\x7b' :: ' ' :: (((commaSeparated texts).toList ++ [' ']) ++ ['\x7d'])) stack
      after := by
  have solid : ((shapes.map Item.shape).reverse ++ .body :: stack).head? ≠
      some (.opening '\x7b') :=
    forall_top (P := fun stack => stack.head? ≠ some (.opening '\x7b')) .shape shapes
      (fun _ _ => nofun) nofun
  have items := reads_commaSeparated pushes (.body :: stack)
  refine .mark rfl ?_
  refine .mark rfl ?_
  exact (items.closed rfl (punctuate_blank solid)).closed rfl closes

theorem reads_aggregate {own : Ty} {opening closing : String}
    (brackets : aggregateBrackets own = .ok (opening, closing))
    (pushes : PushesEach .shape texts shapes)
    (ty : Ty) (stack : List Item) :
    Reads (opening ++ commaSeparated texts ++ closing).toList (.ty ty :: stack)
      (.shape (.aggregate ty shapes) :: stack) := by
  unfold aggregateBrackets at brackets
  split at brackets
  · cases brackets
    have letters : ("[" ++ commaSeparated texts ++ "]").toList =
        '[' :: ((commaSeparated texts).toList ++ [']']) := by simp
    rw [letters]
    refine .mark rfl ?_
    exact (reads_commaSeparated pushes _).closed rfl (closeSquare_shapes shapes _ ty stack)
  · cases brackets
    have letters : ("<" ++ commaSeparated texts ++ ">").toList =
        '<' :: ((commaSeparated texts).toList ++ ['>']) := by simp
    rw [letters]
    refine .mark rfl ?_
    exact (reads_commaSeparated pushes _).closed rfl (closeAngle_shapes shapes _ ty stack)
  · cases brackets
    have letters : ("<\x7b " ++ commaSeparated texts ++ " \x7d>").toList = '<' ::
        (('\x7b' :: ' ' :: (((commaSeparated texts).toList ++ [' ']) ++ ['\x7d'])) ++ ['>']) := by
      simp
    rw [letters]
    refine .mark rfl ?_
    exact (reads_members pushes (closeBrace_members shapes '<' _)).closed rfl rfl
  · cases brackets
    have letters : ("\x7b " ++ commaSeparated texts ++ " \x7d").toList = '\x7b' ::
        ' ' :: (((commaSeparated texts).toList ++ [' ']) ++ ['\x7d']) := by simp
    rw [letters]
    exact reads_members pushes (closeBrace_shapes shapes ty stack)
  · cases brackets

/-- The constant of the operands between the parentheses, whether the pointee is written in front of
them or not. -/
theorem closeRound_operands (filled : shapes ≠ []) (pointees : List Ty)
    (words : List (List Char)) (ty : Ty) (stack : List Item) :
    closeRound ((shapes.map Item.shape).reverse ++ ((pointees.map Item.ty).reverse ++
      .opening '(' :: ((words.map Item.word).reverse ++ .ty ty :: stack))) =
    .shape (.elementPointer ty words shapes) :: stack := by
  have lacks : Lacks Item.shape? ((pointees.map Item.ty).reverse ++
      .opening '(' :: ((words.map Item.word).reverse ++ .ty ty :: stack)) :=
    forall_top (P := Lacks Item.shape?) .ty pointees (fun _ _ => rfl) rfl
  have operands := gather_shapes shapes lacks
  have pointee : gather Item.ty? ((pointees.map Item.ty).reverse ++
      .opening '(' :: ((words.map Item.word).reverse ++ .ty ty :: stack)) =
      (pointees, .opening '(' :: ((words.map Item.word).reverse ++ .ty ty :: stack)) :=
    gather_map _ Item.ty (fun _ => rfl) rfl pointees
  -- A shape on top tells operands from parameters.
  obtain ⟨front, last, rfl⟩ := (List.eq_nil_or_concat' shapes).resolve_left filled
  rw [List.map_append, List.reverse_append] at operands ⊢
  have opens : ∀ below, closeRound (([last].map Item.shape).reverse ++ below) =
      closeOperands (([last].map Item.shape).reverse ++ below) := fun _ => rfl
  rw [List.append_assoc] at operands ⊢
  rw [opens, closeOperands]
  simp only [operands, pointee, gather_words]

/-- The pointee in front of the operands, where the dialect names it. -/
theorem reads_explicitPointee {dialect : Dialect} {base : Ty} {pointee : String}
    (written : explicitPointee dialect base = .ok pointee) (plain : base.PlainlyNamed) :
    ∃ pointees : List Ty, ∀ {back : List Char} {stack after : List Item},
      Reads back ((pointees.map Item.ty).reverse ++ stack) after →
      Reads (pointee.toList ++ back) stack after := by
  unfold explicitPointee at written
  split at written
  · cases base with
    | ptr target =>
      cases written
      refine ⟨[target.outline], fun {back stack after} rest => ?_⟩
      have typed := target.pushes_outline plain.ptr
      have letters : (target.text ++ ", ").toList ++ back =
          target.text.toList ++ ',' :: ' ' :: back := by simp
      rw [letters]
      refine (typed.reads stack).punctuated rfl ?_
      refine .mark rfl ?_
      have same : punctuate ' ' (punctuate ',' (.ty target.outline :: stack)) =
          .ty target.outline :: stack := rfl
      rwa [same]
    | _ => cases written
  · cases written
    exact ⟨[], fun rest => rest⟩

theorem reads_elementPointer {dialect : Dialect} {base : Ty} {pointee : String}
    (written : explicitPointee dialect base = .ok pointee) (plain : base.PlainlyNamed)
    (pushes : PushesEach .shape texts shapes)
    (filled : shapes ≠ []) (inbounds : Bool) (ty : Ty) (stack : List Item) :
    Reads ("getelementptr" ++ (if inbounds then " inbounds" else "") ++ " (" ++ pointee ++
        commaSeparated texts ++ ")").toList (.ty ty :: stack)
      (.shape (.elementPointer ty ((addressWords inbounds).map String.toList) shapes) ::
        stack) := by
  have letters : ("getelementptr" ++ (if inbounds then " inbounds" else "") ++ " (" ++ pointee ++
      commaSeparated texts ++ ")").toList =
      (addressWords inbounds).flatMap (fun word => word.toList ++ [' ']) ++ '(' ::
        (pointee.toList ++ ((commaSeparated texts).toList ++ [')'])) := by
    cases inbounds <;> simp [addressWords]
  have known : ∀ word ∈ addressWords inbounds, word.toList ∈ partWords := by
    cases inbounds <;> decide +kernel
  obtain ⟨pointees, front⟩ := reads_explicitPointee written plain
  rw [letters]
  refine .words known ?_
  refine .mark rfl ?_
  refine front ?_
  exact (reads_commaSeparated pushes _).closed rfl (closeRound_operands filled pointees _ ty stack)

end Lists

/-- A constant behind its type. -/
theorem Pushes.behind {tyText text : String} {ty : Ty} {shape : Shape}
    (typed : Pushes tyText (.ty ty))
    (reads : ∀ stack, Reads text.toList (.ty ty :: stack) (.shape shape :: stack)) :
    Pushes (tyText ++ " " ++ text) (.shape shape) where
  reads stack := by
    have letters : (tyText ++ " " ++ text).toList = tyText.toList ++ ' ' :: text.toList := by simp
    rw [letters]
    refine (typed.reads stack).punctuated rfl ?_
    rw [typed.blank]
    exact reads stack
  solid := nofun

end Reading

open Reading

namespace Constant

variable {dialect : Dialect}

theorem Canonical.pushes_shape_of {constant : Constant} (canonical : constant.Canonical)
    {text : String} (reads : ∀ stack, Reads text.toList (.ty constant.ty.outline :: stack)
      (.shape constant.shape :: stack)) :
    Pushes (constant.ty.text ++ " " ++ text) (.shape constant.shape) :=
  (constant.ty.pushes_outline canonical.plain).behind reads

theorem pushes_shapes {items : List Constant} (canonical : ∀ item ∈ items, item.Canonical)
    (each : ∀ item ∈ items, ∀ {text}, item.text dialect = .ok text →
      ∀ stack, Reads text.toList (.ty item.ty.outline :: stack) (.shape item.shape :: stack))
    {texts : List String} (written : typedTexts dialect items = .ok texts) :
    PushesEach .shape texts (shapes items) := by
  induction items generalizing texts with
  | nil =>
    cases written
    exact .nil
  | cons item items ih =>
    obtain ⟨own, others⟩ := List.forall_mem_cons.mp canonical
    obtain ⟨ownReads, othersRead⟩ := List.forall_mem_cons.mp each
    rw [typedTexts] at written
    obtain ⟨first, ownWritten, written⟩ := of_bind_eq_ok written
    obtain ⟨rest, othersWritten, written⟩ := of_bind_eq_ok written
    cases written
    exact .cons (own.pushes_shape_of (ownReads ownWritten)) (ih others othersRead othersWritten)

/-- In either dialect a constant with plain names is read as its shape behind its type. -/
theorem Canonical.reads_shape {constant : Constant} (canonical : constant.Canonical)
    {text : String} (written : constant.text dialect = .ok text) (stack : List Item) :
    Reads text.toList (.ty constant.ty.outline :: stack) (.shape constant.shape :: stack) := by
  -- Over any stack, since what is inside brackets is read on top of what the brackets follow.
  induction canonical generalizing text stack with
  | int =>
    cases written
    exact reads_atom (isAtom_integerText ..) ..
  | bigInt =>
    cases written
    exact reads_atom (isAtom_toString _) ..
  | float =>
    cases written
    exact reads_atom (isAtom_literal _) ..
  | null | undef | zero =>
    cases written
    exact reads_atom (isAtom_atomWords (by decide)) ..
  | global =>
    cases written
    exact reads_globalName ..
  | inlineAsm =>
    cases written
    exact reads_inlineAsm ..
  | aggregate plain bracketed each ih =>
    rw [Constant.text] at written
    obtain ⟨⟨opening, closing⟩, brackets, written⟩ := of_bind_eq_ok written
    obtain ⟨texts, items, written⟩ := of_bind_eq_ok written
    cases written
    exact reads_aggregate brackets (pushes_shapes each ih items) ..
  | elementPointer plain start each baseIh ih =>
    rw [Constant.text] at written
    obtain ⟨pointee, pointeeWritten, written⟩ := of_bind_eq_ok written
    obtain ⟨baseText, baseWritten, written⟩ := of_bind_eq_ok written
    obtain ⟨texts, items, written⟩ := of_bind_eq_ok written
    cases written
    have operands : PushesEach .shape (_ :: texts) (_ :: _) :=
      .cons (start.pushes_shape_of (baseIh baseWritten)) (pushes_shapes each ih items)
    exact reads_elementPointer pointeeWritten start.plain operands (List.cons_ne_nil _ _) ..

theorem Canonical.pushes_shape {constant : Constant} (canonical : constant.Canonical)
    {text : String} (written : constant.typedText dialect = .ok text) :
    Pushes text (.shape constant.shape) := by
  obtain ⟨own, ownWritten, written⟩ := of_bind_eq_ok written
  cases written
  exact canonical.pushes_shape_of (canonical.reads_shape ownWritten)

end Constant

end IrAssembly
