import IrAssembly.Assembly.Operand
import IrAssembly.Proofs.Text.Digits
import Mathlib.Data.List.Forall2
import Mathlib.Data.List.Induction

/-! A reader of types and constants. It takes a text character by character and keeps what it has
read so far on a stack, where a closing bracket gathers what was read since the bracket was opened.
It takes more than is ever written; what matters is what it makes of texts that are. -/

namespace IrAssembly

/-- What a constant shows of itself: its type, without the bodies of named types, and its words and
strings as they are spelled. -/
inductive Shape where
  | atom (ty : Ty) (letters : List Char)
  | aggregate (ty : Ty) (elements : List Shape)
  | asm (ty : Ty) (words : List (List Char)) (body constraints : List Char)
  | elementPointer (ty : Ty) (words : List (List Char)) (operands : List Shape)

namespace Reading

/-- What lies on the stack. -/
inductive Item where
  | ty (ty : Ty)
  | word (letters : List Char)
  | quoted (letters : List Char)
  | shape (shape : Shape)
  /-- The members of a packed structure whose outer bracket is still open. -/
  | members (elements : List Shape)
  | opening (bracket : Char)
  /-- An open brace with a blank behind it. -/
  | body

namespace Item

def ty? : Item → Option Ty
  | ty found => some found
  | _ => none

def word? : Item → Option (List Char)
  | word letters => some letters
  | _ => none

def shape? : Item → Option Shape
  | shape found => some found
  | _ => none

end Item

/-- The items of one sort on top of a stack in the order in which they were read, and what is below
them. -/
def gather {α : Type} (sort : Item → Option α) : List Item → List α × List Item
  | [] => ([], [])
  | item :: below =>
    match sort item with
    | some found => ((gather sort below).1 ++ [found], (gather sort below).2)
    | none => ([], item :: below)

/-! Words -/

def keywordTys : List Ty :=
  [.void, .label, .metadata, .float .half, .float .single, .float .double, .float .x87,
    .float .quad]

def number (letters : List Char) : Nat := Nat.ofDigitChars 10 letters 0

/-- The type that a word stands for. -/
def wordTy? : List Char → Option Ty
  | '%' :: name => some (.bodiless (String.ofList name))
  | 'i' :: digits => if digits.all Char.isDigit then some (.int (.ofNat (number digits))) else none
  | letters => keywordTys.find? fun ty => ty.text.toList = letters

/-- The words that are neither types nor constants. -/
def partWords : List (List Char) :=
  ["...", "asm", "sideeffect", "alignstack", "getelementptr", "inbounds", "@"].map String.toList

/-- A word is a type, or it makes a constant of the type in front of it, or it is part of
something. -/
def pushWord (letters : List Char) (stack : List Item) : List Item :=
  if letters = [] then stack
  else
    match wordTy? letters, stack with
    | some ty, _ => .ty ty :: stack
    | none, .ty ty :: below =>
      if letters ∈ partWords then .word letters :: stack else .shape (.atom ty letters) :: below
    | none, _ => .word letters :: stack

/-- A string ends the name of a global variable, or it is one of the two strings of inline
assembly. -/
def pushQuoted (letters : List Char) : List Item → List Item
  | .word ['@'] :: .ty ty :: below =>
    .shape (.atom ty ('@' :: '"' :: (letters ++ ['"']))) :: below
  | .quoted body :: below =>
    match gather Item.word? below with
    | (words, .ty ty :: below) => .shape (.asm ty words body letters) :: below
    | _ => below
  | stack => .quoted letters :: stack

/-! Brackets -/

def closeAggregate (stack : List Item) : List Item :=
  match gather Item.shape? stack with
  | (elements, .opening _ :: .ty ty :: below) => .shape (.aggregate ty elements) :: below
  | _ => stack

def closeSquare : List Item → List Item
  | .ty element :: .word _ :: .word len :: .opening _ :: below =>
    .ty (.array (.ofNat (number len)) element) :: below
  | stack => closeAggregate stack

def closeAngle : List Item → List Item
  | .ty element :: .word _ :: .word len :: .opening _ :: below =>
    .ty (.vector (.ofNat (number len)) element) :: below
  | .ty (.struct name fields _) :: .opening _ :: below => .ty (.struct name fields true) :: below
  | .members elements :: .opening _ :: .ty ty :: below => .shape (.aggregate ty elements) :: below
  | stack => closeAggregate stack

def closeFields (stack : List Item) : List Item :=
  match gather Item.ty? stack with
  | (fields, .body :: below) => .ty (.struct none fields false) :: below
  | _ => stack

def closeElements (stack : List Item) : List Item :=
  match gather Item.shape? stack with
  | (elements, .body :: .ty ty :: below) => .shape (.aggregate ty elements) :: below
  | (elements, .body :: below) => .members elements :: below
  | _ => stack

def closeBrace : List Item → List Item
  | .opening _ :: below => .ty (.struct none [] false) :: below
  | .ty ty :: below => closeFields (.ty ty :: below)
  | stack => closeElements stack

/-- The operands of an address computation, its pointee left out. -/
def closeOperands (stack : List Item) : List Item :=
  match gather Item.shape? stack with
  | (operands, below) =>
    match gather Item.ty? below with
    | (_, .opening _ :: below) =>
      match gather Item.word? below with
      | (words, .ty ty :: below) => .shape (.elementPointer ty words operands) :: below
      | _ => stack
    | _ => stack

def closeParameters (stack : List Item) : List Item :=
  match gather Item.word? stack with
  | (dots, below) =>
    match gather Item.ty? below with
    | (params, .opening _ :: .ty result :: below) =>
      .ty (.func result params (!dots.isEmpty)) :: below
    | _ => stack

def closeRound : List Item → List Item
  | .shape shape :: below => closeOperands (.shape shape :: below)
  | stack => closeParameters stack

/-- What a character between words does. -/
def punctuate (char : Char) (stack : List Item) : List Item :=
  match char, stack with
  | ' ', .opening '\x7b' :: below => .body :: below
  | '*', .ty ty :: below => .ty (.ptr ty) :: below
  | '[', _ | '<', _ | '(', _ | '\x7b', _ => .opening char :: stack
  | ']', _ => closeSquare stack
  | '>', _ => closeAngle stack
  | ')', _ => closeRound stack
  | '\x7d', _ => closeBrace stack
  | _, _ => stack

theorem punctuate_square (stack : List Item) : punctuate ']' stack = closeSquare stack := rfl

theorem punctuate_angle (stack : List Item) : punctuate '>' stack = closeAngle stack := rfl

/-- A blank matters only behind an open brace. -/
theorem punctuate_blank {stack : List Item} (solid : stack.head? ≠ some (.opening '\x7b')) :
    punctuate ' ' stack = stack := by
  cases stack with
  | nil => rfl
  | cons item below =>
    have other : item ≠ .opening '\x7b' := fun same => solid (same ▸ rfl)
    cases item with
    | opening bracket =>
      unfold punctuate
      split <;> simp_all
    | _ => rfl

/-! Texts -/

/-- The characters that words consist of. -/
def isLetter (char : Char) : Bool := isNameChar char || char == '%' || char == '@'

/-- The characters that stand between words, quotes apart. -/
def isMark (char : Char) : Bool := !isLetter char && char != '"'

/-- A stack, the letters of the word or string that is being read, and whether it is a string. -/
structure State where
  stack : List Item
  letters : List Char
  inQuotes : Bool

def State.step (state : State) (char : Char) : State :=
  if state.inQuotes then
    if char = '"' then ⟨pushQuoted state.letters state.stack, [], false⟩
    else ⟨state.stack, state.letters ++ [char], true⟩
  else if isLetter char then ⟨state.stack, state.letters ++ [char], false⟩
  else ⟨punctuate char (pushWord state.letters state.stack), [], char == '"'⟩

/-- To read a text turns one stack into another. -/
def Reads (text : List Char) (before after : List Item) : Prop :=
  let state := text.foldl State.step ⟨before, [], false⟩
  state.inQuotes = false ∧ pushWord state.letters state.stack = after

namespace Reads

variable {text front back letters : List Char} {before middle after other : List Item} {char : Char}

theorem unique (reads : Reads text before after) (too : Reads text before other) : after = other :=
  reads.2.symm.trans too.2

theorem nil (stack : List Item) : Reads [] stack stack := ⟨rfl, rfl⟩

theorem foldl_letters (whole : letters.all isLetter = true) (stack : List Item)
    (start : List Char) :
    letters.foldl State.step ⟨stack, start, false⟩ = ⟨stack, start ++ letters, false⟩ := by
  induction letters generalizing start with
  | nil => simp
  | cons char letters ih =>
    rw [List.all_cons, Bool.and_eq_true] at whole
    have step : State.step ⟨stack, start, false⟩ char = ⟨stack, start ++ [char], false⟩ := by
      simp [State.step, whole.1]
    rw [List.foldl_cons, step, ih whole.2, List.append_assoc, List.singleton_append]

theorem foldl_quoted (none : '"' ∉ letters) (stack : List Item) (start : List Char) :
    letters.foldl State.step ⟨stack, start, true⟩ = ⟨stack, start ++ letters, true⟩ := by
  induction letters generalizing start with
  | nil => simp
  | cons char letters ih =>
    obtain ⟨first, others⟩ := not_or.mp (mt List.mem_cons.mpr none)
    have step : State.step ⟨stack, start, true⟩ char = ⟨stack, start ++ [char], true⟩ := by
      simp [State.step, Ne.symm first]
    rw [List.foldl_cons, step, ih others, List.append_assoc, List.singleton_append]

theorem word (letters : List Char) (whole : letters.all isLetter = true)
    (stack : List Item) : Reads letters stack (pushWord letters stack) := by
  unfold Reads
  dsimp only
  rw [foldl_letters whole, List.nil_append]
  exact ⟨rfl, rfl⟩

/-- A character between words acts once the word in front of it is pushed. -/
theorem punctuated (reads : Reads front before middle) (mark : isMark char = true)
    (rest : Reads back (punctuate char middle) after) :
    Reads (front ++ char :: back) before after := by
  unfold Reads at reads rest ⊢
  dsimp only at reads rest ⊢
  rw [List.foldl_append, List.foldl_cons]
  generalize front.foldl State.step ⟨before, [], false⟩ = state at *
  have step : state.step char = ⟨punctuate char middle, [], false⟩ := by
    simp only [isMark, Bool.and_eq_true, Bool.not_eq_true', bne_iff_ne] at mark
    simp [State.step, reads.1, reads.2, mark]
  rwa [step]

theorem mark (mark : isMark char = true) (rest : Reads back (punctuate char before) after) :
    Reads (char :: back) before after :=
  (nil before).punctuated mark rest

theorem closed (reads : Reads front before middle) (mark : isMark char = true)
    (same : punctuate char middle = after) : Reads (front ++ [char]) before after :=
  reads.punctuated mark (same ▸ nil _)

theorem quoted (reads : Reads front before middle) (none : '"' ∉ letters)
    (rest : Reads back (pushQuoted letters middle) after) :
    Reads (front ++ '"' :: (letters ++ '"' :: back)) before after := by
  unfold Reads at reads rest ⊢
  dsimp only at reads rest ⊢
  rw [List.foldl_append, List.foldl_cons]
  generalize front.foldl State.step ⟨before, [], false⟩ = state at *
  have start : state.step '"' = ⟨middle, [], true⟩ := by
    have noLetter : isLetter '"' = false := by decide
    simp [State.step, reads.1, reads.2, noLetter, punctuate]
  have finish : State.step ⟨middle, letters, true⟩ '"' =
      ⟨pushQuoted letters middle, [], false⟩ := by
    simp [State.step]
  rwa [start, List.foldl_append, List.foldl_cons, foldl_quoted none, List.nil_append, finish]

theorem string (none : '"' ∉ letters) (rest : Reads back (pushQuoted letters before) after) :
    Reads ('"' :: (letters ++ '"' :: back)) before after :=
  (nil before).quoted none rest

end Reads

/-! What words and lists do -/

section Stack

variable {letters : List Char} {stack : List Item} {ty : Ty}

/-- What lies on the top of a stack is not of a sort. -/
abbrev Lacks {α : Type} (sort : Item → Option α) (stack : List Item) : Prop :=
  stack.head?.bind sort = none

theorem gather_nil {α : Type} {sort : Item → Option α} (lacks : Lacks sort stack) :
    gather sort stack = ([], stack) := by
  cases stack with
  | nil => rfl
  | cons item below =>
    have none : sort item = none := lacks
    simp [gather, none]

theorem gather_map {α : Type} (sort : Item → Option α) (make : α → Item)
    (sorted : ∀ found, sort (make found) = some found) (lacks : Lacks sort stack)
    (found : List α) : gather sort ((found.map make).reverse ++ stack) = (found, stack) := by
  -- The item read last lies on top.
  induction found using List.reverseRecOn with
  | nil => exact gather_nil lacks
  | append_singleton found last ih =>
    rw [List.map_append, List.reverse_append, List.map_singleton, List.reverse_singleton,
      List.singleton_append, List.cons_append, gather, sorted, ih]

/-- On top of some items of one sort and of what is below them lies one of them, unless there is
none. -/
theorem forall_top {α : Type} {P : List Item → Prop} (make : α → Item) (found : List α)
    (top : ∀ item below, P (make item :: below)) (bare : P stack) :
    P ((found.map make).reverse ++ stack) := by
  rcases List.eq_nil_or_concat' found with rfl | ⟨front, last, rfl⟩
  · exact bare
  · rw [List.map_append, List.reverse_append]
    exact top last _

theorem pushWord_ty (found : wordTy? letters = some ty) :
    pushWord letters stack = .ty ty :: stack := by
  have filled : letters ≠ [] := by
    rintro rfl
    have none : wordTy? [] = none := by decide +kernel
    rw [none] at found
    cases found
  unfold pushWord
  rw [if_neg filled]
  simp only [found]

theorem pushWord_atom (filled : letters ≠ []) (none : wordTy? letters = none)
    (complete : letters ∉ partWords) :
    pushWord letters (.ty ty :: stack) = .shape (.atom ty letters) :: stack := by
  unfold pushWord
  rw [if_neg filled]
  simp only [none, if_neg complete]

theorem pushWord_word (filled : letters ≠ []) (none : wordTy? letters = none)
    (part : letters ∈ partWords ∨ Lacks Item.ty? stack) :
    pushWord letters stack = .word letters :: stack := by
  unfold pushWord
  rw [if_neg filled]
  rcases stack with _ | ⟨item, below⟩
  · simp only [none]
  · cases item with
    | ty ty =>
      have known := part.resolve_right (fun lacks => by cases lacks)
      simp only [none, if_pos known]
    | _ => simp only [none]

theorem Reads.part (known : letters ∈ partWords) (stack : List Item) :
    Reads letters stack (.word letters :: stack) := by
  have words : ∀ letters ∈ partWords, letters ≠ [] ∧ wordTy? letters = none ∧
      letters.all isLetter = true := by decide +kernel
  obtain ⟨filled, none, whole⟩ := words letters known
  have read := Reads.word letters whole stack
  rwa [pushWord_word filled none (.inl known)] at read

end Stack

/-- A text that is read as one item, whatever lies on the stack: inside brackets that is what was
read in front of it. A blank behind it changes nothing. -/
structure Pushes (text : String) (item : Item) : Prop where
  reads : ∀ stack, Reads text.toList stack (item :: stack)
  solid : item ≠ .opening '\x7b'

namespace Pushes

variable {text : String} {item : Item}

theorem blank (pushes : Pushes text item) (stack : List Item) :
    punctuate ' ' (item :: stack) = item :: stack :=
  punctuate_blank fun same => pushes.solid (Option.some.inj same)

end Pushes

/-- Texts that are read one by one as items of one sort. -/
abbrev PushesEach {α : Type} (make : α → Item) (texts : List String) (found : List α) : Prop :=
  List.Forall₂ Pushes texts (found.map make)

/-- The items of a list come to lie on each other. -/
theorem reads_commaSeparated {texts : List String} {items : List Item}
    (pushes : List.Forall₂ Pushes texts items) (stack : List Item) :
    Reads (commaSeparated texts).toList stack (items.reverse ++ stack) := by
  induction pushes generalizing stack with
  | nil => exact .nil stack
  | @cons text item texts items first others ih =>
    cases others with
    | nil => simpa [commaSeparated] using first.reads stack
    | @cons next _ texts items =>
      have letters : (commaSeparated (text :: next :: texts)).toList =
          text.toList ++ ',' :: ' ' :: (commaSeparated (next :: texts)).toList := by
        simp [commaSeparated, String.intercalate_cons_cons]
      rw [letters]
      refine (first.reads stack).punctuated rfl ?_
      refine .mark rfl ?_
      have same : punctuate ' ' (punctuate ',' (item :: stack)) = item :: stack :=
        first.blank stack
      rw [same]
      simpa using ih (item :: stack)

end Reading

end IrAssembly
