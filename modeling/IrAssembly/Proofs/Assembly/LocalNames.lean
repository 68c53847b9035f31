import IrAssembly.Assembly.Listing
import IrAssembly.Proofs.Builder.Naming
import IrAssembly.Proofs.Text.Digits

/-! The names that a function gives to its parameters, results and blocks when it is written. They
share one space of names: parameters and entered blocks have a stem of their own, results and the
blocks that were never entered are written as bare numbers. -/

namespace IrAssembly

/-- How a generated name starts. -/
inductive Stem where
  | argument
  | label
  | bare

namespace Stem

def text : Stem → String
  | argument => "arg_"
  | label => "label_"
  | bare => ""

/-- A generated name. -/
def numbered (stem : Stem) (number : Nat) : String := stem.text ++ toString number

/-- The first characters of the generated names. -/
def StartsWith : Stem → Char → Prop
  | argument, char => char = 'a'
  | label, char => char = 'l'
  | bare, char => char.isDigit = true

theorem StartsWith.unique {first second : Stem} {char : Char} (starts : first.StartsWith char)
    (otherStarts : second.StartsWith char) : first = second := by
  cases first <;> cases second <;> simp_all [StartsWith]

theorem toList_numbered (stem : Stem) (number : Nat) :
    (stem.numbered number).toList = stem.text.toList ++ Nat.toDigits 10 number := by
  rw [numbered, String.toList_append, Text.toList_toString]

theorem exists_head_numbered (stem : Stem) (number : Nat) :
    ∃ char others, (stem.numbered number).toList = char :: others ∧ stem.StartsWith char := by
  rw [toList_numbered]
  cases stem with
  | argument => exact ⟨'a', _, rfl, rfl⟩
  | label => exact ⟨'l', _, rfl, rfl⟩
  | bare =>
    obtain ⟨first, others, spelled, digit⟩ := Text.exists_toDigits_eq_cons number
    exact ⟨first, others, spelled, digit⟩

/-- Generated names tell their stem and their number. -/
theorem numbered_injective {first second : Stem} {number other : Nat}
    (same : first.numbered number = second.numbered other) : first = second ∧ number = other := by
  obtain ⟨char, _, spelled, starts⟩ := exists_head_numbered first number
  obtain ⟨otherChar, _, otherSpelled, otherStarts⟩ := exists_head_numbered second other
  have heads : char = otherChar := by
    rw [same, otherSpelled] at spelled
    exact (List.cons.inj spelled).1.symm
  have stems : first = second := starts.unique (heads ▸ otherStarts)
  subst stems
  have lists := congrArg String.toList same
  rw [toList_numbered, toList_numbered] at lists
  exact ⟨rfl, Text.toDigits_injective (List.append_cancel_left lists)⟩

theorem all_isNameChar_text (stem : Stem) : stem.text.toList.all isNameChar = true := by
  cases stem <;> decide

/-- A generated name never needs quotes. -/
theorem isPlainName_numbered (stem : Stem) (number : Nat) :
    isPlainName (stem.numbered number).toList = true := by
  obtain ⟨char, others, spelled, starts⟩ := exists_head_numbered stem number
  have words : (stem.numbered number).toList.all isNameChar = true := by
    rw [toList_numbered, List.all_append, all_isNameChar_text, Bool.true_and]
    refine List.all_eq_true.mpr fun char member => ?_
    simp [isNameChar, Char.isAlphanum, Text.isDigit_of_mem_toDigits member]
  cases stem with
  | argument =>
    rw [spelled] at words ⊢
    cases starts
    simp [isPlainName, words]
  | label =>
    rw [spelled] at words ⊢
    cases starts
    simp [isPlainName, words]
  | bare =>
    have digits : (bare.numbered number).toList.all Char.isDigit = true := by
      rw [toList_numbered]
      exact List.all_eq_true.mpr fun _ member => Text.isDigit_of_mem_toDigits member
    rw [spelled] at digits ⊢
    simp [isPlainName, digits]

theorem localName_numbered (stem : Stem) (number : Nat) :
    localName (stem.numbered number) = "%" ++ stem.numbered number := by
  rw [localName, spelledName, if_pos (isPlainName_numbered stem number)]

end Stem

/-- What a name local to a function denotes. -/
inductive LocalEntity where
  | parameter (index : Nat)
  | result (id : InstId)
  | block (ref : BlockRef)
  deriving DecidableEq, Repr

namespace FunctionDef

/-- The name that an entity of the function is written with. -/
def localText? (function : FunctionDef) : LocalEntity → Option String
  | .parameter index => (function.parameters[index]?).map fun formal => localName formal.name
  | .result id =>
    ((function.instruction? id).bind Instruction.result?).map fun slot => localName slot.name
  | .block ref => (function.blockName ref).toOption

/-- A block that was never entered stands at the position that is also the number of a result. -/
def SharesNumber (function : FunctionDef) : LocalEntity → LocalEntity → Prop
  | .block ref, .result id | .result id, .block ref =>
    function.labelOf ref = none ∧ function.indexOf ref = function.resultCount (id + 1)
  | _, _ => False

/-- The stem of an entity's generated name. -/
def stemOf (function : FunctionDef) : LocalEntity → Stem
  | .parameter _ => .argument
  | .result _ => .bare
  | .block ref => if (function.labelOf ref).isSome then .label else .bare

/-- The number in an entity's generated name. -/
def numberOf (function : FunctionDef) : LocalEntity → Nat
  | .parameter index => index + 1
  | .result id => function.resultCount (id + 1)
  | .block ref => function.indexOf ref

variable {function : FunctionDef}

theorem stemOf_block_ne (ref : BlockRef) : function.stemOf (.block ref) ≠ .argument := by
  simp only [stemOf]
  split <;> simp

theorem stemOf_block_eq_iff (ref : BlockRef) :
    function.stemOf (.block ref) = .bare ↔ function.labelOf ref = none := by
  cases label : function.labelOf ref <;> simp [stemOf, label]

/-- The text of a block that the function has. -/
theorem blockName_eq {ref : BlockRef} {text : String}
    (printed : function.localText? (.block ref) = some text) :
    function.HasBlock ref ∧
      text = match function.labelOf ref with
        | some name => localName name
        | none => "%" ++ toString (function.indexOf ref) := by
  cases found : function.block? ref with
  | none => simp [localText?, blockName, found, Except.toOption] at printed
  | some block =>
    refine ⟨(List.getElem?_eq_some_iff.mp found).1, ?_⟩
    obtain ⟨id, index, name, instructions⟩ := block
    cases name <;>
      simpa [localText?, blockName, labelOf, indexOf, found, Except.toOption, eq_comm] using printed

/-- Two results with the same number are the same. -/
theorem resultCount_injective {id other : InstId} {slot otherSlot : ResultSlot}
    (found : (function.instruction? id).bind Instruction.result? = some slot)
    (otherFound : (function.instruction? other).bind Instruction.result? = some otherSlot)
    (same : function.resultCount (id + 1) = function.resultCount (other + 1)) : id = other := by
  have counts {id : InstId} {slot : ResultSlot}
      (found : (function.instruction? id).bind Instruction.result? = some slot) :
      function.resultCount (id + 1) = function.resultCount id + 1 := by
    obtain ⟨instruction, present, result⟩ := Option.bind_eq_some_iff.mp found
    rw [resultCount_succ present, result]
    rfl
  rw [counts found, counts otherFound] at same
  rcases Nat.lt_trichotomy id other with before | equal | behind
  · have mono := function.resultCount_mono (Nat.succ_le_of_lt before)
    rw [Nat.succ_eq_add_one, counts found] at mono
    omega
  · exact equal
  · have mono := function.resultCount_mono (Nat.succ_le_of_lt behind)
    rw [Nat.succ_eq_add_one, counts otherFound] at mono
    omega

/-- Which entities have the same kind of name and the same number. -/
theorem sameName_iff (coherent : function.Coherent) {first second : LocalEntity}
    {firstText secondText : String} (firstPrinted : function.localText? first = some firstText)
    (secondPrinted : function.localText? second = some secondText) :
    function.stemOf first = function.stemOf second ∧
        function.numberOf first = function.numberOf second ↔
      first = second ∨ function.SharesNumber first second := by
  cases first with
  | parameter index =>
    cases second with
    | parameter other => simp [stemOf, numberOf, SharesNumber]
    | result other => simp [stemOf, SharesNumber]
    | block ref =>
      have differ : function.stemOf (.parameter index) ≠ function.stemOf (.block ref) :=
        (stemOf_block_ne ref).symm
      simp [differ, SharesNumber]
  | result id =>
    cases second with
    | parameter other => simp [stemOf, SharesNumber]
    | result other =>
      obtain ⟨slot, found, _⟩ := Option.map_eq_some_iff.mp firstPrinted
      obtain ⟨otherSlot, otherFound, _⟩ := Option.map_eq_some_iff.mp secondPrinted
      have injective := resultCount_injective found otherFound
      simp only [stemOf, numberOf, SharesNumber, true_and, or_false, LocalEntity.result.injEq]
      exact ⟨injective, fun same => same ▸ rfl⟩
    | block ref =>
      have stems : function.stemOf (.result id) = function.stemOf (.block ref) ↔
          function.labelOf ref = none := eq_comm.trans (stemOf_block_eq_iff ref)
      simp only [stems, numberOf, SharesNumber, reduceCtorEq, false_or, eq_comm]
  | block ref =>
    cases second with
    | parameter other =>
      have differ : function.stemOf (.block ref) ≠ function.stemOf (.parameter other) :=
        stemOf_block_ne ref
      simp [differ, SharesNumber]
    | result other =>
      have stems : function.stemOf (.block ref) = function.stemOf (.result other) ↔
          function.labelOf ref = none := stemOf_block_eq_iff ref
      simp only [stems, numberOf, SharesNumber, reduceCtorEq, false_or]
    | block other =>
      have placed := coherent.order_indexOf (blockName_eq firstPrinted).1
      have otherPlaced := coherent.order_indexOf (blockName_eq secondPrinted).1
      simp only [SharesNumber, or_false, LocalEntity.block.injEq]
      constructor
      · intro ⟨_, positions⟩
        rw [show function.indexOf ref = function.indexOf other from positions] at placed
        exact Option.some.inj (placed.symm.trans otherPlaced)
      · rintro rfl
        exact ⟨rfl, rfl⟩

end FunctionDef

namespace Builder

variable {builder : Builder} {entity : LocalEntity} {text : String}

/-- The text of an entity is generated from its kind and its number. -/
theorem localText_eq (ready : builder.Ready) (labelled : builder.Labelled)
    (parameters : builder.ParametersNumbered) (results : builder.ResultsNumbered)
    (printed : builder.function.localText? entity = some text) :
    text = localName
      ((builder.function.stemOf entity).numbered (builder.function.numberOf entity)) := by
  cases entity with
  | parameter index =>
    obtain ⟨formal, found, rfl⟩ := Option.map_eq_some_iff.mp printed
    exact congrArg localName (parameters.names index formal found)
  | result id =>
    obtain ⟨slot, found, rfl⟩ := Option.map_eq_some_iff.mp printed
    obtain ⟨instruction, present, result⟩ := Option.bind_eq_some_iff.mp found
    rw [results.names id instruction slot present result]
    rfl
  | block ref =>
    obtain ⟨inArena, rfl⟩ := FunctionDef.blockName_eq printed
    have placed := ready.coherent.order_indexOf inArena
    have label := labelled (builder.function.indexOf ref)
    rw [FunctionDef.labelAt_of_order placed] at label
    by_cases entered : 0 < builder.function.indexOf ref ∧
        builder.function.indexOf ref ≤ builder.position
    · rw [if_pos entered] at label
      simp only [label, FunctionDef.stemOf, FunctionDef.numberOf, Option.isSome_some, if_true]
      rfl
    · rw [if_neg entered] at label
      rw [Stem.localName_numbered]
      simp only [label, FunctionDef.stemOf, FunctionDef.numberOf]
      rfl

end Builder

namespace Session

variable {session : Session}

/-- In a function that is built without names of the caller, two entities are written alike only if
they are the same, or a block that was never entered has the number of a result as its position. -/
theorem localText_eq_iff (reached : Reached NamesNothing session) {first second : LocalEntity}
    {firstText secondText : String}
    (firstPrinted : session.builder.function.localText? first = some firstText)
    (secondPrinted : session.builder.function.localText? second = some secondText) :
    firstText = secondText ↔
      first = second ∨ session.builder.function.SharesNumber first second := by
  have ready := reached.sound.ready
  have spelled {entity : LocalEntity} {text : String} :=
    @Builder.localText_eq session.builder entity text ready reached.labelled
      reached.parametersNumbered reached.resultsNumbered
  rw [← FunctionDef.sameName_iff ready.coherent firstPrinted secondPrinted, spelled firstPrinted,
    spelled secondPrinted, Stem.localName_numbered, Stem.localName_numbered,
    String.append_right_inj]
  constructor
  · exact Stem.numbered_injective
  · intro ⟨stems, numbers⟩
    rw [stems, numbers]

/-- A block that is entered has a name of its own beside the results. -/
theorem entered_block_differs_from_result : ∃ session : Session, Reached NamesNothing session ∧
    session.builder.function.localText? (.block ⟨1⟩) = some "%label_1" ∧
    session.builder.function.localText? (.result 0) = some "%1" ∧
    ¬ session.builder.function.SharesNumber (.block ⟨1⟩) (.result 0) := by
  let fresh : FunctionDef := { name := "f", signature := ⟨.void, [], false⟩ }
  let opened : Session := ⟨⟨fresh.reserve 1, .x86_64, ⟨0⟩, 1, 1, none⟩, [], []⟩
  let operations : List Operation := [.allocate .i32, .nextBlock]
  have started : Reached NamesNothing opened := .start rfl
  have reached :=
    started.run (show Permitted NamesNothing opened operations from by decide +kernel)
  have block : (operations.foldl after opened).builder.function.localText? (.block ⟨1⟩) =
      some "%label_1" := by decide +kernel
  have result : (operations.foldl after opened).builder.function.localText? (.result 0) =
      some "%1" := by decide +kernel
  refine ⟨_, reached, block, result, fun shares => ?_⟩
  exact absurd ((localText_eq_iff reached block result).mpr (.inr shares)) (by decide)

/-- The branch to a block that is never entered reads like a use of the first result. -/
theorem unentered_block_reads_like_result : ∃ session : Session, Reached NamesNothing session ∧
    session.builder.function.localText? (.result 0) = some "%1" ∧
    session.builder.function.localText? (.block ⟨1⟩) = some "%1" ∧
    (session.builder.function.lines .v38).toOption = some ["define void @f() \x7b",
      "  %1 = alloca i32, align 4", "  br label %1", "", "; <label>:1", "\x7d"] := by
  let fresh : FunctionDef := { name := "f", signature := ⟨.void, [], false⟩ }
  let opened : Session := ⟨⟨fresh.reserve 1, .x86_64, ⟨0⟩, 1, 1, none⟩, [], []⟩
  have started : Reached NamesNothing opened := .start rfl
  have reached := started.run (show Permitted NamesNothing opened
    [.getBlock 1, .allocate .i32, .branch ⟨1⟩] from by decide +kernel)
  exact ⟨_, reached, by decide +kernel, by decide +kernel, by decide +kernel⟩

end Session

end IrAssembly
