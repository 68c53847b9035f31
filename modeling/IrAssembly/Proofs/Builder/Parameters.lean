import IrAssembly.Assembly.Listing
import IrAssembly.Proofs.Builder.Frame

/-! The parameters of a function and those that its signature declares. Parameters are made one at a
time, by direct changes and by builders. A function is finished only with as many as it declares;
their types are left to the caller, except where a builder takes the next declared one. -/

namespace IrAssembly

namespace FunctionDef

def parameterTys (function : FunctionDef) : List Ty := function.parameters.map Parameter.ty

/-- A change that at most makes one further parameter. -/
structure Lengthens (function : FunctionDef) (made : Option Ty) (after : FunctionDef) : Prop where
  signature : after.signature = function.signature
  finished : after.finished = function.finished
  tys : after.parameterTys = function.parameterTys ++ made.toList

theorem length_parameterTys (function : FunctionDef) :
    function.parameterTys.length = function.parameters.length := List.length_map ..

namespace Lengthens

variable {function middle after : FunctionDef} {made : Option Ty}

theorem refl (function : FunctionDef) : function.Lengthens none function :=
  ⟨rfl, rfl, (List.append_nil _).symm⟩

theorem trans (first : function.Lengthens none middle) (second : middle.Lengthens made after) :
    function.Lengthens made after where
  signature := second.signature.trans first.signature
  finished := second.finished.trans first.finished
  tys := by rw [second.tys, first.tys, Option.toList_none, List.append_nil]

theorem of_same (signature : after.signature = function.signature)
    (finished : after.finished = function.finished)
    (parameters : after.parameters = function.parameters) : function.Lengthens none after := by
  refine ⟨signature, finished, ?_⟩
  rw [parameterTys, parameters, Option.toList_none, List.append_nil]
  rfl

theorem withParameter (function : FunctionDef) (ty : Ty) (name : String) :
    function.Lengthens (some ty) (function.withParameter ty name).2 :=
  ⟨rfl, rfl, List.map_append ..⟩

/-- The new parameter is the last one. -/
theorem tyAt (lengthens : function.Lengthens made after) (position : Nat) :
    after.parameterTys[position]? =
      if position = function.parameters.length then made else function.parameterTys[position]? := by
  have length := function.length_parameterTys
  rw [lengthens.tys]
  split
  · rename_i last
    rw [List.getElem?_append_right (by omega), last, length, Nat.sub_self]
    cases made <;> rfl
  · rename_i other
    rcases Nat.lt_or_ge position function.parameterTys.length with present | behind
    · rw [List.getElem?_append_left present]
    · rw [List.getElem?_append_right behind, List.getElem?_eq_none behind]
      apply List.getElem?_eq_none
      have single : made.toList.length ≤ 1 := by cases made <;> simp
      omega

end Lengthens

end FunctionDef

/-! Operations -/

namespace Build

variable {α : Type} {layout : DataLayout} {given : List Nat} {moves : Bool} {step : Build α}
  {builder : Builder}

/-- However the step ends, it has at most made this parameter. -/
abbrev Lengthens (made : Option Ty) (step : Build α) (builder : Builder) : Prop :=
  Ends step builder (fun _ after => builder.function.Lengthens made after.function)
    fun _ after => builder.function.Lengthens made after.function

/-- Steps that may not make parameters make none. -/
theorem Straight.lengthens (straight : Straight layout given moves false step)
    (same : builder.layout = layout) (isOpen : builder.function.finished = false) :
    Lengthens none step builder := by
  generalize stays : false = makes at straight
  induction straight generalizing builder with
  | done value => exact .refl _
  | refuse error => exact .refl _
  | look blind rest ih =>
    rw [Lengthens, ends_bind, ends_get]
    exact ih builder same isOpen
  | byLayout rest ih =>
    rw [Lengthens, ends_bind, ends_layout, same]
    exact ih same isOpen
  | encoded asked => exact ends_encoded (fun _ => .refl _) fun _ _ => .refl _
  | symbol value =>
    rw [Lengthens, ends_symbol isOpen]
    exact .of_same rfl rfl rfl
  | emit instruction =>
    rw [Lengthens, ends_emit isOpen]
    exact .of_same rfl rfl rfl
  | emitValue ty instruction =>
    rw [Lengthens, ends_emitValue isOpen]
    unfold Builder.spendName
    split <;> exact .of_same rfl rfl rfl
  | createParameter allowed ty => exact absurd (stays.trans allowed) Bool.false_ne_true
  | setNextName name => exact .refl _
  | nextBlock allowed =>
    rw [Lengthens, ends_nextBlock isOpen]
    simp only [Builder.enterNext, Builder.enter]
    split <;> exact .of_same rfl rfl rfl
  | bind first rest firstIh restIh =>
    subst stays
    rw [Lengthens, ends_bind]
    refine ((first.continues same isOpen).and (firstIh same isOpen)).mono ?_ ?_
    · rintro value middle ⟨continues, lengthens⟩
      refine (restIh value (continues.layout.trans same)
        (continues.finished.trans isOpen)).mono ?_ ?_
      · exact fun _ _ further => lengthens.trans further
      · exact fun _ _ further => lengthens.trans further
    · exact fun _ _ failed => failed.2

end Build

namespace Operation

variable {builder : Builder}

/-- The type of the parameter that an operation makes, if it makes one. -/
def parameterTy? (operation : Operation) (builder : Builder) : Option Ty :=
  match operation with
  | createParameter ty => some ty
  | nextParameter => builder.function.signature.params[builder.argCounter - 1]?
  | _ => none

theorem parameterTy?_eq_none {operation : Operation} (makes : operation.makesParameter = false) :
    operation.parameterTy? builder = none := by
  cases operation <;> first | rfl | cases makes

theorem lengthens_of_opening {opened : Builder} {count : Nat}
    (opening : builder.Opening count opened) :
    builder.function.Lengthens none opened.function := by
  cases opening <;> exact .of_same rfl rfl rfl

theorem run_createParameter_lengthens (isOpen : builder.function.finished = false) (ty : Ty) :
    Build.Lengthens (some ty) (run (.createParameter ty)) builder := by
  rw [Build.Lengthens, run, Build.ends_map, Build.ends_createParameter isOpen]
  exact .withParameter ..

theorem run_nextParameter_lengthens (isOpen : builder.function.finished = false) :
    Build.Lengthens (nextParameter.parameterTy? builder) (run .nextParameter) builder := by
  rw [Build.Lengthens, run, Build.ends_map, Build.nextParameter, Build.ends_bind, Build.ends_get,
    parameterTy?]
  dsimp only
  cases declared : builder.function.signature.params[builder.argCounter - 1]? with
  | some ty =>
    have created := run_createParameter_lengthens isOpen ty
    rwa [Build.Lengthens, run, Build.ends_map] at created
  | none => exact .refl _

/-- An operation makes at most the parameter that it is to make, also if it fails. -/
theorem step_lengthens (operation : Operation) (isOpen : builder.function.finished = false) :
    builder.function.Lengthens (operation.parameterTy? builder)
      (operation.step builder).2.function := by
  cases makes : operation.makesParameter with
  | false =>
    obtain ⟨opened, rest, opening, straight, comes⟩ := operation.exists_opening isOpen
    rw [makes] at straight
    rw [parameterTy?_eq_none makes, comes]
    exact (lengthens_of_opening opening).trans
      (straight.lengthens opening.layout (opening.finished.trans isOpen)).state
  | true =>
    cases operation with
    | createParameter ty => exact (run_createParameter_lengthens isOpen ty).state
    | nextParameter => exact (run_nextParameter_lengthens isOpen).state
    | _ => cases makes

end Operation

/-! Construction -/

/-- A parameter at a position, of a type that the caller chose. -/
structure Choice where
  position : Nat
  ty : Ty
  deriving DecidableEq, Repr

/-- The signature declares the chosen type at this position. -/
def Choice.IsDeclared (choice : Choice) (signature : Signature) : Prop :=
  signature.params[choice.position]? = some choice.ty

instance (choice : Choice) (signature : Signature) : Decidable (choice.IsDeclared signature) :=
  inferInstanceAs (Decidable (_ = _))

/-- The choice that is made in an operation. A builder that has made all parameters so far takes the
next declared one, which is no choice; another one is behind, and the type that it takes is. -/
def Operation.choices (operation : Operation) (builder : Builder) : List Choice :=
  let position := builder.function.parameters.length
  match operation with
  | createParameter ty => [⟨position, ty⟩]
  | nextParameter =>
    if builder.argCounter = position + 1 then []
    else (nextParameter.parameterTy? builder).toList.map (Choice.mk position)
  | _ => []

namespace Operation

variable {operation : Operation} {builder : Builder}

theorem parameterTy?_of_choice {choice : Choice} (member : choice ∈ operation.choices builder) :
    choice.position = builder.function.parameters.length ∧
      operation.parameterTy? builder = some choice.ty := by
  cases operation with
  | createParameter ty =>
    rw [List.mem_singleton.mp member]
    exact ⟨rfl, rfl⟩
  | nextParameter =>
    dsimp only [choices] at member
    split at member
    · cases member
    · obtain ⟨ty, made, rfl⟩ := List.mem_map.mp member
      exact ⟨rfl, Option.mem_toList.mp made⟩
  | _ => cases member

/-- A parameter that is made is chosen, or it is the declared one. -/
theorem choices_of_parameterTy? {ty : Ty} (made : operation.parameterTy? builder = some ty) :
    ⟨builder.function.parameters.length, ty⟩ ∈ operation.choices builder ∨
      Choice.IsDeclared ⟨builder.function.parameters.length, ty⟩ builder.function.signature := by
  cases operation with
  | createParameter chosen =>
    cases made
    exact .inl (List.mem_singleton_self _)
  | nextParameter =>
    dsimp only [choices]
    split
    · rename_i counted
      rw [parameterTy?, counted, Nat.add_sub_cancel] at made
      exact .inr made
    · exact .inl (List.mem_map_of_mem (Option.mem_toList.mpr made))
  | _ => cases made

end Operation

namespace Construction

/-- Go on with a builder from the function as it is. -/
def resume (site : Construction) (builder : Builder) : Builder :=
  { builder with function := site.function }

/-- A change of the function or an operation of one of its builders, with the types that are chosen
for parameters in it. -/
inductive Step (site : Construction) : List Choice → Construction → Prop where
  | parameter (ty : Ty) (name : String) :
      Step site [⟨site.function.parameters.length, ty⟩] (site.edit (.addParameter ty name))
  | reserve (count : Nat) : Step site [] (site.edit (.reserveBlocks count))
  | splice (position count : Nat) : Step site [] (site.edit (.spliceBlocks position count))
  | push (ref : BlockRef) (instruction : Instruction) :
      Step site [] (site.edit (.pushInstruction ref instruction))
  | symbol (value : Value) : Step site [] (site.edit (.addSymbol value))
  | nameBlock (ref : BlockRef) (name : Option String) :
      Step site [] (site.edit (.nameBlock ref name))
  | renameResult (id : InstId) (name : String) : Step site [] (site.edit (.renameResult id name))
  | start (layout : DataLayout) : Step site [] (site.startBuilder layout)
  | operate (index : Nat) (operation : Operation) (found : site.builders[index]? = some builder) :
      Step site (operation.choices (site.resume builder)) (site.operate index operation)

/-- Steps that are taken one after the other on a fresh function. -/
inductive Run (name : String) (signature : Signature) : List Choice → Construction → Prop where
  | fresh : Run name signature [] ⟨{ name := name, signature := signature }, []⟩
  | step (run : Run name signature choices site) (step : site.Step added after) :
      Run name signature (choices ++ added) after

end Construction

namespace FunctionDef

/-- The parameters of an open function are of the chosen types, or else of those that are declared
in their places. -/
structure Accounts (function : FunctionDef) (signature : Signature) (choices : List Choice) :
    Prop where
  isOpen : function.finished = false
  signed : function.signature = signature
  chosen : ∀ choice ∈ choices, function.parameterTys[choice.position]? = some choice.ty
  others : ∀ (position : Nat) (ty : Ty), function.parameterTys[position]? = some ty →
    ⟨position, ty⟩ ∈ choices ∨ Choice.IsDeclared ⟨position, ty⟩ signature

variable {function after : FunctionDef} {signature : Signature} {choices added : List Choice}
  {made : Option Ty}

theorem Accounts.lengthen (accounts : function.Accounts signature choices)
    (lengthens : function.Lengthens made after)
    (chosen : ∀ choice ∈ added, choice.position = function.parameters.length ∧
      made = some choice.ty)
    (other : ∀ ty, made = some ty → ⟨function.parameters.length, ty⟩ ∈ added ∨
      Choice.IsDeclared ⟨function.parameters.length, ty⟩ signature) :
    after.Accounts signature (choices ++ added) := by
  refine ⟨lengthens.finished.trans accounts.isOpen, ?_, ?_, ?_⟩
  · rw [lengthens.signature, accounts.signed]
  · intro choice member
    rw [lengthens.tyAt]
    rcases List.mem_append.mp member with old | new
    · have found := accounts.chosen choice old
      have bound := (List.getElem?_eq_some_iff.mp found).1
      rw [length_parameterTys] at bound
      rwa [if_neg (Nat.ne_of_lt bound)]
    · obtain ⟨last, chosen⟩ := chosen choice new
      rw [if_pos last, chosen]
  · intro position ty found
    rw [lengthens.tyAt] at found
    split at found
    · rename_i last
      subst last
      exact (other ty found).imp_left (List.mem_append_right _)
    · exact (accounts.others position ty found).imp_left (List.mem_append_left _)

/-- A change that makes no parameter. -/
theorem Accounts.keep (accounts : function.Accounts signature choices)
    (lengthens : function.Lengthens none after) : after.Accounts signature (choices ++ []) :=
  accounts.lengthen lengthens (fun _ member => absurd member List.not_mem_nil)
    fun _ made => nomatch made

end FunctionDef

namespace Construction

variable {site after : Construction} {signature : Signature} {choices added : List Choice}

theorem function_edit {α : Type} {change : Edit α} {outcome : Except Violation α}
    {function : FunctionDef} (ran : change.run site.function = (outcome, function)) :
    (site.edit change).function = function :=
  congrArg Prod.snd ran

theorem function_startBuilder (isOpen : site.function.finished = false) (layout : DataLayout) :
    (site.startBuilder layout).function = site.function.reserve 1 := by
  rw [startBuilder, Builder.run_start isOpen]

theorem function_operate {index : Nat} {builder : Builder}
    (found : site.builders[index]? = some builder) (operation : Operation) :
    (site.operate index operation).function =
      (operation.step (site.resume builder)).2.function := by
  rw [operate, found]
  rfl

theorem Step.accounts (step : site.Step added after)
    (accounts : site.function.Accounts signature choices) :
    after.function.Accounts signature (choices ++ added) := by
  have isOpen := accounts.isOpen
  cases step with
  | parameter ty name =>
    rw [function_edit (Edit.run_addParameter isOpen ty name)]
    refine accounts.lengthen (.withParameter ..) ?_ ?_
    · exact List.forall_mem_singleton.mpr ⟨rfl, rfl⟩
    · intro made same
      cases same
      exact .inl (List.mem_singleton_self _)
  | reserve count =>
    rw [function_edit (Edit.run_reserveBlocks isOpen count)]
    exact accounts.keep (.of_same rfl rfl rfl)
  | splice position count =>
    rw [function_edit (Edit.run_spliceBlocks isOpen position count)]
    exact accounts.keep (.of_same rfl rfl rfl)
  | push ref instruction =>
    rw [function_edit (Edit.run_pushInstruction isOpen ref instruction)]
    exact accounts.keep (.of_same rfl rfl rfl)
  | symbol value =>
    rw [function_edit (Edit.run_addSymbol isOpen value)]
    exact accounts.keep (.of_same rfl rfl rfl)
  | nameBlock ref name => exact accounts.keep (.of_same rfl rfl rfl)
  | renameResult id name => exact accounts.keep (.of_same rfl rfl rfl)
  | start layout =>
    rw [function_startBuilder isOpen]
    exact accounts.keep (.of_same rfl rfl rfl)
  | @operate builder index operation found =>
    have resumedOpen : (site.resume builder).function.finished = false := isOpen
    rw [function_operate found]
    refine accounts.lengthen (operation.step_lengthens resumedOpen) ?_ ?_
    · intro choice member
      exact Operation.parameterTy?_of_choice member
    · intro ty made
      rw [← accounts.signed]
      exact Operation.choices_of_parameterTy? made

theorem Run.accounts {name : String} (run : Run name signature choices site) :
    site.function.Accounts signature choices := by
  induction run with
  | fresh => exact ⟨rfl, rfl, by simp, by simp [FunctionDef.parameterTys]⟩
  | step _ step ih => exact step.accounts ih

end Construction

/-! Finishing -/

theorem Edit.run_exitFunction {function : FunctionDef} (isOpen : function.finished = false) :
    exitFunction.run function =
      if function.parameters.length = function.signature.params.length then
        (.ok (), { function with finished := true })
      else (.error (.parameterCount function.name function.signature.params.length
        function.parameters.length), function) := by
  refine (run_requireOpen isOpen _).trans ?_
  change ExceptT.run (do
    if function.parameters.length ≠ function.signature.params.length then
      throw (Violation.parameterCount function.name function.signature.params.length
        function.parameters.length)
    set { function with finished := true } : Edit Unit) function = _
  split
  · rfl
  · rename_i number
    rw [if_pos (not_not.mp number)]
    rfl

theorem Edit.of_exitFunction {function finished : FunctionDef} (isOpen : function.finished = false)
    (exited : exitFunction.run function = (.ok (), finished)) :
    function.parameters.length = function.signature.params.length ∧
      finished = { function with finished := true } := by
  rw [run_exitFunction isOpen] at exited
  split at exited
  · rename_i number
    cases exited
    exact ⟨number, rfl⟩
  · cases exited

/-- The line that opens the definition of a function with a signature, whose parameters have these
names. -/
def Signature.header (signature : Signature) (name : String) (formals : List String) : String :=
  let params := List.zipWith (fun ty formal => ty.text ++ " " ++ localName formal)
    signature.params formals
  "define " ++ signature.result.text ++ " " ++ globalName name
    ++ "(" ++ commaSeparated (parameterTexts params signature.vararg) ++ ") \x7b"

end IrAssembly
