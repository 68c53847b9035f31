import IrAssembly.Proofs.Assembly.TypeNames
import IrAssembly.Proofs.Assembly.Wording
import IrAssembly.Proofs.Module.Completion

/-! Which types of a listing are defined in it. Completion looks at the types of globals,
signatures, operands and results. It does not look into constants, at the types of parameters that
the signature does not declare, and into definitions that were given. -/

namespace IrAssembly

/-- The fields of a structure. -/
def Ty.fields : Ty → List Ty
  | struct _ fields _ => fields
  | _ => []

theorem Ty.namedParts_of_mem_fields {ty field : Ty} (inside : field ∈ ty.fields) :
    field.namedParts ⊆ ty.namedParts := by
  cases ty with
  | struct name fields packed =>
    have parts : field.namedParts ⊆ namedPartsOf fields := by
      rw [namedPartsOf_eq_flatMap]
      exact fun part member => List.mem_flatMap.mpr ⟨field, inside, member⟩
    cases name with
    | none => rwa [namedParts]
    | some name => exact List.subset_cons_of_subset _ parts
  | _ => cases inside

/-- Nothing is declared but what is called. -/
theorem Module.mem_declarations_foldl {callees : List FunctionRef} {unit : Module}
    {declaration : FunctionRef}
    (member : declaration ∈ (callees.foldl addDeclaration unit).declarations) :
    declaration ∈ unit.declarations ∨ declaration ∈ callees := by
  induction callees generalizing unit with
  | nil => exact .inl member
  | cons callee callees ih =>
    rcases ih member with known | later
    · unfold addDeclaration at known
      split at known
      · exact .inl known
      · refine (List.mem_append.mp known).imp_right fun new => ?_
        exact List.mem_singleton.mp new ▸ List.mem_cons_self ..
    · exact .inr (List.mem_cons_of_mem _ later)

/-- The constants that a module writes: initializers and operands. -/
inductive Module.Uses (unit : Module) : Constant → Prop where
  | initializer (member : global ∈ unit.globals) (given : global.initializer = some constant) :
      Uses unit constant
  | operand (member : function ∈ unit.functions)
      (registered : .constant constant ∈ function.symbols) : Uses unit constant

/-- Names that stand behind a percent sign: local ones, and those of types with a definition. -/
inductive Module.Names (unit : Module) : String → Prop where
  | inFunction (member : function ∈ unit.functions) (named : function.Names text) : Names unit text
  | definition (member : ty ∈ unit.typeDefinitions) (named : ty.name? = some text) : Names unit text

namespace Draft

/-- The types that are written, but not looked at by completion. -/
inductive Strays (draft : Draft) : Ty → Prop where
  | inConstant (used : draft.unit.Uses constant) (inside : ty ∈ constant.innerTys) : Strays draft ty
  | parameter (member : function ∈ draft.unit.functions) (listed : formal ∈ function.parameters)
      (undeclared : formal.ty ∉ function.signature.params) : Strays draft formal.ty
  | inDefinition (given : ty ∈ draft.unit.typeDefinitions) (inside : field ∈ ty.fields) :
      Strays draft field

/-- What the percent signs in the listing of a finished draft stand for. -/
def vocabulary (draft : Draft) : Vocabulary where
  names := draft.finish.Names
  definitions := draft.finish.typeDefinitions
  strays := draft.Strays

variable {draft : Draft} {dialect : Dialect}

/-! Parts of a finished module -/

theorem finish_functions (draft : Draft) : draft.finish.functions = draft.unit.functions := by
  rw [finish_eq]
  exact Module.functions_foldl_addDeclaration _ draft.unit

theorem finish_globals (draft : Draft) : draft.finish.globals = draft.unit.globals := by
  rw [finish_eq]
  exact view_foldl_fixed Module.addDeclaration_globals _ draft.unit

theorem finish_typeDefinitions (draft : Draft) : draft.finish.typeDefinitions =
    draft.unit.typeDefinitions ++ draft.unit.undefinedTypes := by
  rw [finish_eq]

theorem mem_undefinedTypes {unit : Module} {ty : Ty} : ty ∈ unit.undefinedTypes ↔
    (∃ mentioned ∈ unit.mentionedTys, ty ∈ mentioned.namedParts) ∧ ty ∉ unit.typeDefinitions := by
  simp [Module.undefinedTypes]

/-- Whatever completion looks at is defined. -/
theorem definedIn_of_mentioned {ty : Ty} (mentioned : ty ∈ draft.unit.mentionedTys) :
    ty.DefinedIn draft.finish.typeDefinitions := by
  intro part inside
  rw [finish_typeDefinitions, List.mem_append]
  by_cases given : part ∈ draft.unit.typeDefinitions
  · exact .inl given
  · exact .inr (mem_undefinedTypes.mpr ⟨⟨ty, mentioned, inside⟩, given⟩)

theorem definedIn_of_function {function : FunctionDef} (member : function ∈ draft.unit.functions)
    {ty : Ty} (mentioned : ty ∈ function.mentionedTys) :
    ty.DefinedIn draft.finish.typeDefinitions :=
  definedIn_of_mentioned
    (List.mem_append_right _ (List.mem_flatMap.mpr ⟨function, member, mentioned⟩))

theorem definedIn_of_declaration {declaration : FunctionRef}
    (member : declaration ∈ draft.finish.declarations) :
    declaration.signature.toTy.DefinedIn draft.finish.typeDefinitions := by
  rw [finish_eq] at member
  rcases Module.mem_declarations_foldl member with given | called
  · exact definedIn_of_mentioned (List.mem_append_left _
      (List.mem_append_right _ (List.mem_map.mpr ⟨declaration, given, rfl⟩)))
  · obtain ⟨function, defined, used⟩ := List.mem_flatMap.mp called
    have registered := List.mem_map_of_mem (f := Value.ty) (FunctionDef.mem_callees.mp used)
    exact definedIn_of_function defined (List.mem_append_left _ (List.mem_cons_of_mem _ registered))

/-- A definition that was added is one of a type that completion met, with all that is inside. -/
theorem field_accounted {ty field : Ty} (member : ty ∈ draft.finish.typeDefinitions)
    (inside : field ∈ ty.fields) : draft.vocabulary.Forms field.text := by
  rw [finish_typeDefinitions, List.mem_append] at member
  rcases member with given | added
  · exact .stray (.inDefinition given inside)
  · obtain ⟨⟨mentioned, met, part⟩, _⟩ := mem_undefinedTypes.mp added
    refine .ty (List.Subset.trans ?_ (definedIn_of_mentioned met))
    exact List.Subset.trans (Ty.namedParts_of_mem_fields inside) (Ty.namedParts_subset part)

/-! The words of its lines -/

theorem vocabulary_serves {function : FunctionDef} (member : function ∈ draft.unit.functions) :
    draft.vocabulary.Serves function where
  mentioned _ mentioned := definedIn_of_function member mentioned
  names _ named := by
    rw [← finish_functions] at member
    exact .inFunction member named
  constants _ registered _ inside := .inConstant (.operand member registered) inside
  parameters := by
    intro formal listed
    by_cases declared : formal.ty ∈ function.signature.params
    · have signature : function.signature.toTy.DefinedIn draft.finish.typeDefinitions :=
        definedIn_of_function member (List.mem_append_left _ (List.mem_cons_self ..))
      exact .ty (signature.signature.2 formal.ty declared)
    · exact .stray (.parameter member listed declared)

theorem definitionLine_forms {ty : Ty} (member : ty ∈ draft.finish.typeDefinitions) :
    Gives draft.vocabulary.Forms ty.definitionLine := by
  unfold Ty.definitionLine
  split
  · rename_i name fields packed
    have known : draft.vocabulary.names name := .definition member rfl
    have fieldsForm : ∀ text ∈ Ty.texts fields, draft.vocabulary.Forms text := by
      rw [Ty.texts_eq_map]
      exact List.forall_mem_map.mpr fun field inside => field_accounted member inside
    refine .done (.append (.append (.name known) (.word rfl)) ?_)
    have body : draft.vocabulary.Forms (if (Ty.texts fields).isEmpty then "\x7b\x7d"
        else "\x7b " ++ commaSeparated (Ty.texts fields) ++ " \x7d") :=
      .ite (.word rfl) (.append (.append (.word rfl) (.commaSeparated fieldsForm)) (.word rfl))
    exact .ite (.append (.append (.word rfl) body) (.word rfl)) body
  · rename_i name
    have known : draft.vocabulary.names name := .definition member rfl
    exact .done (.append (.name known) (.word rfl))
  · exact .failed

theorem globalLine_forms {global : GlobalVariable} (member : global ∈ draft.unit.globals) :
    Gives draft.vocabulary.Forms (global.line dialect) := by
  have valueTy : draft.vocabulary.Forms global.valueTy.text :=
    .ty (definedIn_of_mentioned
      (List.mem_append_left _ (List.mem_append_left _ (List.mem_map_of_mem member))))
  have linkage : isWord global.linkageText = true := by
    unfold GlobalVariable.linkageText
    split <;> rfl
  have around {initializer : String} (formed : draft.vocabulary.Forms initializer) :
      draft.vocabulary.Forms (globalName global.name ++ " = " ++ global.linkageText
        ++ (if global.constant then "constant " else "global ") ++ global.valueTy.text
        ++ initializer ++ alignmentClause global.align) :=
    .append (.append (.append (.append (.append (.append (.globalName global.name) (.word rfl))
      (.word linkage)) (.ite (.word rfl) (.word rfl))) valueTy) formed)
      (.word (isWord_of_isPhrase (isPhrase_alignmentClause _)))
  unfold GlobalVariable.line
  cases given : global.initializer with
  | some constant =>
    have inside : ∀ ty ∈ constant.innerTys, draft.vocabulary.strays ty :=
      fun ty inner => .inConstant (.initializer member given) inner
    exact (constant.text_phrases inside).bind fun _ _ formed =>
      .done (around (.append (.word rfl) formed.forms))
  | none => exact .done (around .empty)

theorem declarationLine_forms {declaration : FunctionRef}
    (member : declaration ∈ draft.finish.declarations) :
    draft.vocabulary.Forms declaration.declarationLine := by
  have defined : declaration.signature.toTy.DefinedIn draft.vocabulary.definitions :=
    definedIn_of_declaration member
  exact .append (.append (.append (.append (.word rfl) (.ty defined.signature.1)) (.word rfl))
    (.globalName declaration.name)) (Vocabulary.parameterList defined).forms

theorem group_forms {lines : List String}
    (formed : ∀ line ∈ lines, draft.vocabulary.Forms line) :
    ∀ line ∈ Module.group lines, draft.vocabulary.Forms line := by
  cases lines with
  | nil => exact formed
  | cons line lines => exact List.forall_mem_cons.mpr ⟨.empty, formed⟩

theorem unlines_append (front back : List String) :
    unlines (front ++ back) = unlines front ++ unlines back := by
  rw [unlines, List.map_append, String.join_append]
  rfl

/-- The text is the listing of a finished draft: behind the header, the definitions of types and
everything else, in the words of the vocabulary. -/
def Listed (draft : Draft) (vocabulary : Vocabulary) (text : String) : Prop :=
  ∃ definitions others, draft.finish.typeDefinitions.mapM Ty.definitionLine = .ok definitions ∧
    text = unlines draft.finish.headerLines ++ (unlines (Module.group definitions) ++ others) ∧
    vocabulary.Forms (unlines (Module.group definitions) ++ others)

theorem Listed.withoutStrays {text : String} (listed : draft.Listed draft.vocabulary text)
    (closed : ∀ ty, draft.Strays ty → ty.DefinedIn draft.finish.typeDefinitions) :
    draft.Listed draft.vocabulary.withoutStrays text := by
  obtain ⟨definitions, others, defined, same, formed⟩ := listed
  exact ⟨definitions, others, defined, same, formed.withoutStrays closed⟩

/-- In the listing of a finished draft every type is defined, unless it stands inside a constant,
belongs to a parameter against the signature, or to the body of a definition that was given. If all
of these are defined, all types are. -/
theorem types_defined_unless_stray {text : String}
    (written : draft.finish.assembly dialect = .ok text) :
    draft.Listed draft.vocabulary text ∧
      ((∀ ty, draft.Strays ty → ty.DefinedIn draft.finish.typeDefinitions) →
        draft.Listed draft.vocabulary.withoutStrays text) := by
  have listed : draft.Listed draft.vocabulary text := by
    obtain ⟨lines, written, same⟩ := of_bind_eq_ok written
    obtain ⟨definitions, defined, rest⟩ := of_bind_eq_ok written
    obtain ⟨globals, globalsWritten, rest⟩ := of_bind_eq_ok rest
    obtain ⟨functions, functionsWritten, rest⟩ := of_bind_eq_ok rest
    cases same
    cases rest
    have definitionsForm : ∀ line ∈ definitions, draft.vocabulary.Forms line :=
      Gives.mapM (fun ty member => definitionLine_forms member) definitions defined
    have globalsForm : ∀ line ∈ globals, draft.vocabulary.Forms line := by
      rw [finish_globals] at globalsWritten
      exact Gives.mapM (fun global member => globalLine_forms member) globals globalsWritten
    have functionsForm : ∀ lines ∈ functions, ∀ line ∈ lines, draft.vocabulary.Forms line := by
      rw [finish_functions] at functionsWritten
      exact Gives.mapM (fun function member => (vocabulary_serves member).lines) functions
        functionsWritten
    have declarationsForm : ∀ line ∈ draft.finish.declarations.map FunctionRef.declarationLine,
        draft.vocabulary.Forms line :=
      List.forall_mem_map.mpr fun declaration member => declarationLine_forms member
    have groupsForm : ∀ line ∈ (functions.map Module.group).flatten,
        draft.vocabulary.Forms line := by
      intro line member
      obtain ⟨lines, listed, inside⟩ := List.mem_flatten.mp member
      obtain ⟨lines, written, rfl⟩ := List.mem_map.mp listed
      exact group_forms (functionsForm lines written) line inside
    refine ⟨definitions, unlines (Module.group globals ++ (functions.map Module.group).flatten
      ++ Module.group (draft.finish.declarations.map FunctionRef.declarationLine)), defined, ?_, ?_⟩
    · simp only [List.append_assoc, unlines_append]
    · refine .append (.unlines (group_forms definitionsForm)) (.unlines ?_)
      exact List.forall_mem_append.mpr ⟨List.forall_mem_append.mpr
        ⟨group_forms globalsForm, groupsForm⟩, group_forms declarationsForm⟩
  exact ⟨listed, listed.withoutStrays⟩

/-- A function loads a structure through its parameter; nothing strays, so all types are defined. -/
theorem types_defined_of_loaded_pair : ∃ (draft : Draft) (text : String), Reached draft ∧
    draft.finish.assembly .v38 = .ok text ∧
    draft.finish.typeDefinitions = [.struct (some "pair") [.i32, .i32] false] ∧
    draft.Listed draft.vocabulary.withoutStrays text := by
  let pair : Ty := .struct (some "pair") [.i32, .i32] false
  let body : FunctionDef :=
    { name := "f", signature := ⟨pair, [.ptr pair], false⟩, order := [⟨0⟩]
      parameters := [⟨0, "arg_1", .ptr pair⟩]
      blocks := [⟨⟨0⟩, 0, none, [0, 1]⟩]
      instructions := [.load ⟨"1", pair⟩ 0 (.aligned 3), .ret (some 1)]
      symbols := [.parameter ⟨0, "arg_1", .ptr pair⟩, .result ⟨0, "1", pair⟩] }
  let draft : Draft := (Draft.start "m").addFunction body
  have functions : draft.unit.functions = [body] := rfl
  have closed (ty : Ty) (stray : draft.Strays ty) : ty.DefinedIn draft.finish.typeDefinitions := by
    cases stray with
    | inConstant used inside =>
      cases used with
      | initializer member given => cases member
      | operand member registered =>
        rw [functions, List.mem_singleton] at member
        subst member
        simp [body] at registered
    | parameter member listed undeclared =>
      rw [functions, List.mem_singleton] at member
      subst member
      rw [List.mem_singleton] at listed
      subst listed
      exact absurd (List.mem_singleton_self _) undeclared
    | inDefinition given inside => cases given
  have succeeds : (draft.finish.assembly .v38).toOption.isSome = true := by decide +kernel
  cases written : draft.finish.assembly .v38 with
  | error error =>
    rw [written] at succeeds
    cases succeeds
  | ok text =>
    exact ⟨draft, text, (Reached.start "m").addFunction body, written, by decide +kernel,
      (types_defined_unless_stray written).2 closed⟩

/-- A global variable holds the address of a field behind a null pointer. Its line names the
structure, and no line defines it. -/
theorem pair_in_constant_undefined : ∃ (draft : Draft) (pair : Ty) (front back : String),
    Reached draft ∧ pair.name? = some "pair" ∧
    (draft.finish.assembly .v32).toOption = some (front ++ pair.text ++ back) ∧
    pair ∉ draft.finish.typeDefinitions := by
  let pair : Ty := .struct (some "pair") [.i32, .i32] false
  let address : Constant :=
    .elementPointer (.ptr .i32) (.null (.ptr pair)) [.i32 0, .i32 1] false
  let second : GlobalVariable := ⟨"second", .ptr .i32, false, some address, .external, 0⟩
  let draft : Draft := ((Draft.start "m").addGlobal second).2
  exact ⟨draft, pair,
    unlines draft.finish.headerLines ++ "\n@second = global i32* getelementptr (",
    "* null, i32 0, i32 1)\n", (Reached.start "m").addGlobal second, rfl, by decide +kernel,
    by decide +kernel⟩

end Draft

end IrAssembly
