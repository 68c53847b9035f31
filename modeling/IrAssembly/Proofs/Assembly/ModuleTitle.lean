import Mathlib.Data.List.TakeWhile
import IrAssembly.Assembly.Listing

/-! The first line of a listing. It is a comment with the name of the module, and the name stands
in it as it is: where it breaks, the rest of it is no longer in the comment. The settings of the
target, the names and the texts below are escaped and cannot do this. -/

namespace IrAssembly

/-- The line break that ends the first line of a text, and everything behind it. -/
def belowFirstLine (text : String) : List Char := text.toList.dropWhile (· ≠ '\n')

theorem belowFirstLine_eq_nil_iff (text : String) :
    belowFirstLine text = [] ↔ '\n' ∉ text.toList := by
  rw [belowFirstLine, List.dropWhile_eq_nil_iff]
  refine ⟨fun others broken => ?_, fun unbroken char member => ?_⟩
  · simpa using others '\n' broken
  · rw [decide_eq_true_iff]
    rintro rfl
    exact unbroken member

theorem belowFirstLine_append (front back : String) :
    belowFirstLine (front ++ back) =
      if '\n' ∈ front.toList then belowFirstLine front ++ back.toList else belowFirstLine back := by
  have broken := belowFirstLine_eq_nil_iff front
  rw [belowFirstLine, String.toList_append, List.dropWhile_append]
  by_cases breaks : '\n' ∈ front.toList
  · rw [if_pos breaks, if_neg]
    · rfl
    · exact fun empty => broken.mp (List.isEmpty_iff.mp empty) breaks
  · rw [if_neg breaks, if_pos]
    · rfl
    · exact List.isEmpty_iff.mpr (broken.mpr breaks)

/-- A whole line has its own breaks and the one behind it. -/
theorem belowFirstLine_line (line rest : String) :
    belowFirstLine (line ++ "\n" ++ rest) = belowFirstLine line ++ '\n' :: rest.toList := by
  rw [String.append_assoc, belowFirstLine_append]
  split
  · rw [String.toList_append]
    rfl
  · rename_i unbroken
    rw [(belowFirstLine_eq_nil_iff line).mpr unbroken, belowFirstLine_append]
    rfl

namespace Module

def titleLine (name : String) : String := "; ModuleID = '" ++ name ++ "'"

/-- The same module under another name. -/
def renamed (unit : Module) (name : String) : Module := { unit with name := name }

/-- All lines but the first. -/
def linesBelowTitle (unit : Module) (dialect : Dialect) : Except WriteError (List String) := do
  let types ← unit.typeDefinitions.mapM Ty.definitionLine
  let globals ← unit.globals.mapM fun global => global.line dialect
  let functions ← unit.functions.mapM fun function => function.lines dialect
  let declarations := unit.declarations.map FunctionRef.declarationLine
  return targetLine "datalayout" unit.dataLayout ++ targetLine "triple" unit.targetTriple
    ++ group types ++ group globals ++ (functions.map group).flatten ++ group declarations

variable (unit : Module) (dialect : Dialect)

theorem lines_renamed (name : String) :
    (unit.renamed name).lines dialect =
      (titleLine name :: ·) <$> unit.linesBelowTitle dialect := by
  simp only [lines, linesBelowTitle, map_bind, map_pure]
  rfl

/-- Renaming a module changes the first line and leaves everything else. -/
theorem assembly_renamed (name : String) :
    (unit.renamed name).assembly dialect =
      (fun lines => titleLine name ++ "\n" ++ unlines lines) <$> unit.linesBelowTitle dialect := by
  rw [assembly, lines_renamed]
  cases unit.linesBelowTitle dialect with
  | error error => rfl
  | ok lines => exact congrArg Except.ok (String.join_cons ..)

/-! The name -/

/-- Where the name breaks, the rest of it and the quote that closes it stand below. -/
theorem belowFirstLine_titleLine (name : String) :
    belowFirstLine (titleLine name) =
      if belowFirstLine name = [] then [] else belowFirstLine name ++ ['\''] := by
  rw [titleLine, String.append_assoc, belowFirstLine_append, if_neg (by decide),
    belowFirstLine_append]
  by_cases broken : '\n' ∈ name.toList
  · have some_below := mt (belowFirstLine_eq_nil_iff name).mp (not_not.mpr broken)
    rw [if_pos broken, if_neg some_below]
    rfl
  · rw [if_neg broken, if_pos ((belowFirstLine_eq_nil_iff name).mpr broken)]
    rfl

theorem belowFirstLine_titleLine_eq_iff (name other : String) :
    belowFirstLine (titleLine name) = belowFirstLine (titleLine other) ↔
      belowFirstLine name = belowFirstLine other := by
  rw [belowFirstLine_titleLine, belowFirstLine_titleLine]
  cases belowFirstLine name <;> cases belowFirstLine other <;> simp

theorem belowFirstLine_titleLine_eq_nil_iff (name : String) :
    belowFirstLine (titleLine name) = [] ↔ '\n' ∉ name.toList := by
  rw [belowFirstLine_titleLine, ← belowFirstLine_eq_nil_iff]
  cases belowFirstLine name <;> simp

/-- Any text at all can be brought into the listing by the name, on lines of its own. -/
theorem exists_name_inserting (inserted : String) :
    ∃ name, (unit.renamed name).assembly dialect =
      (fun lines => "; ModuleID = 'm'\n" ++ inserted ++ "\n;'\n" ++ unlines lines) <$>
        unit.linesBelowTitle dialect := by
  refine ⟨"m'\n" ++ inserted ++ "\n;", (unit.assembly_renamed dialect _).trans ?_⟩
  congr 1
  funext lines
  have opening : "; ModuleID = '" ++ "m'\n" = "; ModuleID = 'm'\n" := rfl
  have closing : "\n;" ++ "'" ++ "\n" = "\n;'\n" := rfl
  rw [titleLine, ← opening, ← closing]
  simp only [String.append_assoc]

/-- A module is written under all names or refused under all of them. Its text is a comment line
with the name and the same text below, unless the name itself breaks: so two names give texts that
differ in the first line only exactly if they agree from their first break on. -/
theorem assembly_agrees_below_title_iff :
    (∃ error, ∀ name, (unit.renamed name).assembly dialect = .error error) ∨
    ∃ rest : String, ∀ name, ∃ text, (unit.renamed name).assembly dialect = .ok text ∧
      text.toList.head? = some ';' ∧
      belowFirstLine text = belowFirstLine (titleLine name) ++ '\n' :: rest.toList ∧
      (belowFirstLine text = '\n' :: rest.toList ↔ '\n' ∉ name.toList) ∧
      ∀ other otherText, (unit.renamed other).assembly dialect = .ok otherText →
        (belowFirstLine text = belowFirstLine otherText ↔
          belowFirstLine name = belowFirstLine other) := by
  have written (name : String) := unit.assembly_renamed dialect name
  cases below : unit.linesBelowTitle dialect with
  | error error => exact .inl ⟨error, fun name => by rw [written, below]; rfl⟩
  | ok lines =>
    rw [below] at written
    refine .inr ⟨unlines lines, fun name => ⟨_, written name, ?_, ?_, ?_, ?_⟩⟩
    · rw [titleLine]
      simp only [String.toList_append]
      rfl
    · exact belowFirstLine_line ..
    · rw [belowFirstLine_line, List.append_left_eq_self]
      exact belowFirstLine_titleLine_eq_nil_iff name
    · intro other otherText otherWritten
      cases (written other).symm.trans otherWritten
      rw [belowFirstLine_line, belowFirstLine_line, List.append_left_inj]
      exact belowFirstLine_titleLine_eq_iff name other

/-- The second name ends the comment and defines a variable. -/
theorem variable_defined_by_name :
    ∃ text otherText, (renamed ⟨"", none, none, [], [], [], []⟩ "m").assembly .v38 = .ok text ∧
      (renamed ⟨"", none, none, [], [], [], []⟩ "m'\n@x = global i32 0 ;").assembly .v38 =
        .ok otherText ∧
      otherText = unlines ["; ModuleID = 'm'", "@x = global i32 0 ;'"] ∧
      belowFirstLine text ≠ belowFirstLine otherText :=
  ⟨_, _, rfl, rfl, by decide +kernel, by decide +kernel⟩

end Module

end IrAssembly
