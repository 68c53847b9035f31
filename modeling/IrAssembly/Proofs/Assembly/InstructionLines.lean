import IrAssembly.Assembly.Listing
import IrAssembly.Proofs.Assembly.Spelling
import IrAssembly.Proofs.Function.Sequence
import IrAssembly.Proofs.Success

/-! The indented lines of a function's listing are the lines of its instructions, in the order in
which the blocks hold them. Nothing else is indented: headers, labels and braces start at the
margin. -/

namespace IrAssembly

/-- Whether a line starts with the indentation of instructions. -/
def isIndented (line : String) : Bool := indent.toList.isPrefixOf line.toList

theorem isIndented_append (text : String) : isIndented (indent ++ text) = true := by
  rw [isIndented, String.toList_append, List.isPrefixOf_iff_prefix]
  exact List.prefix_append ..

/-- The text in front of an instruction that names its result. -/
def Instruction.assignment (instruction : Instruction) : String :=
  instruction.result?.elim "" fun result => localName result.name ++ " = "

namespace FunctionDef

variable {function : FunctionDef} {dialect : Dialect}

/-- The line of the instruction with a number. -/
def Spells (function : FunctionDef) (dialect : Dialect) (id : InstId) (line : String) : Prop :=
  ∃ instruction body, function.instruction? id = some instruction ∧
    function.bodyText dialect instruction = .ok body ∧
    line = indent ++ (instruction.assignment ++ body)

theorem line_eq_ok {instruction : Instruction} {line : String}
    (written : function.line dialect instruction = .ok line) :
    ∃ body, function.bodyText dialect instruction = .ok body ∧
      line = instruction.assignment ++ body := by
  obtain ⟨body, written, named⟩ := of_bind_eq_ok written
  refine ⟨body, written, ?_⟩
  cases result : instruction.result? with
  | none =>
    rw [result] at named
    cases named
    simp [Instruction.assignment, result]
  | some slot =>
    rw [result] at named
    cases named
    simp [Instruction.assignment, result]

theorem instructionLines_spell {block : Block} {lines : List String}
    (written : function.instructionLines dialect block = .ok lines) :
    List.Forall₂ (function.Spells dialect) block.instructions lines := by
  refine (forall₂_of_mapM_eq_ok written).imp fun id line spelled => ?_
  cases found : function.instruction? id with
  | none =>
    rw [found] at spelled
    cases spelled
  | some instruction =>
    rw [found] at spelled
    obtain ⟨text, spelled, same⟩ := of_bind_eq_ok spelled
    obtain ⟨body, written, rfl⟩ := line_eq_ok spelled
    cases same
    exact ⟨instruction, body, found, written, rfl⟩

/-- Instruction lines are indented, so they pass through the filter. -/
theorem filter_isIndented {ids : List InstId} {lines : List String}
    (spelled : List.Forall₂ (function.Spells dialect) ids lines) :
    lines.filter isIndented = lines := by
  induction spelled with
  | nil => rfl
  | cons first _ ih =>
    obtain ⟨_, _, _, _, rfl⟩ := first
    rw [List.filter_cons_of_pos (isIndented_append _), ih]

/-! Lines at the margin -/

theorem isIndented_header (function : FunctionDef) : isIndented function.header = false := by
  simp [isIndented, header, indent, String.append_assoc, List.isPrefixOf]

theorem isIndented_labelLine (block : Block) : isIndented (labelLine block) = false := by
  obtain ⟨ref, index, name, instructions⟩ := block
  cases name with
  | none => simp [isIndented, labelLine, indent, List.isPrefixOf]
  | some name =>
    obtain ⟨char, others, letters, first⟩ := exists_head_spelledName name
    have visible : ' ' ≠ char := by
      rintro rfl
      exact absurd first (by decide)
    simp [isIndented, labelLine, indent, letters, List.isPrefixOf, visible]

theorem laterBlockLines_spell {block : Block} {lines : List String}
    (written : function.laterBlockLines dialect block = .ok lines) :
    List.Forall₂ (function.Spells dialect) block.instructions (lines.filter isIndented) := by
  obtain ⟨held, front, same⟩ := of_bind_eq_ok written
  cases same
  have spelled := instructionLines_spell front
  have atMargin : ¬ isIndented (labelLine block) = true := by
    rw [isIndented_labelLine]
    decide
  rw [List.filter_cons_of_neg (by decide), List.filter_cons_of_neg atMargin,
    filter_isIndented spelled]
  exact spelled

/-- The indented lines of a listing spell the instructions in the order of the blocks. -/
theorem lines_spell {lines : List String} (written : function.lines dialect = .ok lines) :
    List.Forall₂ (function.Spells dialect) function.sequence (lines.filter isIndented) := by
  have atMargin : ¬ isIndented function.header = true := by
    rw [isIndented_header]
    decide
  have closing : List.filter isIndented ["\x7d"] = [] := by decide
  rw [← flatMap_orderedBlocks]
  rw [FunctionDef.lines] at written
  cases blocks : function.orderedBlocks with
  | nil =>
    rw [blocks] at written
    cases written
    rw [List.filter_cons_of_neg atMargin, closing]
    exact .nil
  | cons entry later =>
    rw [blocks] at written
    obtain ⟨entryLines, front, rest⟩ := of_bind_eq_ok written
    obtain ⟨groups, behind, same⟩ := of_bind_eq_ok rest
    cases same
    have spelled := instructionLines_spell front
    rw [List.flatMap_cons, List.cons_append, List.cons_append, List.filter_cons_of_neg atMargin,
      List.filter_append, List.filter_append, closing, List.append_nil, filter_isIndented spelled]
    refine List.rel_append spelled ?_
    -- group by group behind the entry block
    have each := forall₂_of_mapM_eq_ok behind
    clear behind rest written blocks
    induction each with
    | nil => exact .nil
    | cons first _ ih =>
      rw [List.flatMap_cons, List.flatten_cons, List.filter_append]
      exact List.rel_append (laterBlockLines_spell first) ih

end FunctionDef

end IrAssembly
