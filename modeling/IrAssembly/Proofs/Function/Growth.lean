import IrAssembly.Proofs.Function.Coherence

/-! Changes of a function definition only add to it: what the tables hold stays where it is, so
whatever was a value or a block of the function remains one. -/

namespace IrAssembly.FunctionDef

/-- Every part of the first function is a part of the second, in the same place. -/
structure Grows (before after : FunctionDef) : Prop where
  parameters : before.parameters <+: after.parameters
  instructions : before.instructions <+: after.instructions
  symbols : before.symbols <+: after.symbols
  blocks : before.blocks.length ≤ after.blocks.length

namespace Grows

variable {before middle after : FunctionDef}

theorem refl (function : FunctionDef) : function.Grows function :=
  ⟨List.prefix_refl _, List.prefix_refl _, List.prefix_refl _, Nat.le_refl _⟩

theorem trans (first : before.Grows middle) (second : middle.Grows after) : before.Grows after :=
  ⟨first.parameters.trans second.parameters, first.instructions.trans second.instructions,
    first.symbols.trans second.symbols, first.blocks.trans second.blocks⟩

theorem symbol? (grows : before.Grows after) {index : SymbolIndex} {value : Value}
    (found : before.symbol? index = some value) : after.symbol? index = some value := by
  obtain ⟨added, same⟩ := grows.symbols
  have bound := (List.getElem?_eq_some_iff.mp found).1
  rw [FunctionDef.symbol?, ← same, List.getElem?_append_left bound]
  exact found

theorem instruction? (grows : before.Grows after) {id : InstId} {instruction : Instruction}
    (found : before.instruction? id = some instruction) :
    after.instruction? id = some instruction := by
  obtain ⟨added, same⟩ := grows.instructions
  have bound := (List.getElem?_eq_some_iff.mp found).1
  rw [FunctionDef.instruction?, ← same, List.getElem?_append_left bound]
  exact found

theorem hasBlock (grows : before.Grows after) {ref : BlockRef} (inArena : before.HasBlock ref) :
    after.HasBlock ref :=
  Nat.lt_of_lt_of_le inArena grows.blocks

/-! Each change of a function makes it grow. -/

variable (function : FunctionDef)

theorem withParameter (ty : Ty) (name : String) :
    function.Grows (function.withParameter ty name).2 :=
  ⟨List.prefix_append .., List.prefix_refl _, List.prefix_refl _, Nat.le_refl _⟩

theorem withSymbols (values : List Value) : function.Grows (function.withSymbols values) :=
  ⟨List.prefix_refl _, List.prefix_refl _, List.prefix_append .., Nat.le_refl _⟩

theorem push (ref : BlockRef) (instruction : Instruction) :
    function.Grows (function.push ref instruction).2 := by
  refine ⟨List.prefix_refl _, List.prefix_append .., List.prefix_refl _, ?_⟩
  simp [FunctionDef.push]

theorem reserve (count : Nat) : function.Grows (function.reserve count) := by
  refine ⟨List.prefix_refl _, List.prefix_refl _, List.prefix_refl _, ?_⟩
  simp [FunctionDef.reserve]

theorem splice (position count : Nat) : function.Grows (function.splice position count).2 := by
  refine ⟨List.prefix_refl _, List.prefix_refl _, List.prefix_refl _, ?_⟩
  simp [FunctionDef.splice]

theorem nameBlock (ref : BlockRef) (name : Option String) :
    function.Grows (function.nameBlock ref name) := by
  refine ⟨List.prefix_refl _, List.prefix_refl _, List.prefix_refl _, ?_⟩
  simp [FunctionDef.nameBlock]

theorem finish (finished : Bool) : function.Grows { function with finished := finished } :=
  ⟨List.prefix_refl _, List.prefix_refl _, List.prefix_refl _, Nat.le_refl _⟩

end Grows

/-- A value that an operand of the function may be: a result or parameter has to be the function's
own, under its own name and type. -/
def Owns (function : FunctionDef) : Value → Prop
  | .constant _ | .function _ => True
  | .parameter formal => formal ∈ function.parameters
  | .result slot => ∃ instruction, function.instruction? slot.id = some instruction ∧
      instruction.result? = some ⟨slot.name, slot.ty⟩

theorem Owns.mono {before after : FunctionDef} {value : Value} (owned : before.Owns value)
    (grows : before.Grows after) : after.Owns value := by
  cases value with
  | constant known => trivial
  | function callee => trivial
  | parameter formal => exact grows.parameters.subset owned
  | result slot =>
    obtain ⟨instruction, found, named⟩ := owned
    exact ⟨instruction, grows.instruction? found, named⟩

end IrAssembly.FunctionDef
