import IrAssembly.Command.Run
import IrAssembly.Proofs.Json.Printed
import IrAssembly.Proofs.Wire.Module

/-! Reading undoes writing for everything that has an interchange form of its own. -/

namespace IrAssembly

/-- The kinds of values that are exchanged as whole texts. -/
inductive WireKind where
  | ty
  | constant
  | value
  | instruction
  | function
  | unit
  | layout

namespace WireKind

def Carrier : WireKind → Type
  | ty => Ty
  | constant => Constant
  | value => Value
  | instruction => Instruction
  | function => FunctionDef
  | unit => Module
  | layout => DataLayout

def toJson : (kind : WireKind) → kind.Carrier → Json
  | ty, given => Ty.toJson given
  | constant, given => Constant.toJson given
  | value, given => Value.toJson given
  | instruction, given => Instruction.toJson given
  | function, given => FunctionDef.toJson given
  | unit, given => Module.toJson given
  | layout, given => DataLayout.toJson given

def read : (kind : WireKind) → Reading kind.Carrier
  | ty => Reading.ty
  | constant => Reading.constant
  | value => Reading.value
  | instruction => Reading.instruction
  | function => Reading.functionDef
  | unit => Reading.unit
  | layout => Reading.dataLayout

/-- Every position, number and handle is held by its machine integer. -/
def Fits : (kind : WireKind) → kind.Carrier → Prop
  | value, given => Value.Fits given
  | instruction, given => Instruction.Fits given
  | function, given => FunctionDef.Fits given
  | unit, given => Module.Fits given
  | ty, _ | constant, _ | layout, _ => True

theorem read_recovers {kind : WireKind} {given : kind.Carrier} (fits : kind.Fits given)
    (bound : Nat) : Reading.Recovers bound kind.read (kind.toJson given) given := by
  cases kind with
  | ty => exact Reading.ty_recovers bound given
  | constant => exact Reading.constant_recovers bound given
  | value => exact Reading.value_recovers fits
  | instruction => exact Reading.instruction_recovers fits
  | function => exact Reading.functionDef_recovers fits
  | unit => exact Reading.unit_recovers fits
  | layout => exact Reading.dataLayout_recovers bound given

variable {kind : WireKind} {given : kind.Carrier} {text : String}

/-- A text that is parsed as the written value is read as the value. -/
theorem ofText_eq_some (fits : kind.Fits given) (shallow : (kind.toJson given).nesting < 128)
    (parsed : Json.parse text = some (kind.toJson given)) :
    Reading.ofText kind.read text = some given := by
  have read := read_recovers fits Reading.maxDepth Reading.maxDepth (Nat.le_refl _)
    (Nat.le_of_lt_succ shallow)
  rw [Reading.ofText, parsed]
  exact read

/-- Compact text of every kind is read back and then written in the same way again, and so is the
pretty text of a module that the command line writes. -/
theorem ofText_written :
    (∀ (kind : WireKind) (given : kind.Carrier), kind.Fits given →
      (kind.toJson given).nesting < 128 →
        Reading.ofText kind.read (kind.toJson given).compact = some given ∧
        (Reading.ofText kind.read (kind.toJson given).compact).map
          (fun parsed => (kind.toJson parsed).compact) = some (kind.toJson given).compact) ∧
    ∀ (unit : Module) (output : Option String) (dialect : Dialect), unit.Fits →
      unit.toJson.nesting < 128 →
        ∃ text, Command.emitModule unit output dialect true = Command.emit output text ∧
          Reading.ofText Reading.unit text = some unit := by
  constructor
  · intro kind given fits shallow
    have read := ofText_eq_some fits shallow (Json.parse_compact _)
    exact ⟨read, by rw [read, Option.map_some]⟩
  · intro unit output dialect fits shallow
    refine ⟨unit.toJson.pretty, rfl, ?_⟩
    exact @ofText_eq_some .unit unit _ fits shallow (Json.parse_pretty _)

/-- A module with an escaped name, a number wider than 64 bits and a function that is cut short. -/
theorem ofText_written_module : ∃ unit : Module,
    unit.name = "a\x01\"é" ∧ unit.Fits ∧ unit.toJson.nesting < 128 ∧
    Reading.ofText Reading.unit unit.toJson.compact = some unit ∧
    ∃ text, Command.emitModule unit none .v38 true = .only (.print text) ∧
      Reading.ofText Reading.unit text = some unit := by
  let wide : GlobalVariable :=
    ⟨"wide", .int 128, true, some (.bigInt (.int 128) (-(2 ^ 70))), .unlisted, 0⟩
  let body : FunctionDef :=
    { name := "f", signature := ⟨.void, [.ptr .i8], true⟩, parameters := [⟨0, "arg_1", .ptr .i8⟩]
      blocks := [⟨⟨0⟩, 0, none, [0]⟩], order := [⟨0⟩], instructions := [.ret none]
      symbols := [.parameter ⟨0, "arg_1", .ptr .i8⟩] }
  let unit : Module :=
    { name := "a\x01\"é", targetTriple := some "", globals := [wide], functions := [body] }
  have fits : unit.Fits := by
    intro function member
    rw [List.mem_singleton.mp member]
    constructor
    · simp [body, IsWord]
    · intro block held
      rw [List.mem_singleton.mp held]
      exact ⟨by decide, by decide, by simp [IsWord]⟩
    · simp [body, BlockRef.Fits]
    · intro instruction held
      rw [List.mem_singleton.mp held]
      exact ⟨by simp [Instruction.operands], by simp [Instruction.blocks, Instruction.successors]⟩
    · intro value held
      rw [List.mem_singleton.mp held]
      exact (by decide : IsWord 0)
  have shallow : unit.toJson.nesting < 128 := by decide +kernel
  exact ⟨unit, rfl, fits, shallow, (ofText_written.1 .unit unit fits shallow).1,
    ofText_written.2 unit none .v38 fits shallow⟩

end WireKind

end IrAssembly
