import IrAssembly.Instruction

/-!
Function definitions. Blocks and instructions live in arenas; a separate list of handles gives the
order of the blocks, so a block can be inserted anywhere without changing a handle. The symbol
table registers every operand of every instruction and only grows.
-/

namespace IrAssembly

structure Block where
  id : BlockRef
  /-- Current position in the order of the function. -/
  index : Nat
  /-- The label; implicitly named blocks have none. -/
  name : Option String := none
  instructions : List InstId := []
  deriving DecidableEq, Repr

namespace Block

def isEmpty (block : Block) : Bool := block.instructions.isEmpty

def isNamed (block : Block) : Bool := block.name.isSome

end Block

structure FunctionDef where
  name : String
  signature : Signature
  parameters : List Parameter := []
  blocks : List Block := []
  order : List BlockRef := []
  instructions : List Instruction := []
  symbols : List Value := []
  /-- A finished function takes no further parts. -/
  finished : Bool := false
  deriving DecidableEq, Repr

namespace FunctionDef

/-- The function as a call target. -/
def callable (function : FunctionDef) : FunctionRef := ⟨function.name, function.signature⟩

def block? (function : FunctionDef) (block : BlockRef) : Option Block := function.blocks[block.id]?

/-- The handle of the block at a position. -/
def refAt? (function : FunctionDef) (position : Nat) : Option BlockRef := function.order[position]?

/-- The block at a position. -/
def blockAt? (function : FunctionDef) (position : Nat) : Option Block :=
  function.refAt? position >>= function.block?

/-- The position of a block. -/
def indexOf (function : FunctionDef) (block : BlockRef) : Nat :=
  (function.block? block).elim 0 Block.index

/-- The block that runs first. -/
def entryBlock? (function : FunctionDef) : Option Block := function.blockAt? 0

def blockCount (function : FunctionDef) : Nat := function.order.length

/-- The blocks in the order of their positions. -/
def orderedBlocks (function : FunctionDef) : List Block := function.order.filterMap function.block?

def instruction? (function : FunctionDef) (id : InstId) : Option Instruction :=
  function.instructions[id]?

def symbol? (function : FunctionDef) (index : SymbolIndex) : Option Value :=
  function.symbols[index]?

/-- The instructions of the block with a handle, in order. -/
def instructionsOf (function : FunctionDef) (block : BlockRef) : List Instruction :=
  ((function.block? block).elim [] Block.instructions).filterMap function.instruction?

/-! Each operation below is the plain change of the parts it concerns; the guarded operations in
`IrAssembly.Function.Edit` first check that the function is still open. -/

/-- Append a formal parameter. -/
def withParameter (function : FunctionDef) (ty : Ty) (name : String) : Parameter × FunctionDef :=
  let parameter := ⟨function.parameters.length, name, ty⟩
  (parameter, { function with parameters := function.parameters ++ [parameter] })

/-- The handles of the next `count` blocks of the arena. -/
def freshRefs (function : FunctionDef) (count : Nat) : List BlockRef :=
  (List.range' function.blocks.length count).map BlockRef.mk

/-- Unnamed empty blocks with these handles, placed at consecutive positions. -/
def emptyBlocks (refs : List BlockRef) (position : Nat) : List Block :=
  refs.mapIdx fun offset ref => ⟨ref, position + offset, none, []⟩

/-- Append unnamed blocks until there are at least `count`. -/
def reserve (function : FunctionDef) (count : Nat) : FunctionDef :=
  let fresh := function.freshRefs (count - function.order.length)
  { function with
    blocks := function.blocks ++ emptyBlocks fresh function.order.length
    order := function.order ++ fresh }

/-- Give the listed blocks consecutive positions. -/
def renumber : List BlockRef → Nat → List Block → List Block
  | [], _, blocks => blocks
  | ref :: refs, position, blocks =>
    renumber refs (position + 1)
      (blocks.modify ref.id fun block => { block with index := position })

/-- Insert `count` unnamed blocks at a position, or at the end if there are fewer blocks. Every
block from there on moves back by `count`. -/
def splice (function : FunctionDef) (position count : Nat) : List BlockRef × FunctionDef :=
  let position := min position function.order.length
  let fresh := function.freshRefs count
  let moved := function.order.drop position
  (fresh,
    { function with
      blocks := renumber moved (position + count)
        (function.blocks ++ emptyBlocks fresh position)
      order := function.order.take position ++ fresh ++ moved })

/-- Append an instruction to the end of a block. -/
def push (function : FunctionDef) (block : BlockRef) (instruction : Instruction) :
    InstId × FunctionDef :=
  let id := function.instructions.length
  (id,
    { function with
      instructions := function.instructions ++ [instruction]
      blocks := function.blocks.modify block.id fun block =>
        { block with instructions := block.instructions ++ [id] } })

/-- Register an operand. The same value may be registered any number of times. -/
def withSymbol (function : FunctionDef) (value : Value) : SymbolIndex × FunctionDef :=
  (function.symbols.length, { function with symbols := function.symbols ++ [value] })

/-- Set or remove the label of a block. -/
def nameBlock (function : FunctionDef) (block : BlockRef) (name : Option String) : FunctionDef :=
  { function with
    blocks := function.blocks.modify block.id fun block => { block with name := name } }

/-- Rename the result of an instruction, if it has one. -/
def renameResult (function : FunctionDef) (id : InstId) (name : String) : FunctionDef :=
  { function with
    instructions := function.instructions.modify id fun instruction =>
      instruction.mapResult fun result => { result with name := name } }

end FunctionDef

end IrAssembly
