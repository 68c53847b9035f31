import IrAssembly.Builder.Basic

/-!
Blocks and parameters of the function being built. Positions shift when blocks are inserted, block
handles do not.
-/

namespace IrAssembly.Build

/-- Append a parameter named by the parameter counter. -/
def createParameter (ty : Ty) : Build Value := do
  let builder ← get
  set { builder with argCounter := builder.argCounter + 1 }
  let parameter ← edit (.addParameter ty ("arg_" ++ toString builder.argCounter))
  return .parameter parameter

/-- Give the next result an explicit name. -/
def setNextName (name : String) : Build Unit :=
  modify fun builder => { builder with nextName := some name }

def currentBlock : Build BlockRef := return (← get).current

/-- The current position of a block. -/
def blockIndex (block : BlockRef) : Build Nat := return (← function).indexOf block

/-- The position after the current block. -/
def followingIndex : Build Nat := do
  return (← blockIndex (← currentBlock)) + 1

/-- The block at a position; every missing block up to it is created. -/
def getBlock (index : Nat) : Build BlockRef := do
  edit (.reserveBlocks (index + 1))
  return ((← function).refAt? index).getD ⟨0⟩

/-- The block after the current one, created if needed. -/
def getNextBlock : Build BlockRef := do
  getBlock (← followingIndex)

/-- Go on to the following block, created if needed, and label it by its position unless it has a
name. -/
def nextBlock : Build BlockRef := do
  let index ← followingIndex
  let block ← getBlock index
  let name := ((← function).block? block).bind Block.name
  if name.isNone then edit (.nameBlock block (some ("label_" ++ toString index)))
  modify fun builder => { builder with current := block }
  return block

/-- Insert blocks right after the current one. -/
def insertBlocks (count : Nat) : Build (List BlockRef) := do
  edit (.spliceBlocks (← followingIndex) count)

end IrAssembly.Build
