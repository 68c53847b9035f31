import IrAssembly.Function.Basic

/-!
Guarded changes of a function definition. Breaking a rule that every caller has to keep is a
violation; the function is then left as it was.
-/

namespace IrAssembly

/-- A rule that callers have to keep was broken. -/
inductive Violation where
  | alignment (align : Nat)
  | alreadyFinished (function : String)
  | parameterCount (function : String) (declared created : Nat)
  deriving DecidableEq, Repr

def Violation.message : Violation → String
  | alignment align => "alignment " ++ toString align ++ " is not a power of two"
  | alreadyFinished function => "function '" ++ function ++ "' is already finished"
  | parameterCount function declared created =>
    "function '" ++ function ++ "' declares " ++ toString declared ++ " parameter(s) but "
      ++ toString created ++ " were created"

/-- A change of a function definition that may be refused. -/
abbrev Edit := ExceptT Violation (StateM FunctionDef)

namespace Edit

/-- Go on only with a function that is not finished. -/
def requireOpen : Edit Unit := do
  let function ← get
  if function.finished then throw (.alreadyFinished function.name)

def addParameter (ty : Ty) (name : String) : Edit Parameter := do
  requireOpen
  modifyGet fun function => function.withParameter ty name

def reserveBlocks (count : Nat) : Edit Unit := do
  requireOpen
  modify fun function => function.reserve count

def spliceBlocks (position count : Nat) : Edit (List BlockRef) := do
  requireOpen
  modifyGet fun function => function.splice position count

def pushInstruction (block : BlockRef) (instruction : Instruction) : Edit InstId := do
  requireOpen
  modifyGet fun function => function.push block instruction

def addSymbol (value : Value) : Edit SymbolIndex := do
  requireOpen
  modifyGet fun function => function.withSymbol value

/-- Labels may be changed at any time. -/
def nameBlock (block : BlockRef) (name : Option String) : Edit Unit :=
  modify fun function => function.nameBlock block name

/-- Result names may be changed at any time. -/
def renameResult (id : InstId) (name : String) : Edit Unit :=
  modify fun function => function.renameResult id name

/-- Finish the function. It must have exactly the parameters that its signature declares. -/
def exitFunction : Edit Unit := do
  requireOpen
  let function ← get
  let declared := function.signature.params.length
  let created := function.parameters.length
  if created ≠ declared then throw (.parameterCount function.name declared created)
  set { function with finished := true }

end Edit

end IrAssembly
