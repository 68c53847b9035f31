import IrAssembly.Gallery.Body

/-!
Comparison of two vectors of four numbers. With the same lanes, `main` returns whether they
differ; with one differing lane, it returns 0 when they are found to be different in both ways.
-/

namespace IrAssembly.Gallery

open Build

def lanes : List Int64 := [1, 2, 3, 4]

def mixedLanes : List Int64 := [1, 2, 0, 4]

def laneOperands (values : List Int64) : List Operand := values.map fun value => Literal.int value

/-- Fill two vectors, each in a slot of its own. -/
def fillPair (left right : List Int64) : Build (Value × Value) := do
  let ty : Ty := .vector 4 .i32
  let leftSlot ← allocate ty
  let rightSlot ← allocate ty
  let leftVector ← fillVector leftSlot (laneOperands left)
  let rightVector ← fillVector rightSlot (laneOperands right)
  return (leftVector, rightVector)

def equalLanesBody : Body Unit := do
  let (left, right) ← fillPair lanes lanes
  let differs ← compareVector .intNotEqual left right
  returnWithCast differs

def mixedLanesBody : Body Unit := do
  let (left, right) ← fillPair lanes mixedLanes
  let allEqual ← compareVector .intEqual left right
  let anyDiffers ← compareVector .intNotEqual left right
  let noneDiffers ← binaryOperands .xor anyDiffers (Literal.bool true)
  let failed ← binaryOperands .or allEqual noneDiffers
  returnWithCast failed

/-- A module whose `main` has a body. -/
def mainModule (name : String) (body : Body Unit) : Except GalleryError Module := do
  let draft := Draft.start name
  let main ← draft.define "main" ⟨.i32, [], false⟩ body
  return (draft.addFunction main).finish

def vectorCompare : Except GalleryError Module := mainModule "vector_compare" equalLanesBody

def vectorCompareMixed : Except GalleryError Module :=
  mainModule "vector_compare_mixed" mixedLanesBody

end IrAssembly.Gallery
