import IrAssembly.Builder.VarArg
import IrAssembly.Draft

/-!
Building whole functions for the sample modules.
-/

namespace IrAssembly

/-- Why a sample module could not be built. -/
inductive GalleryError where
  | failed (failure : Failure)
  | noValue (callee : String)
  deriving DecidableEq, Repr

def GalleryError.message : GalleryError → String
  | failed (.refused error) => "build error: " ++ error.message
  | failed (.violated violation) => violation.message
  | noValue callee => "build error: call to " ++ callee ++ " produced no value"

/-- The body of a sample function. -/
abbrev Body := ExceptT GalleryError (StateM Builder)

namespace Body

instance : MonadLift Build Body :=
  ⟨fun step => fun builder =>
    match step.run builder with
    | (.ok value, builder) => (.ok value, builder)
    | (.error failure, builder) => (.error (.failed failure), builder)⟩

/-- Call a target that has to return a value. -/
def callValue (target : Value) (arguments : List Value) : Body Value := do
  match ← (Build.call target arguments : Build (Option Value)) with
  | some value => return value
  | none => throw (.noValue (target.name?.getD "<callee>"))

end Body

/-- Run an edit from a state. -/
def Edit.runFrom {α : Type} (edit : Edit α) (function : FunctionDef) :
    Except GalleryError (α × FunctionDef) :=
  match edit.run function with
  | (.ok value, function) => .ok (value, function)
  | (.error violation, _) => .error (.failed (.violated violation))

/-- A finished function with a body. -/
def Draft.define (draft : Draft) (name : String) (signature : Signature) (body : Body Unit) :
    Except GalleryError FunctionDef := do
  let (builder, _) ← (Builder.start draft.layout).runFrom { name := name, signature := signature }
  match body.run builder with
  | (.error error, _) => throw error
  | (.ok _, builder) =>
    let (_, function) ← Edit.exitFunction.runFrom builder.function
    return function

end IrAssembly
