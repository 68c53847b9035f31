import IrAssembly.Command.Run

/-!
The program: it reads the command line and carries out its plan on the files of the system.
-/

namespace IrAssembly

/-- What the system says about a failed operation. -/
def systemMessage : IO.Error → String
  | .noFileOrDirectory _ code details
  | .permissionDenied (some _) code details
  | .alreadyExists (some _) code details
  | .inappropriateType (some _) code details
  | .invalidArgument (some _) code details => details ++ " (os error " ++ toString code ++ ")"
  | error => toString error

/-- Make a directory below its holder, which is made as well if it is missing. -/
def createBelow (holder path : String) : IO Unit := do
  unless holder.isEmpty do IO.FS.createDirAll holder
  try IO.FS.createDir path
  catch error =>
    match error with
    | .alreadyExists .. => IO.FS.createDirAll path
    | _ => throw error

/-- Carry out an action, or give the message of its failure. -/
def Action.execute : Action → IO (Except String Unit)
  | print text => do
    IO.print text
    return .ok ()
  | makeDirectory path => do
    match WrittenPath.ofText path with
    | .error fault => return .error fault.message
    | .ok written =>
      return ((← (createBelow written.holderText path).toBaseIO).mapError systemMessage)
  | writeText path text => do
    return ((← (IO.FS.writeFile path text).toBaseIO).mapError systemMessage)
  | writeListing path unit dialect => do
    match unit.assembly dialect with
    | .error error => return .error (OutputError.unwritable error).message
    | .ok text =>
      let written ← (IO.FS.writeFile path text).toBaseIO
      return written.mapError fun error =>
        "could not open output '" ++ path ++ "': " ++ systemMessage error

/-- Carry out actions up to the first that fails, and report the failure. -/
def executeAll (failure : Option String) : List Action → IO UInt32
  | [] => do
    let some message := failure | return 0
    IO.eprint (failureReport message)
    return .ofNat failureCode
  | action :: actions => do
    match ← action.execute with
    | .ok () => executeAll failure actions
    | .error message =>
      IO.eprint (failureReport message)
      return .ofNat failureCode

end IrAssembly

def main (arguments : List String) : IO UInt32 := do
  match IrAssembly.Request.ofArguments arguments with
  | none =>
    IO.eprint IrAssembly.usageText
    return .ofNat IrAssembly.misuseCode
  | some request =>
    let plan := request.plan (← IO.getEnv IrAssembly.Dialect.environmentVariable)
    IrAssembly.executeAll plan.failure plan.actions
