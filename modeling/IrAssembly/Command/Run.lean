import IrAssembly.Command.Arguments
import IrAssembly.Command.Directory
import IrAssembly.Gallery.Basic
import IrAssembly.Json.Printer
import IrAssembly.Wire.Module

/-!
What a command line does. A request is turned into a plan, a list of actions that may end in a
failure; the plan can then be carried out in a directory.
-/

namespace IrAssembly

inductive Action where
  | print (text : String)
  | makeDirectory (path : String)
  | writeText (path text : String)
  | writeListing (path : String) (unit : Module) (dialect : Dialect)
  deriving DecidableEq, Repr

/-- Actions in order, and the message of the failure that ends them. -/
structure Plan where
  actions : List Action
  failure : Option String := none
  deriving DecidableEq, Repr

/-- What a run leaves behind. -/
structure Outcome where
  code : Nat
  stdout : String := ""
  stderr : String := ""
  tree : Directory
  deriving DecidableEq, Repr

/-- The exit code of a misused command line. -/
def misuseCode : Nat := 2

/-- The exit code of a run that fails. -/
def failureCode : Nat := 1

/-- What is written about a failure. -/
def failureReport (message : String) : String := "Error: " ++ message ++ "\n"

def versionLine : String := "irbgen 0.1.0\n"

def helpText : String :=
  unlines
    ["irbgen - build example modules with the IR builder and print them as LLVM assembly.", "",
      "The dialect defaults to the " ++ Dialect.environmentVariable
        ++ " environment variable, then to 3.2.", "",
      "Usage: irbgen <COMMAND>", "",
      "Commands:",
      "  list      List the available generators",
      "  generate  Build one module and print it",
      "  all       Build every module into .ll files",
      "  help      Print this message"]

def usageText : String := "Usage: irbgen <COMMAND>\n\nFor more information, try '--help'.\n"

namespace Sample

/-- A sample in the list: its name in a column of sixteen characters, then its description. -/
def line (sample : Sample) : String :=
  sample.name ++ String.ofList (List.replicate (16 - sample.name.length) ' ') ++ " "
    ++ sample.description

/-- The file of a sample in a directory. -/
def file (sample : Sample) (directory : String) : String :=
  WrittenPath.join directory (sample.name ++ ".ll")

end Sample

namespace Plan

/-- One action. -/
def only (action : Action) : Plan := { actions := [action] }

/-- Nothing but a failure. -/
def fail (message : String) : Plan := { actions := [], failure := some message }

/-- One plan and, unless it fails, another one. -/
def andThen (first second : Plan) : Plan :=
  match first.failure with
  | none => { second with actions := first.actions ++ second.actions }
  | some _ => first

/-- The plan of a result, or the failure that takes its place. -/
def ofExcept {ε α : Type} (message : ε → String) (plan : α → Plan) : Except ε α → Plan
  | .ok value => plan value
  | .error error => fail (message error)

end Plan

namespace Command

/-- Write a text to a file, or to the standard output if none is named. -/
def emit (output : Option String) (text : String) : Plan :=
  match output with
  | some path => .only (.writeText path text)
  | none => .only (.print text)

/-- Write a module in the form that is asked for. -/
def emitModule (unit : Module) (output : Option String) (dialect : Dialect) (json : Bool) : Plan :=
  if json then emit output unit.toJson.pretty
  else
    .ofExcept (fun error => "write error: " ++ WriteError.message error) (emit output)
      (unit.assembly dialect)

/-- Write the listing of a sample into a directory and name the file. -/
def emitSample (sample : Sample) (directory : String) (dialect : Dialect) : Plan :=
  .ofExcept GalleryError.message
    (fun unit =>
      { actions :=
          [.writeListing (sample.file directory) unit dialect,
            .print (sample.file directory ++ "\n")] })
    sample.build

/-- The plan of a command, given the value of the environment variable that selects the dialect. -/
def plan (command : Command) (environment : Option String) : Plan :=
  match command with
  | list => { actions := Gallery.samples.map fun sample => .print (sample.line ++ "\n") }
  | generate name output dialect json =>
    match Gallery.find? name with
    | none => .fail ("unknown generator '" ++ name ++ "' (try `irbgen list`)")
    | some sample =>
      .ofExcept GalleryError.message
        (fun unit =>
          emitModule unit output (dialect.getD (.ofEnvironment environment)) json)
        sample.build
  | all directory dialect =>
    let dialect := dialect.getD (.ofEnvironment environment)
    (Gallery.samples.map fun sample => emitSample sample directory dialect).foldl Plan.andThen
      (.only (.makeDirectory directory))

end Command

/-- The plan of a request. -/
def Request.plan (request : Request) (environment : Option String) : Plan :=
  match request with
  | version => .only (.print versionLine)
  | help => .only (.print helpText)
  | run command => command.plan environment

namespace Action

/-- Carry out an action on files; printing leaves them as they are. -/
def perform (action : Action) (tree : Directory) : Except String Directory :=
  match action with
  | print _ => .ok tree
  | makeDirectory path => (tree.create path).mapError FileError.message
  | writeText path text => (tree.write path text).mapError FileError.message
  | writeListing path unit dialect =>
    (unit.writeListing dialect path tree).mapError OutputError.message

/-- What an action prints. -/
def printed : Action → String
  | print text => text
  | _ => ""

end Action

namespace Outcome

def failed (outcome : Outcome) (message : String) : Outcome :=
  { outcome with code := failureCode, stderr := outcome.stderr ++ failureReport message }

/-- Carry out actions in order up to the first that fails, then report the failure that the plan
ends in. -/
def afterActions (outcome : Outcome) (failure : Option String) : List Action → Outcome
  | [] => failure.elim outcome outcome.failed
  | action :: actions =>
    match action.perform outcome.tree with
    | .error message => outcome.failed message
    | .ok tree =>
      afterActions { outcome with stdout := outcome.stdout ++ action.printed, tree := tree } failure
        actions

end Outcome

/-- Carry out a plan in a directory. -/
def Plan.perform (plan : Plan) (tree : Directory) : Outcome :=
  Outcome.afterActions { code := 0, tree := tree } plan.failure plan.actions

/-- Run a command line in a directory. -/
def runCommandLine (arguments : List String) (environment : Option String) (tree : Directory) :
    Outcome :=
  match Request.ofArguments arguments with
  | some request => (request.plan environment).perform tree
  | none => { code := misuseCode, stderr := usageText, tree := tree }

end IrAssembly
