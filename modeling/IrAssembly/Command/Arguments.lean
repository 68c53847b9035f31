import IrAssembly.Assembly.Dialect

/-!
Reading the command line. The first argument names a command; names of options begin with dashes,
and after a bare `--` every argument is taken as it is.
-/

namespace IrAssembly

inductive Command where
  /-- Name the samples. -/
  | list
  /-- Build one sample and write it to a file or to the standard output. -/
  | generate (name : String) (output : Option String) (dialect : Option Dialect) (json : Bool)
  /-- Build every sample into a directory. -/
  | all (directory : String) (dialect : Option Dialect)
  deriving DecidableEq, Repr

/-- What a command line asks for. -/
inductive Request where
  | version
  | help
  | run (command : Command)
  deriving DecidableEq, Repr

namespace Command

/-- The spelling of an argument. -/
inductive Token where
  /-- Two dashes alone. -/
  | separator
  /-- A name after two dashes, and a value after an equals sign. -/
  | long (name : List Char) (value : Option (List Char))
  /-- Letters after one dash. -/
  | short (letters : List Char)
  | plain
  deriving DecidableEq, Repr

def Token.ofChars : List Char → Token
  | ['-', '-'] => separator
  | '-' :: '-' :: chars =>
    match chars.dropWhile (· != '=') with
    | _ :: value => long (chars.takeWhile (· != '=')) (some value)
    | [] => long chars none
  | '-' :: letter :: letters => short (letter :: letters)
  | _ => plain

/-- Something that can be set on the command line. -/
inductive Setting where
  | name
  | path
  | dialect
  | json
  | help
  deriving DecidableEq, Repr

/-- Whether an option of this setting has a value. -/
def Setting.takesValue : Setting → Bool
  | name | path | dialect => true
  | json | help => false

/-- The settings that a command knows, by the names of their options. -/
structure Form where
  /-- Whether an argument that is no option gives a name. -/
  takesName : Bool
  long : List (String × Setting)
  short : List (Char × Setting)
  deriving DecidableEq, Repr

/-- What has been set; nothing can be set twice. -/
structure Settings where
  name : Option String := none
  path : Option String := none
  dialect : Option Dialect := none
  json : Bool := false
  deriving DecidableEq, Repr

/-- Why reading stops before the end of the command line. -/
inductive Stop where
  /-- The arguments are wrong. -/
  | misuse
  /-- Help is asked for. -/
  | help
  deriving DecidableEq, Repr

/-- The dialect with exactly this name. -/
def exactDialect? (text : String) : Option Dialect :=
  [Dialect.v32, Dialect.v38].find? fun dialect => dialect.text == text

namespace Settings

/-- Set something that has a value. A path is not empty. -/
def give (settings : Settings) (setting : Setting) (value : String) : Except Stop Settings :=
  match setting with
  | .name =>
    if settings.name.isSome then .error .misuse else .ok { settings with name := some value }
  | .path =>
    if settings.path.isSome || value.isEmpty then .error .misuse
    else .ok { settings with path := some value }
  | .dialect =>
    match settings.dialect, exactDialect? value with
    | none, some dialect => .ok { settings with dialect := some dialect }
    | _, _ => .error .misuse
  | .json | .help => .error .misuse

/-- Set something that has no value. -/
def mark (settings : Settings) (setting : Setting) : Except Stop Settings :=
  match setting with
  | .json => if settings.json then .error .misuse else .ok { settings with json := true }
  | .help => .error .help
  | .name | .path | .dialect => .error .misuse

end Settings

namespace Form

/-- Take an argument as a name. -/
def giveName (form : Form) (settings : Settings) (text : String) : Except Stop Settings :=
  if form.takesName then settings.give .name text else .error .misuse

/-- Read letters of options. What follows the letter of an option with a value is that value, an
equals sign before it aside; the last letter may leave its value to the next argument. -/
def readLetters (form : Form) :
    Settings → List Char → Except Stop (Option Setting × Settings)
  | settings, [] => .ok (none, settings)
  | settings, letter :: rest =>
    match form.short.lookup letter with
    | none => .error .misuse
    | some setting =>
      if setting.takesValue then
        match rest with
        | [] => .ok (some setting, settings)
        | '=' :: value => (none, ·) <$> settings.give setting (String.ofList value)
        | value => (none, ·) <$> settings.give setting (String.ofList value)
      else do form.readLetters (← settings.mark setting) rest

/-- Read an option given by its long name. -/
def readLong (form : Form) (settings : Settings) (name : List Char) (value : Option (List Char)) :
    Except Stop (Option Setting × Settings) :=
  match form.long.lookup (String.ofList name), value with
  | none, _ => .error .misuse
  | some setting, some value => (none, ·) <$> settings.give setting (String.ofList value)
  | some setting, none =>
    if setting.takesValue then .ok (some setting, settings)
    else (none, ·) <$> settings.mark setting

/-- Read the arguments of a command. An option may wait for its value, which is the next argument
and must not look like an option. -/
def read (form : Form) : Option Setting × Settings → List String → Except Stop Settings
  | (none, settings), [] => .ok settings
  | (some _, _), [] => .error .misuse
  | (waiting, settings), argument :: rest =>
    match waiting, Token.ofChars argument.toList with
    | none, .separator => rest.foldlM form.giveName settings
    | none, .plain => do form.read (none, ← form.giveName settings argument) rest
    | some setting, .plain => do form.read (none, ← settings.give setting argument) rest
    | none, .long name value => do form.read (← form.readLong settings name value) rest
    | none, .short letters => do form.read (← form.readLetters settings letters) rest
    | some _, _ => .error .misuse

end Form

def helpOption : List (String × Setting) := [("help", .help)]

def helpLetter : List (Char × Setting) := [('h', .help)]

def listForm : Form := ⟨false, helpOption, helpLetter⟩

def generateForm : Form where
  takesName := true
  long := [("output", .path), ("llvm-version", .dialect), ("json", .json)] ++ helpOption
  short := [('o', .path)] ++ helpLetter

def allForm : Form where
  takesName := false
  long := [("out-dir", .path), ("llvm-version", .dialect)] ++ helpOption
  short := helpLetter

/-- The request that settings make, or that stopping makes; misuse makes none. -/
def requestOf (command : Settings → Option Command) (read : Except Stop Settings) :
    Option Request :=
  match read with
  | .ok settings => .run <$> command settings
  | .error .help => some .help
  | .error .misuse => none

/-- The request that the arguments of a command make. -/
def request (form : Form) (command : Settings → Option Command) (arguments : List String) :
    Option Request :=
  requestOf command (form.read (none, {}) arguments)

/-- A sample has to be named. -/
def ofGenerateSettings (settings : Settings) : Option Command := do
  return .generate (← settings.name) settings.path settings.dialect settings.json

/-- Samples are built into the working directory unless another one is named. -/
def ofAllSettings (settings : Settings) : Command :=
  .all (settings.path.getD ".") settings.dialect

end Command

/-- Help on no command or on a known one. -/
def Request.ofHelpArguments : List String → Option Request
  | [] | ["list"] | ["generate"] | ["all"] | ["help"] => some .help
  | _ => none

/-- What a command line asks for; nothing if it is misused. -/
def Request.ofArguments : List String → Option Request
  | "list" :: arguments => Command.request Command.listForm (fun _ => some .list) arguments
  | "generate" :: arguments =>
    Command.request Command.generateForm Command.ofGenerateSettings arguments
  | "all" :: arguments =>
    Command.request Command.allForm (fun settings => some (.ofAllSettings settings)) arguments
  | "help" :: arguments => ofHelpArguments arguments
  | "--version" :: _ => some .version
  | "--help" :: _ => some .help
  | argument :: _ =>
    match argument.toList with
    | '-' :: 'V' :: _ => some .version
    | '-' :: 'h' :: _ => some .help
    | _ => none
  | [] => none

end IrAssembly
