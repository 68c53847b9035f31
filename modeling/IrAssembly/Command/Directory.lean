import IrAssembly.Assembly.Listing

/-!
A tree of files as seen from a working directory: how a path is followed in it, and how files and
directories are made. Directories above the working directory and the root exist from the start.
-/

namespace IrAssembly

/-- Why a path cannot be followed, or nothing can be made where it leads. -/
inductive FileError where
  | notFound
  | alreadyExists
  | notADirectory
  | isADirectory
  | nameTooLong
  | nulInName
  deriving DecidableEq, Repr

def FileError.message : FileError → String
  | notFound => "No such file or directory (os error 2)"
  | alreadyExists => "File exists (os error 17)"
  | notADirectory => "Not a directory (os error 20)"
  | isADirectory => "Is a directory (os error 21)"
  | nameTooLong => "File name too long (os error 36)"
  | nulInName => "file name contained an unexpected NUL byte"

/-- The place of an entry: names on the way down from the working directory, after as many `..` as
lead up from it, or after `/` for the root. -/
abbrev Location := List String

namespace Location

/-- Whether a place lies on the way up from the working directory, or is the root. -/
def isAbove (location : Location) : Bool :=
  location == ["/"] || location.all (· == "..")

/-- Whether a place lies in the working directory. -/
def isInside (location : Location) : Bool :=
  location.head? != some "/" && location.head? != some ".."

/-- The place of the directory that holds a place. The root holds itself. -/
def parent (location : Location) : Location :=
  if location = ["/"] then location
  else if location.all (· == "..") then ".." :: location
  else location.dropLast

end Location

/-- The number of bytes that a path may have. -/
def maxPathBytes : Nat := 4095

/-- The number of bytes that a name in a path may have. -/
def maxNameBytes : Nat := 255

/-- A path as written: where it starts, its names, and whether a slash ends it. -/
structure WrittenPath where
  start : Location
  names : List String
  endsInSlash : Bool
  deriving DecidableEq, Repr

namespace WrittenPath

def ofText (text : String) : Except FileError WrittenPath := do
  if text.toList.contains '\x00' then throw .nulInName
  if maxPathBytes < text.utf8ByteSize then throw .nameTooLong
  return {
    start := if text.toList.head? = some '/' then ["/"] else []
    names := (text.toList.splitOn '/').filterMap fun name =>
      if name.isEmpty then none else some (String.ofList name)
    endsInSlash := text.toList.getLast? = some '/' }

/-- The path of a file below a directory. -/
def join (directory name : String) : String :=
  if directory.isEmpty || directory.toList.getLast? = some '/' then directory ++ name
  else directory ++ "/" ++ name

/-- The names that lead to the directory which holds the one that is meant. A `.` at the end names
nothing new, so the name before it is left out as well. -/
def holderNames (path : WrittenPath) : List String :=
  (path.names.reverse.dropWhile (· == ".")).tail.reverse

/-- The name after those that lead to the holder, with every `.` behind it. -/
def endingNames (path : WrittenPath) : List String := path.names.drop path.holderNames.length

/-- The path that leads to the holder, as a text; it is empty for a holder that is where the path
starts. -/
def holderText (path : WrittenPath) : String :=
  String.join path.start ++ "/".intercalate path.holderNames

end WrittenPath

/-- What a directory holds, in the order in which it was put there. Seen from the working
directory, what lies above it is held under the name `..`, and what lies in the root under `/`. -/
inductive Directory where
  | empty
  | file (name content : String) (rest : Directory)
  | directory (name : String) (inner rest : Directory)
  deriving DecidableEq, Repr

inductive DirectoryEntry where
  | file (content : String)
  | directory (inner : Directory)
  deriving DecidableEq, Repr

namespace Directory

/-- The entry with a name. -/
def child? (name : String) : Directory → Option DirectoryEntry
  | empty => none
  | file other content rest => if other = name then some (.file content) else rest.child? name
  | directory other inner rest =>
    if other = name then some (.directory inner) else rest.child? name

/-- An entry in front of others. -/
def cons (name : String) (entry : DirectoryEntry) (rest : Directory) : Directory :=
  match entry with
  | .file content => file name content rest
  | .directory inner => directory name inner rest

/-- Put an entry in place of the one with its name, or at the end. -/
def setChild (name : String) (entry : DirectoryEntry) : Directory → Directory
  | empty => cons name entry empty
  | file other content rest =>
    if other = name then cons name entry rest else file other content (rest.setChild name entry)
  | directory other inner rest =>
    if other = name then cons name entry rest else directory other inner (rest.setChild name entry)

theorem child?_cons (name other : String) (entry : DirectoryEntry) (rest : Directory) :
    (cons other entry rest).child? name =
      if other = name then some entry else rest.child? name := by
  cases entry <;> simp [cons, child?]

/-- What was put under a name is found under it. -/
theorem child?_setChild_self (name : String) (entry : DirectoryEntry) (tree : Directory) :
    (tree.setChild name entry).child? name = some entry := by
  induction tree with
  | empty => simp [setChild, child?_cons]
  | file other content rest ih =>
    by_cases same : other = name <;> simp [setChild, same, child?_cons, child?, ih]
  | directory other inner rest _ ih =>
    by_cases same : other = name <;> simp [setChild, same, child?_cons, child?, ih]

/-- Other names are not touched. -/
theorem child?_setChild_of_ne {name other : String} (entry : DirectoryEntry) (tree : Directory)
    (different : other ≠ name) : (tree.setChild other entry).child? name = tree.child? name := by
  induction tree with
  | empty => simp [setChild, child?_cons, different, child?]
  | file third content rest ih =>
    by_cases same : third = other <;> simp [setChild, same, child?_cons, child?, different, ih]
  | directory third inner rest _ ih =>
    by_cases same : third = other <;> simp [setChild, same, child?_cons, child?, different, ih]

/-- The directory with a name; one that is missing holds nothing. -/
def inner (tree : Directory) (name : String) : Directory :=
  match tree.child? name with
  | some (.directory inner) => inner
  | _ => empty

/-- The entry at the end of a way down. -/
def find? (tree : Directory) : Location → Option DirectoryEntry
  | [] => some (.directory tree)
  | [name] => tree.child? name
  | name :: names => (tree.inner name).find? names

def entry? (tree : Directory) (location : Location) : Option DirectoryEntry :=
  match tree.find? location with
  | none => if location.isAbove then some (.directory empty) else none
  | found => found

/-- Put an entry at the end of a way down. -/
def insert (tree : Directory) (entry : DirectoryEntry) : Location → Directory
  | [] => tree
  | [name] => tree.setChild name entry
  | name :: names => tree.setChild name (.directory ((tree.inner name).insert entry names))

/-- The files in a directory and below it, each behind the names that lead to it. -/
def filesBelow (above : Location) : Directory → List (Location × String)
  | empty => []
  | file name content rest => (above ++ [name], content) :: rest.filesBelow above
  | directory name inner rest => inner.filesBelow (above ++ [name]) ++ rest.filesBelow above

/-- The files of the working directory, by their paths. -/
def files (tree : Directory) : List (String × String) :=
  (tree.filesBelow []).filterMap fun (location, content) =>
    if location.isInside then some ("/".intercalate location, content) else none

/-- Names can be followed only from a directory. -/
def requireDirectory (tree : Directory) (location : Location) : Except FileError Unit :=
  match tree.entry? location with
  | none => throw .notFound
  | some (.file _) => throw .notADirectory
  | some (.directory _) => return ()

/-- Follow one name from a place. -/
def follow (tree : Directory) (location : Location) (name : String) :
    Except FileError Location := do
  tree.requireDirectory location
  if name = "." then return location
  if name = ".." then return location.parent
  if maxNameBytes < name.utf8ByteSize then throw .nameTooLong
  return location ++ [name]

/-- Write a file, in place of a file that is there already. A slash at the end asks for a
directory, whatever name stands before it. -/
def write (tree : Directory) (path content : String) : Except FileError Directory := do
  let path ← WrittenPath.ofText path
  let some name := path.names.getLast? | throw .isADirectory
  let holder ← path.names.dropLast.foldlM tree.follow path.start
  tree.requireDirectory holder
  if path.endsInSlash then throw .isADirectory
  let location ← tree.follow holder name
  match tree.entry? location with
  | some (.directory _) => throw .isADirectory
  | _ => return tree.insert (.file content) location

/-- Read a file. -/
def read (tree : Directory) (path : String) : Except FileError String := do
  let path ← WrittenPath.ofText path
  let location ← path.names.foldlM tree.follow path.start
  match tree.entry? location with
  | none => throw .notFound
  | some (.directory _) => throw .isADirectory
  | some (.file content) => if path.endsInSlash then throw .notADirectory else return content

/-- Follow one name and make a directory there if there is nothing. -/
def enter (state : Directory × Location) (name : String) :
    Except FileError (Directory × Location) := do
  let (tree, location) := state
  let location ← tree.follow location name
  match tree.entry? location with
  | some _ => return (tree, location)
  | none => return (tree.insert (.directory empty) location, location)

/-- Make a directory and those that hold it, as far as they are missing. A `.` can be followed only
from a directory that is there, so a path that ends in one makes the holders and nothing more. -/
def create (tree : Directory) (path : String) : Except FileError Directory := do
  let path ← WrittenPath.ofText path
  let (tree, holder) ← path.holderNames.foldlM enter (tree, path.start)
  let location ← path.endingNames.foldlM tree.follow holder
  match tree.entry? location with
  | some (.directory _) => return tree
  | some (.file _) => throw .alreadyExists
  | none => return tree.insert (.directory empty) location

end Directory

/-- Why a listing cannot be written to a file. -/
inductive OutputError where
  | cannotOpen (path : String) (fault : FileError)
  | unwritable (error : WriteError)
  deriving DecidableEq, Repr

def OutputError.message : OutputError → String
  | cannotOpen path fault => "could not open output '" ++ path ++ "': " ++ fault.message
  | unwritable error => "write error: " ++ error.message

/-- Write the listing of a module to a file. That the file can be opened is found out first. -/
def Module.writeListing (unit : Module) (dialect : Dialect) (path : String) (tree : Directory) :
    Except OutputError Directory := do
  discard ((tree.write path "").mapError (.cannotOpen path))
  let text ← (unit.assembly dialect).mapError .unwritable
  (tree.write path text).mapError (.cannotOpen path)

end IrAssembly
