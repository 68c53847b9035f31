import IrAssembly.Json.Basic

/-!
Text of JSON values: compact, without any blanks, and pretty, with one member or item a line.
-/

namespace IrAssembly.Json

/-- The hexadecimal digit of a number below sixteen, in lower case. -/
def lowerHexDigit (value : Nat) : Char :=
  if value < 10 then Char.ofNat ('0'.toNat + value) else Char.ofNat ('a'.toNat + (value - 10))

/-- Quotes, backslashes and control characters are escaped; all other characters stand for
themselves. -/
def escapeChar (char : Char) : List Char :=
  match char with
  | '"' => ['\\', '"']
  | '\\' => ['\\', '\\']
  | '\x08' => ['\\', 'b']
  | '\x0c' => ['\\', 'f']
  | '\n' => ['\\', 'n']
  | '\r' => ['\\', 'r']
  | '\t' => ['\\', 't']
  | _ =>
    if char.toNat < 0x20 then
      ['\\', 'u', '0', '0', lowerHexDigit (char.toNat / 16), lowerHexDigit (char.toNat % 16)]
    else [char]

/-- A string in quotes. What is no Unicode text is written as half of a surrogate pair. -/
def quoted : Option String → String
  | some text => "\"" ++ String.ofList (text.toList.flatMap escapeChar) ++ "\""
  | none => "\"\\ud800\""

/-- The text of a value that has no parts. -/
def scalarText : Json → String
  | bool value => if value then "true" else "false"
  | int negative magnitude => (if negative then "-" else "") ++ toString magnitude
  | real => "0.0"
  | str text => quoted text
  | _ => "null"

mutual

def compact : Json → String
  | arr items => "[" ++ ",".intercalate (compactItems items) ++ "]"
  | obj members => "\x7b" ++ ",".intercalate (compactMembers members) ++ "\x7d"
  | null => scalarText null
  | bool value => scalarText (bool value)
  | int negative magnitude => scalarText (int negative magnitude)
  | real => scalarText real
  | str text => scalarText (str text)

def compactItems : List Json → List String
  | [] => []
  | item :: items => compact item :: compactItems items

def compactMembers : List (Option String × Json) → List String
  | [] => []
  | (name, value) :: members => (quoted name ++ ":" ++ compact value) :: compactMembers members

end

/-- A line break and the indentation of a nesting level. -/
def newLine (level : Nat) : String := "\n" ++ String.ofList (List.replicate (2 * level) ' ')

/-- Parts between brackets, each on a line of its own. -/
def block (opening closing : String) (level : Nat) (parts : List String) : String :=
  if parts.isEmpty then opening ++ closing
  else
    opening ++ newLine (level + 1) ++ ("," ++ newLine (level + 1)).intercalate parts
      ++ newLine level ++ closing

mutual

/-- The pretty text of a value at a nesting level. -/
def prettyAt : Nat → Json → String
  | level, arr items => block "[" "]" level (prettyItems (level + 1) items)
  | level, obj members => block "\x7b" "\x7d" level (prettyMembers (level + 1) members)
  | _, null => scalarText null
  | _, bool value => scalarText (bool value)
  | _, int negative magnitude => scalarText (int negative magnitude)
  | _, real => scalarText real
  | _, str text => scalarText (str text)

def prettyItems : Nat → List Json → List String
  | _, [] => []
  | level, item :: items => prettyAt level item :: prettyItems level items

def prettyMembers : Nat → List (Option String × Json) → List String
  | _, [] => []
  | level, (name, value) :: members =>
    (quoted name ++ ": " ++ prettyAt level value) :: prettyMembers level members

end

def pretty (json : Json) : String := prettyAt 0 json

end IrAssembly.Json
