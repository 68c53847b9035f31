import IrAssembly.Json.Basic

/-!
Reading JSON text. Each reader takes what it needs from the front of the text and returns the rest.
-/

namespace IrAssembly.Json

def isBlank (char : Char) : Bool :=
  char == ' ' || char == '\t' || char == '\n' || char == '\r'

def skipBlanks (chars : List Char) : List Char := chars.dropWhile isBlank

/-- The digits of a number in decimal. -/
def decimalValue (digits : List Char) : Nat :=
  digits.foldl (fun value digit => 10 * value + (digit.toNat - '0'.toNat)) 0

/-- Digits up to the first other character; there has to be one. -/
def takeDigits (chars : List Char) : Option (List Char × List Char) :=
  match chars.takeWhile Char.isDigit with
  | [] => none
  | digits => some (digits, chars.dropWhile Char.isDigit)

/-- What follows a fraction, if there is one. -/
def skipFraction : List Char → Option (List Char)
  | '.' :: rest => (takeDigits rest).map Prod.snd
  | chars => some chars

/-- What follows an exponent, if there is one. -/
def skipExponent : List Char → Option (List Char)
  | char :: rest =>
    if char = 'e' ∨ char = 'E' then
      match rest with
      | sign :: digits =>
        if sign = '+' ∨ sign = '-' then (takeDigits digits).map Prod.snd
        else (takeDigits rest).map Prod.snd
      | [] => none
    else some (char :: rest)
  | [] => some []

/-- A number without its sign; it has no zero in front of other digits. -/
def readMagnitude (negative : Bool) (chars : List Char) : Option (Json × List Char) := do
  let (digits, afterDigits) ← takeDigits chars
  if digits.head? = some '0' ∧ digits.length ≠ 1 then failure
  let afterFraction ← skipFraction afterDigits
  let rest ← skipExponent afterFraction
  if rest.length = afterDigits.length then return (.int negative (decimalValue digits), rest)
  else return (.real, rest)

def readNumber : List Char → Option (Json × List Char)
  | '-' :: rest => readMagnitude true rest
  | chars => readMagnitude false chars

/-- A piece of a string: a character, or a code unit given by its number. -/
inductive StringPiece where
  | char (char : Char)
  | unit (value : Nat)
  deriving DecidableEq, Repr

def hexValue? (char : Char) : Option Nat :=
  if char.isDigit then some (char.toNat - '0'.toNat)
  else if 'a' ≤ char ∧ char ≤ 'f' then some (char.toNat - 'a'.toNat + 10)
  else if 'A' ≤ char ∧ char ≤ 'F' then some (char.toNat - 'A'.toNat + 10)
  else none

/-- The code unit of four hexadecimal digits. -/
def unitValue? (a b c d : Char) : Option Nat := do
  return ((← hexValue? a) * 16 + (← hexValue? b)) * 256 + (← hexValue? c) * 16 + (← hexValue? d)

/-- The character of an escape of one letter. -/
def escaped? (char : Char) : Option Char :=
  match char with
  | '"' => some '"'
  | '\\' => some '\\'
  | '/' => some '/'
  | 'b' => some '\x08'
  | 'f' => some '\x0c'
  | 'n' => some '\n'
  | 'r' => some '\r'
  | 't' => some '\t'
  | _ => none

/-- The pieces of a string up to its closing quote. Control characters have to be escaped. -/
def readPieces : List Char → Option (List StringPiece × List Char)
  | [] => none
  | '"' :: rest => some ([], rest)
  | '\\' :: 'u' :: a :: b :: c :: d :: rest => do
    let unit ← unitValue? a b c d
    let (pieces, rest) ← readPieces rest
    return (.unit unit :: pieces, rest)
  | '\\' :: letter :: rest => do
    let char ← escaped? letter
    let (pieces, rest) ← readPieces rest
    return (.char char :: pieces, rest)
  | char :: rest =>
    if char = '\\' ∨ char.toNat < 0x20 then none
    else do
      let (pieces, rest) ← readPieces rest
      return (.char char :: pieces, rest)

def isLeading (unit : Nat) : Bool := 0xd800 ≤ unit && unit < 0xdc00

def isTrailing (unit : Nat) : Bool := 0xdc00 ≤ unit && unit < 0xe000

/-- The text of a string's pieces. A leading surrogate has to be followed by a trailing one. -/
def assemble : List StringPiece → Option (List Char)
  | [] => some []
  | .char char :: pieces => (assemble pieces).map (char :: ·)
  | .unit leading :: .unit trailing :: pieces =>
    if isLeading leading then
      if isTrailing trailing then
        (assemble pieces).map
          (Char.ofNat (0x10000 + (leading - 0xd800) * 0x400 + (trailing - 0xdc00)) :: ·)
      else none
    else if isTrailing leading then none
    else (assemble (.unit trailing :: pieces)).map (Char.ofNat leading :: ·)
  | .unit unit :: pieces =>
    if isLeading unit || isTrailing unit then none
    else (assemble pieces).map (Char.ofNat unit :: ·)

/-- A string after its opening quote. -/
def readString (chars : List Char) : Option (Option String × List Char) := do
  let (pieces, rest) ← readPieces chars
  return ((assemble pieces).map String.ofList, rest)

mutual

/-- A value, with as many nested readers as the first argument allows. -/
def readValue : Nat → List Char → Option (Json × List Char)
  | 0, _ => none
  | fuel + 1, chars =>
    match skipBlanks chars with
    | 'n' :: 'u' :: 'l' :: 'l' :: rest => some (.null, rest)
    | 't' :: 'r' :: 'u' :: 'e' :: rest => some (.bool true, rest)
    | 'f' :: 'a' :: 'l' :: 's' :: 'e' :: rest => some (.bool false, rest)
    | '"' :: rest => do
      let (text, rest) ← readString rest
      return (.str text, rest)
    | '[' :: rest =>
      match skipBlanks rest with
      | ']' :: rest => some (.arr [], rest)
      | rest => do
        let (items, rest) ← readItems fuel rest
        return (.arr items, rest)
    | '\x7b' :: rest =>
      match skipBlanks rest with
      | '\x7d' :: rest => some (.obj [], rest)
      | rest => do
        let (members, rest) ← readMembers fuel rest
        return (.obj members, rest)
    | chars => readNumber chars

/-- The items of an array up to its closing bracket; there is at least one. -/
def readItems : Nat → List Char → Option (List Json × List Char)
  | 0, _ => none
  | fuel + 1, chars => do
    let (item, rest) ← readValue fuel chars
    match skipBlanks rest with
    | ',' :: rest => do
      let (items, rest) ← readItems fuel rest
      return (item :: items, rest)
    | ']' :: rest => return ([item], rest)
    | _ => none

/-- The members of an object up to its closing brace; there is at least one. -/
def readMembers : Nat → List Char → Option (List (Option String × Json) × List Char)
  | 0, _ => none
  | fuel + 1, chars => do
    let '"' :: rest := skipBlanks chars | none
    let (name, rest) ← readString rest
    let ':' :: rest := skipBlanks rest | none
    let (value, rest) ← readValue fuel rest
    match skipBlanks rest with
    | ',' :: rest => do
      let (members, rest) ← readMembers fuel rest
      return ((name, value) :: members, rest)
    | '\x7d' :: rest => return ([(name, value)], rest)
    | _ => none

end

/-- The value that a text spells, with nothing but blanks around it. Every nested reader takes a
character that its parent left, so the length of the text bounds the nesting. -/
def parse (text : String) : Option Json := do
  let chars := text.toList
  let (json, rest) ← readValue (2 * chars.length + 2) chars
  if (skipBlanks rest).isEmpty then return json else none

end IrAssembly.Json
