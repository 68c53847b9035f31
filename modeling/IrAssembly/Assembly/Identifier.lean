import IrAssembly.FloatingPoint.Kind

/-!
Spelling of names, strings and floating point numbers in assembly.
-/

namespace IrAssembly

/-- The hexadecimal digit of a number below sixteen, in upper case. -/
def hexDigit (value : Nat) : Char :=
  if value < 10 then Char.ofNat ('0'.toNat + value) else Char.ofNat ('A'.toNat + (value - 10))

/-- The low `4 * width` bits of a number as `width` hexadecimal digits. -/
def hexDigits : Nat → Nat → List Char
  | 0, _ => []
  | width + 1, value => hexDigits width (value / 16) ++ [hexDigit (value % 16)]

def hexText (width value : Nat) : String := String.ofList (hexDigits width value)

/-- The UTF-8 bytes of a text. -/
def utf8Bytes (text : String) : List UInt8 := text.toList.flatMap String.utf8EncodeChar

/-- Printable ASCII other than the quote and the backslash stands for itself. -/
def isPlainByte (byte : UInt8) : Bool :=
  0x20 ≤ byte && byte < 0x7f && byte != 0x22 && byte != 0x5c

/-- Any other byte is written as a backslash and two digits. -/
def escapeByte (byte : UInt8) : List Char :=
  if isPlainByte byte then [Char.ofNat byte.toNat] else '\\' :: hexDigits 2 byte.toNat

/-- The text of a string constant between its quotes, byte by byte. -/
def escapeString (text : String) : String :=
  String.ofList ((utf8Bytes text).flatMap escapeByte)

def isNameChar (char : Char) : Bool :=
  char.isAlphanum || char == '-' || char == '$' || char == '.' || char == '_'

/-- A name needs no quotes if it is a number or a word that does not start with a digit. -/
def isPlainName (name : List Char) : Bool :=
  match name with
  | [] => false
  | first :: _ => name.all Char.isDigit || (!first.isDigit && name.all isNameChar)

/-- A name, in quotes when it is not plain. -/
def spelledName (name : String) : String :=
  if isPlainName name.toList then name else "\"" ++ escapeString name ++ "\""

/-- A name local to a function, or the name of a type. -/
def localName (name : String) : String := "%" ++ spelledName name

/-- A name of the module: a global variable or a function. -/
def globalName (name : String) : String := "@" ++ spelledName name

/-- The hexadecimal notation of a floating point constant. A single is written as the double of
the same value; a quadruple starts with its low half. -/
def FloatConstant.literal (constant : FloatConstant) : String :=
  let bits := constant.bits.toNat
  match constant.kind with
  | .half => "0xH" ++ hexText 4 bits
  | .single => "0x" ++ hexText 16 (widenedSingle bits)
  | .double => "0x" ++ hexText 16 bits
  | .x87 => "0xK" ++ hexText 20 bits
  | .quad => "0xL" ++ hexText 16 bits ++ hexText 16 (bits / 2 ^ 64)

end IrAssembly
