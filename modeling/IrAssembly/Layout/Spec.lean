import IrAssembly.Layout.Basic

/-!
Layout strings such as `e-p:64:64:64-i32:32:32-n8:16:32:64-S128`: tokens separated by dashes, each
a setting whose fields are separated by colons. A later token overrides an earlier one that names
the same setting.
-/

namespace IrAssembly

/-- Why a token is refused. -/
inductive LayoutFault where
  | notABitCount (field : String)
  | expectedAlignments
  | expectedPointer
  | unrecognized
  deriving DecidableEq, Repr

/-- A refused token and its fault. -/
structure LayoutError where
  token : String
  fault : LayoutFault
  deriving DecidableEq, Repr

def LayoutFault.message : LayoutFault → String
  | notABitCount field => "'" ++ field ++ "' is not a bit count"
  | expectedAlignments => "expected <abi>[:<pref>]"
  | expectedPointer => "expected p[n]:<size>:<abi>[:<pref>]"
  | unrecognized => "unrecognized specification"

def LayoutError.message (error : LayoutError) : String :=
  "invalid data layout token '" ++ error.token ++ "': " ++ error.fault.message

/-- Kinds of types that have alignments of their own for each width. -/
inductive AlignedKind where
  | integer
  | float
  | vector
  deriving DecidableEq, Repr

/-- What one token sets. -/
inductive LayoutItem where
  | endianness (endianness : Endianness)
  | pointer (addressSpace size abi : UInt32)
  | alignment (kind : AlignedKind) (entry : AlignEntry)
  | aggregate (abi : UInt32)
  | stackObject (abi : UInt32)
  | nativeIntegers (widths : List UInt32)
  | stack (bits : UInt32)
  | mangling (style : String)
  deriving DecidableEq, Repr

/-- The pieces between separators, empty ones included. -/
def pieces (separator : Char) : List Char → List (List Char)
  | [] => [[]]
  | char :: rest =>
    if char = separator then [] :: pieces separator rest
    else
      match pieces separator rest with
      | [] => [[char]]
      | piece :: others => (char :: piece) :: others

/-- The number spelled by decimal digits, if all characters are digits. -/
def digitsValue? : List Char → Nat → Option Nat
  | [], value => some value
  | char :: rest, value =>
    if char.isDigit then digitsValue? rest (10 * value + (char.toNat - '0'.toNat)) else none

/-- A bit count is a nonempty string of decimal digits, after an optional plus sign, with a value
below `2 ^ 32`. -/
def bitCount? (field : List Char) : Option UInt32 :=
  let digits := if field.head? = some '+' then field.tail else field
  if digits.isEmpty then none
  else
    match digitsValue? digits 0 with
    | some value => if value < 2 ^ 32 then some (.ofNat value) else none
    | none => none

namespace LayoutItem

def bitCount (field : List Char) : Except LayoutFault UInt32 :=
  match bitCount? field with
  | some count => .ok count
  | none => .error (.notABitCount (String.ofList field))

/-- The fields `abi` or `abi:preferred`; the preferred alignment defaults to the required one. -/
def alignments : List (List Char) → Except LayoutFault (UInt32 × UInt32)
  | [abi] => do
    let abi ← bitCount abi
    return (abi, abi)
  | [abi, preferred] => do
    let abi ← bitCount abi
    let preferred ← bitCount preferred
    return (abi, preferred)
  | _ => throw .expectedAlignments

def alignedEntry (kind : AlignedKind) (width : List Char) (fields : List (List Char)) :
    Except LayoutFault LayoutItem := do
  let bits ← bitCount width
  let (abi, preferred) ← alignments fields
  return .alignment kind ⟨bits, abi, preferred⟩

/-- Pointers name their address space after the letter, the first one if they name none. -/
def pointerEntry (space : List Char) (fields : List (List Char)) :
    Except LayoutFault LayoutItem := do
  let addressSpace ← if space.isEmpty then pure 0 else bitCount space
  match fields with
  | [] => throw .expectedPointer
  | size :: aligns =>
    let size ← bitCount size
    let (abi, _) ← alignments aligns
    return .pointer addressSpace size abi

/-- Read a token from its first character, the rest of its first field and its other fields. -/
def ofFields (kind : Char) (size : List Char) (fields : List (List Char)) :
    Except LayoutFault LayoutItem :=
  match kind with
  | 'e' | 'E' =>
    if size.isEmpty && fields.isEmpty then
      pure (.endianness (if kind = 'e' then .little else .big))
    else throw .unrecognized
  | 'p' => pointerEntry size fields
  | 'i' => alignedEntry .integer size fields
  | 'f' => alignedEntry .float size fields
  | 'v' => alignedEntry .vector size fields
  | 'a' => do return .aggregate (← alignments fields).1
  | 's' => do return .stackObject (← alignments fields).1
  | 'n' => do return .nativeIntegers (← (size :: fields).mapM bitCount)
  | 'S' => if fields.isEmpty then do return .stack (← bitCount size) else throw .unrecognized
  | 'm' =>
    match size, fields with
    | [], [style] => pure (.mangling (String.ofList style))
    | _, _ => throw .unrecognized
  | _ => throw .unrecognized

def ofToken (token : List Char) : Except LayoutError LayoutItem :=
  let item : Except LayoutFault LayoutItem :=
    match pieces ':' token with
    | (kind :: size) :: fields => ofFields kind size fields
    | _ => throw .unrecognized
  item.mapError fun fault => ⟨String.ofList token, fault⟩

end LayoutItem

/-- Put an entry in place of the first one of its width, or behind all others if there is none. -/
def upsert (entry : AlignEntry) : List AlignEntry → List AlignEntry
  | [] => [entry]
  | other :: entries =>
    if other.bits = entry.bits then entry :: entries else other :: upsert entry entries

/-- Put an entry in front of the first one that is no narrower. -/
def insertByWidth (entry : AlignEntry) : List AlignEntry → List AlignEntry
  | [] => [entry]
  | other :: entries =>
    if entry.bits ≤ other.bits then entry :: other :: entries
    else other :: insertByWidth entry entries

/-- The entries in ascending order of width; those of one width keep their order. -/
def sortByWidth : List AlignEntry → List AlignEntry
  | [] => []
  | entry :: entries => insertByWidth entry (sortByWidth entries)

namespace DataLayout

/-- What holds where a layout string says nothing. -/
def unspecified : DataLayout where
  endianness := .little
  pointerSize := 64
  pointerAbi := 64
  integers := []
  floats := []
  vectors := []
  aggregateAbi := 0
  stackObjectAbi := 64
  nativeIntegerWidths := []
  stackAlignment := none
  mangling := none

def apply (layout : DataLayout) : LayoutItem → DataLayout
  | .endianness endianness => { layout with endianness := endianness }
  | .pointer addressSpace size abi =>
    if addressSpace = 0 then { layout with pointerSize := size, pointerAbi := abi } else layout
  | .alignment .integer entry => { layout with integers := upsert entry layout.integers }
  | .alignment .float entry => { layout with floats := upsert entry layout.floats }
  | .alignment .vector entry => { layout with vectors := upsert entry layout.vectors }
  | .aggregate abi => { layout with aggregateAbi := abi }
  | .stackObject abi => { layout with stackObjectAbi := abi }
  | .nativeIntegers widths => { layout with nativeIntegerWidths := widths }
  | .stack bits => { layout with stackAlignment := some bits }
  | .mangling style => { layout with mangling := some style }

/-- The entries of each kind are sorted once, when all tokens are read. -/
def sortEntries (layout : DataLayout) : DataLayout :=
  { layout with
    integers := sortByWidth layout.integers
    floats := sortByWidth layout.floats
    vectors := sortByWidth layout.vectors }

/-- The tokens of a layout string; empty tokens say nothing. -/
def tokens (spec : String) : List (List Char) :=
  (pieces '-' spec.toList).filter fun token => !token.isEmpty

/-- Read a layout string; the first token that is no setting is reported. -/
def parse (spec : String) : Except LayoutError DataLayout := do
  let items ← (tokens spec).mapM LayoutItem.ofToken
  return (items.foldl apply unspecified).sortEntries

/-- The layout string of the x86-64 targets that code is built for by default. -/
def x86_64Spec : String :=
  "e-p:64:64:64-i1:8:8-i8:8:8-i16:16:16-i32:32:32-i64:64:64-f32:32:32-f64:64:64-v64:64:64-"
    ++ "v128:128:128-a0:0:64-s0:64:64-f80:128:128-n8:16:32:64-S128"

/-- The layout that `x86_64Spec` spells. -/
def x86_64 : DataLayout where
  endianness := .little
  pointerSize := 64
  pointerAbi := 64
  integers := [⟨1, 8, 8⟩, ⟨8, 8, 8⟩, ⟨16, 16, 16⟩, ⟨32, 32, 32⟩, ⟨64, 64, 64⟩]
  floats := [⟨32, 32, 32⟩, ⟨64, 64, 64⟩, ⟨80, 128, 128⟩]
  vectors := [⟨64, 64, 64⟩, ⟨128, 128, 128⟩]
  aggregateAbi := 0
  stackObjectAbi := 64
  nativeIntegerWidths := [8, 16, 32, 64]
  stackAlignment := some 128
  mangling := none

set_option maxRecDepth 20000 in
theorem parse_x86_64Spec : parse x86_64Spec = .ok x86_64 := by rfl

instance : Inhabited DataLayout := ⟨x86_64⟩

end DataLayout

end IrAssembly
