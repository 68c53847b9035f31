import IrAssembly.Layout.Basic

/-!
Sizes and alignments of types under a data layout, in bytes.
-/

namespace IrAssembly

/-- The bytes needed for a number of bits. -/
def bytesFor (bits : Nat) : Nat := (bits + 7) / 8

/-- The next multiple of an alignment; alignments zero and one ask for nothing. -/
def roundUp (value align : Nat) : Nat :=
  if align ≤ 1 then value else (value + (align - 1)) / align * align

/-- The least power of two that is no less than a number. -/
def nextPowerOfTwo (value : Nat) : Nat := if value ≤ 1 then 1 else 2 ^ ((value - 1).log2 + 1)

/-- Bytes of an allocation of a type, tail padding included, and its alignment. -/
structure Extent where
  size : Nat
  align : Nat
  deriving DecidableEq, Repr

/-- The end of the last of several fields that start at `offset`, each at its own alignment. -/
def Extent.fieldsEnd : List Extent → Nat → Nat
  | [], offset => offset
  | field :: fields, offset => fieldsEnd fields (roundUp offset field.align + field.size)

/-- The offset of each of several fields, aligned or packed without gaps. -/
def Extent.offsets (packed : Bool) : List Extent → Nat → List Nat
  | [], _ => []
  | field :: fields, offset =>
    let start := if packed then offset else roundUp offset field.align
    start :: offsets packed fields (start + field.size)

namespace DataLayout

/-- An alignment in bits as bytes; zero counts as one. -/
def abiBytes (abi : UInt32) : Nat := max (bytesFor abi.toNat) 1

/-- The alignment of an integer is that of its width, else of the first wider one listed, else
of the last one listed, else its size rounded up to a power of two. -/
def integerAlign (layout : DataLayout) (bits : UInt32) : Nat :=
  let exact := layout.integers.find? fun entry => entry.bits == bits
  let wider := layout.integers.find? fun entry => bits < entry.bits
  match exact <|> wider <|> layout.integers.getLast? with
  | some entry => abiBytes entry.abi
  | none => nextPowerOfTwo (bytesFor bits.toNat)

def floatAlign (layout : DataLayout) (kind : FloatKind) : Nat :=
  match layout.floats.find? fun entry => entry.bits.toNat == kind.bitWidth with
  | some entry => abiBytes entry.abi
  | none => nextPowerOfTwo (bytesFor kind.bitWidth)

/-- Vectors are looked up by their total width. -/
def vectorAlign (layout : DataLayout) (totalBits : Nat) : Nat :=
  match layout.vectors.find? fun entry => entry.bits.toNat == totalBits with
  | some entry => abiBytes entry.abi
  | none => nextPowerOfTwo (bytesFor totalBits)

/-- The width of a vector lane: scalars are packed without padding, other types by their size. -/
def laneBits (layout : DataLayout) (ty : Ty) (size : Nat) : Nat :=
  match ty with
  | .int bits => bits.toNat
  | .float kind => kind.bitWidth
  | .ptr _ => layout.pointerSize.toNat
  | _ => size * 8

/-- A scalar or vector of a number of bits, padded to its alignment. -/
def scalarExtent (bits align : Nat) : Extent := ⟨roundUp (bytesFor bits) align, align⟩

/-- The extent of a structure with fields of these extents. -/
def structExtent (layout : DataLayout) (fields : List Extent) (packed : Bool) : Extent :=
  if packed then ⟨(fields.map Extent.size).foldl (· + ·) 0, 1⟩
  else
    let align := (fields.map Extent.align).foldl max (abiBytes layout.aggregateAbi)
    ⟨roundUp (Extent.fieldsEnd fields 0) align, align⟩

mutual

def extent (layout : DataLayout) : Ty → Extent
  | .int bits => scalarExtent bits.toNat (layout.integerAlign bits)
  | .float kind => scalarExtent kind.bitWidth (layout.floatAlign kind)
  | .ptr _ => scalarExtent layout.pointerSize.toNat (abiBytes layout.pointerAbi)
  | .vector len element =>
    let total := len.toNat * layout.laneBits element (extent layout element).size
    scalarExtent total (layout.vectorAlign total)
  | .array len element =>
    let element := extent layout element
    ⟨len.toNat * element.size, element.align⟩
  | .struct _ fields packed => layout.structExtent (extents layout fields) packed
  | .void | .func _ _ _ | .bodiless _ | .label | .metadata => ⟨0, 1⟩

def extents (layout : DataLayout) : List Ty → List Extent
  | [] => []
  | ty :: types => extent layout ty :: extents layout types

end

@[simp] theorem extents_eq_map (layout : DataLayout) (types : List Ty) :
    layout.extents types = types.map layout.extent := by
  induction types with
  | nil => rfl
  | cons ty types ih => simp [extents, ih]

/-- Allocation size in bytes, tail padding included. -/
def sizeOf (layout : DataLayout) (ty : Ty) : Nat := (layout.extent ty).size

/-- Required alignment in bytes. -/
def alignOf (layout : DataLayout) (ty : Ty) : Nat := (layout.extent ty).align

/-- The number of bytes that a store of the type writes. -/
def storeSizeOf (layout : DataLayout) (ty : Ty) : Nat :=
  match ty with
  | .int bits => bytesFor bits.toNat
  | .float kind => bytesFor kind.bitWidth
  | .ptr _ => bytesFor layout.pointerSize.toNat
  | .vector len element => bytesFor (len.toNat * layout.laneBits element (layout.sizeOf element))
  | ty => layout.sizeOf ty

/-- The byte offset of every field of a structure body. -/
def fieldOffsets (layout : DataLayout) (fields : List Ty) (packed : Bool) : List Nat :=
  Extent.offsets packed (layout.extents fields) 0

end DataLayout

end IrAssembly
