import IrAssembly.Ty.Basic

/-!
Target data layout: how the target places values in memory. All widths and alignments are in bits.
-/

namespace IrAssembly

inductive Endianness where
  | little
  | big
  deriving DecidableEq, Repr

/-- Alignments of one width of a kind of type. -/
structure AlignEntry where
  bits : UInt32
  abi : UInt32
  preferred : UInt32
  deriving DecidableEq, Repr

structure DataLayout where
  endianness : Endianness
  /-- Pointer size and alignment in the first address space. -/
  pointerSize : UInt32
  pointerAbi : UInt32
  integers : List AlignEntry
  floats : List AlignEntry
  vectors : List AlignEntry
  aggregateAbi : UInt32
  stackObjectAbi : UInt32
  nativeIntegerWidths : List UInt32
  stackAlignment : Option UInt32
  mangling : Option String
  deriving DecidableEq, Repr

end IrAssembly
