import IrAssembly.FloatingPoint.Conversion
import IrAssembly.FloatingPoint.Format

/-!
The floating point kinds of the type system and the conversions between a double and the bit
pattern of each kind.
-/

namespace IrAssembly

inductive FloatKind where
  | half
  | single
  | double
  | x87
  | quad
  deriving DecidableEq, Repr

namespace FloatKind

/-- Width of the value representation in bits. -/
def bitWidth : FloatKind → Nat
  | half => 16
  | single => 32
  | double => 64
  | x87 => 80
  | quad => 128

def text : FloatKind → String
  | half => "half"
  | single => "float"
  | double => "double"
  | x87 => "x86_fp80"
  | quad => "fp128"

end FloatKind

namespace FloatDatum

/-- Single precision keeps the upper payload bits of a double's NaN and makes it quiet. -/
def singleBits : FloatDatum → Nat
  | finite negative significand exponent => BinaryFormat.single.round negative significand exponent
  | infinity negative => BinaryFormat.single.signed negative BinaryFormat.single.infinityBits
  | nan negative payload =>
    BinaryFormat.single.signed negative
      (BinaryFormat.single.infinityBits + 2 ^ 22 + payload / 2 ^ 29 % 2 ^ 22)

/-- Widening a half to a double is exact; every NaN becomes the one positive quiet NaN. -/
def doubleBitsOfHalf : FloatDatum → Nat
  | finite negative significand exponent => BinaryFormat.double.round negative significand exponent
  | infinity negative => BinaryFormat.double.signed negative BinaryFormat.double.infinityBits
  | nan _ _ => BinaryFormat.double.infinityBits + 2 ^ 51

/-- Widening a single to a double is exact; a NaN keeps sign and payload and becomes quiet. -/
def doubleBitsOfSingle : FloatDatum → Nat
  | finite negative significand exponent => BinaryFormat.double.round negative significand exponent
  | infinity negative => BinaryFormat.double.signed negative BinaryFormat.double.infinityBits
  | nan negative payload =>
    BinaryFormat.double.signed negative
      (BinaryFormat.double.infinityBits + 2 ^ 51 + payload * 2 ^ 29 % 2 ^ 51)

end FloatDatum

/-- The double nearest to an integer, ties to even. -/
def doubleOfInt (value : Int) : UInt64 :=
  .ofNat (BinaryFormat.double.round (value < 0) value.natAbs 0)

namespace FloatKind

/-- The pattern of a double in the notation of the kind. -/
def ofDouble (kind : FloatKind) (double : UInt64) : BitVec 128 :=
  match kind with
  | half => (halfOfDouble double).toBitVec.setWidth 128
  | single => .ofNat 128 (BinaryFormat.double.decode double.toNat).singleBits
  | FloatKind.double => .ofNat 128 double.toNat
  | x87 => extendedOfDouble double
  | quad => quadOfDouble double

end FloatKind

/-- A floating point constant: the bit pattern of its kind. Only the low `kind.bitWidth` bits
count. -/
structure FloatConstant where
  kind : FloatKind
  bits : BitVec 128
  deriving DecidableEq, Repr

namespace FloatConstant

/-- The constant of a kind nearest to a double. -/
def ofDouble (kind : FloatKind) (double : UInt64) : FloatConstant :=
  ⟨kind, kind.ofDouble double⟩

/-- A single's pattern widened to a double. -/
def widenedSingle (bits : Nat) : Nat := (BinaryFormat.single.decode bits).doubleBitsOfSingle

/-- The constant as a double, for the kinds that a double can hold exactly. -/
def toDouble? (constant : FloatConstant) : Option UInt64 :=
  let bits := constant.bits.toNat
  match constant.kind with
  | .half => some (.ofNat (BinaryFormat.half.decode bits).doubleBitsOfHalf)
  | .single => some (.ofNat (widenedSingle bits))
  | .double => some (.ofNat bits)
  | .x87 | .quad => none

end FloatConstant

end IrAssembly
