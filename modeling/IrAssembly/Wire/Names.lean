import IrAssembly.Layout.Basic
import IrAssembly.Module
import IrAssembly.Wire.Reading

/-!
Names of operators, flags and other plain choices in the interchange form.
-/

namespace IrAssembly

namespace FloatKind

def all : List FloatKind := [half, single, double, x87, quad]

def wireName : FloatKind → String
  | half => "Half"
  | single => "Float"
  | double => "Double"
  | x87 => "X86Fp80"
  | quad => "Fp128"

end FloatKind

namespace BinaryOperator

def all : List BinaryOperator :=
  [add, sub, mul, udiv, sdiv, urem, srem, shl, lshr, ashr, and, or, xor, fadd, fsub, fmul, fdiv,
    frem]

def wireName : BinaryOperator → String
  | add => "Add"
  | sub => "Sub"
  | mul => "Mul"
  | udiv => "UDiv"
  | sdiv => "SDiv"
  | urem => "URem"
  | srem => "SRem"
  | shl => "Shl"
  | lshr => "LShr"
  | ashr => "AShr"
  | and => "And"
  | or => "Or"
  | xor => "Xor"
  | fadd => "FAdd"
  | fsub => "FSub"
  | fmul => "FMul"
  | fdiv => "FDiv"
  | frem => "FRem"

end BinaryOperator

namespace BinaryFlag

def all : List BinaryFlag := [noUnsignedWrap, noSignedWrap, exact]

def wireName : BinaryFlag → String
  | noUnsignedWrap => "NoUnsignedWrap"
  | noSignedWrap => "NoSignedWrap"
  | exact => "Exact"

end BinaryFlag

namespace CompareOperator

def all : List CompareOperator :=
  [fpFalse, fpOrderedEqual, fpOrderedGreaterThan, fpOrderedGreaterOrEqual, fpOrderedLessThan,
    fpOrderedLessOrEqual, fpOrderedNotEqual, fpOrdered, fpUnordered, fpUnorderedEqual,
    fpUnorderedGreaterThan, fpUnorderedGreaterOrEqual, fpUnorderedLessThan,
    fpUnorderedLessOrEqual, fpUnorderedNotEqual, fpTrue, intEqual, intNotEqual,
    intUnsignedGreaterThan, intUnsignedGreaterOrEqual, intUnsignedLessThan,
    intUnsignedLessOrEqual, intSignedGreaterThan, intSignedGreaterOrEqual, intSignedLessThan,
    intSignedLessOrEqual]

def wireName : CompareOperator → String
  | fpFalse => "FpFalse"
  | fpOrderedEqual => "FpOrderedEqual"
  | fpOrderedGreaterThan => "FpOrderedGreaterThan"
  | fpOrderedGreaterOrEqual => "FpOrderedGreaterOrEqual"
  | fpOrderedLessThan => "FpOrderedLessThan"
  | fpOrderedLessOrEqual => "FpOrderedLessOrEqual"
  | fpOrderedNotEqual => "FpOrderedNotEqual"
  | fpOrdered => "FpOrdered"
  | fpUnordered => "FpUnordered"
  | fpUnorderedEqual => "FpUnorderedEqual"
  | fpUnorderedGreaterThan => "FpUnorderedGreaterThan"
  | fpUnorderedGreaterOrEqual => "FpUnorderedGreaterOrEqual"
  | fpUnorderedLessThan => "FpUnorderedLessThan"
  | fpUnorderedLessOrEqual => "FpUnorderedLessOrEqual"
  | fpUnorderedNotEqual => "FpUnorderedNotEqual"
  | fpTrue => "FpTrue"
  | intEqual => "IntEqual"
  | intNotEqual => "IntNotEqual"
  | intUnsignedGreaterThan => "IntUnsignedGreaterThan"
  | intUnsignedGreaterOrEqual => "IntUnsignedGreaterOrEqual"
  | intUnsignedLessThan => "IntUnsignedLessThan"
  | intUnsignedLessOrEqual => "IntUnsignedLessOrEqual"
  | intSignedGreaterThan => "IntSignedGreaterThan"
  | intSignedGreaterOrEqual => "IntSignedGreaterOrEqual"
  | intSignedLessThan => "IntSignedLessThan"
  | intSignedLessOrEqual => "IntSignedLessOrEqual"

end CompareOperator

namespace CastOperator

def all : List CastOperator :=
  [trunc, zext, sext, fpTrunc, fpExt, fpToUi, fpToSi, uiToFp, siToFp, ptrToInt, intToPtr, bitCast,
    addrSpaceCast]

def wireName : CastOperator → String
  | trunc => "Trunc"
  | zext => "ZExt"
  | sext => "SExt"
  | fpTrunc => "FpTrunc"
  | fpExt => "FpExt"
  | fpToUi => "FpToUi"
  | fpToSi => "FpToSi"
  | uiToFp => "UiToFp"
  | siToFp => "SiToFp"
  | ptrToInt => "PtrToInt"
  | intToPtr => "IntToPtr"
  | bitCast => "BitCast"
  | addrSpaceCast => "AddrSpaceCast"

end CastOperator

namespace AtomicOrdering

def all : List AtomicOrdering :=
  [notAtomic, unordered, monotonic, acquire, release, acquireRelease, sequentiallyConsistent]

def wireName : AtomicOrdering → String
  | notAtomic => "NotAtomic"
  | unordered => "Unordered"
  | monotonic => "Monotonic"
  | acquire => "Acquire"
  | release => "Release"
  | acquireRelease => "AcquireRelease"
  | sequentiallyConsistent => "SequentiallyConsistent"

end AtomicOrdering

namespace SynchronizationScope

def all : List SynchronizationScope := [singleThread, crossThread]

def wireName : SynchronizationScope → String
  | singleThread => "SingleThread"
  | crossThread => "CrossThread"

end SynchronizationScope

namespace Linkage

def all : List Linkage := [external, internal, unlisted]

def wireName : Linkage → String
  | external => "External"
  | internal => "Internal"
  | unlisted => "Private"

end Linkage

namespace Endianness

def all : List Endianness := [little, big]

def wireName : Endianness → String
  | little => "Little"
  | big => "Big"

end Endianness

namespace Reading

def floatKind : Reading FloatKind := oneOf FloatKind.wireName FloatKind.all
def binaryOperator : Reading BinaryOperator := oneOf BinaryOperator.wireName BinaryOperator.all
def binaryFlag : Reading BinaryFlag := oneOf BinaryFlag.wireName BinaryFlag.all
def compareOperator : Reading CompareOperator := oneOf CompareOperator.wireName CompareOperator.all
def castOperator : Reading CastOperator := oneOf CastOperator.wireName CastOperator.all
def atomicOrdering : Reading AtomicOrdering := oneOf AtomicOrdering.wireName AtomicOrdering.all
def scope : Reading SynchronizationScope :=
  oneOf SynchronizationScope.wireName SynchronizationScope.all
def linkage : Reading Linkage := oneOf Linkage.wireName Linkage.all
def endianness : Reading Endianness := oneOf Endianness.wireName Endianness.all

end Reading

end IrAssembly
