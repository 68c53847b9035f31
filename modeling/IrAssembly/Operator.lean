/-!
Operators, flags and memory orderings carried by instructions, with their assembly keywords.
-/

namespace IrAssembly

inductive BinaryOperator where
  | add | sub | mul
  | udiv | sdiv
  | urem | srem
  | shl | lshr | ashr
  | and | or | xor
  | fadd | fsub | fmul | fdiv | frem
  deriving DecidableEq, Repr

namespace BinaryOperator

def isFloatingPoint : BinaryOperator → Bool
  | fadd | fsub | fmul | fdiv | frem => true
  | _ => false

def text : BinaryOperator → String
  | add => "add"
  | sub => "sub"
  | mul => "mul"
  | udiv => "udiv"
  | sdiv => "sdiv"
  | urem => "urem"
  | srem => "srem"
  | shl => "shl"
  | lshr => "lshr"
  | ashr => "ashr"
  | and => "and"
  | or => "or"
  | xor => "xor"
  | fadd => "fadd"
  | fsub => "fsub"
  | fmul => "fmul"
  | fdiv => "fdiv"
  | frem => "frem"

end BinaryOperator

/-- Wrap and exactness flags of integer operations. -/
inductive BinaryFlag where
  | noUnsignedWrap
  | noSignedWrap
  | exact
  deriving DecidableEq, Repr

def BinaryFlag.text : BinaryFlag → String
  | noUnsignedWrap => "nuw"
  | noSignedWrap => "nsw"
  | exact => "exact"

/-- Comparison predicates: sixteen on floating point numbers, each ordered or unordered (true if
an operand is no number), and ten on integers. -/
inductive CompareOperator where
  | fpFalse
  | fpOrderedEqual
  | fpOrderedGreaterThan
  | fpOrderedGreaterOrEqual
  | fpOrderedLessThan
  | fpOrderedLessOrEqual
  | fpOrderedNotEqual
  | fpOrdered
  | fpUnordered
  | fpUnorderedEqual
  | fpUnorderedGreaterThan
  | fpUnorderedGreaterOrEqual
  | fpUnorderedLessThan
  | fpUnorderedLessOrEqual
  | fpUnorderedNotEqual
  | fpTrue
  | intEqual
  | intNotEqual
  | intUnsignedGreaterThan
  | intUnsignedGreaterOrEqual
  | intUnsignedLessThan
  | intUnsignedLessOrEqual
  | intSignedGreaterThan
  | intSignedGreaterOrEqual
  | intSignedLessThan
  | intSignedLessOrEqual
  deriving DecidableEq, Repr

namespace CompareOperator

def isFloatingPoint : CompareOperator → Bool
  | intEqual | intNotEqual
  | intUnsignedGreaterThan | intUnsignedGreaterOrEqual
  | intUnsignedLessThan | intUnsignedLessOrEqual
  | intSignedGreaterThan | intSignedGreaterOrEqual
  | intSignedLessThan | intSignedLessOrEqual => false
  | _ => true

/-- Predicates that hold when the operands differ. -/
def isInequality : CompareOperator → Bool
  | intNotEqual | fpOrderedNotEqual | fpUnorderedNotEqual => true
  | _ => false

def text : CompareOperator → String
  | fpFalse => "false"
  | fpOrderedEqual => "oeq"
  | fpOrderedGreaterThan => "ogt"
  | fpOrderedGreaterOrEqual => "oge"
  | fpOrderedLessThan => "olt"
  | fpOrderedLessOrEqual => "ole"
  | fpOrderedNotEqual => "one"
  | fpOrdered => "ord"
  | fpUnordered => "uno"
  | fpUnorderedEqual => "ueq"
  | fpUnorderedGreaterThan => "ugt"
  | fpUnorderedGreaterOrEqual => "uge"
  | fpUnorderedLessThan => "ult"
  | fpUnorderedLessOrEqual => "ule"
  | fpUnorderedNotEqual => "une"
  | fpTrue => "true"
  | intEqual => "eq"
  | intNotEqual => "ne"
  | intUnsignedGreaterThan => "ugt"
  | intUnsignedGreaterOrEqual => "uge"
  | intUnsignedLessThan => "ult"
  | intUnsignedLessOrEqual => "ule"
  | intSignedGreaterThan => "sgt"
  | intSignedGreaterOrEqual => "sge"
  | intSignedLessThan => "slt"
  | intSignedLessOrEqual => "sle"

/-- The instruction that carries the predicate. -/
def opcode (operator : CompareOperator) : String :=
  if operator.isFloatingPoint then "fcmp" else "icmp"

end CompareOperator

inductive CastOperator where
  | trunc
  | zext
  | sext
  | fpTrunc
  | fpExt
  | fpToUi
  | fpToSi
  | uiToFp
  | siToFp
  | ptrToInt
  | intToPtr
  | bitCast
  | addrSpaceCast
  deriving DecidableEq, Repr

def CastOperator.text : CastOperator → String
  | trunc => "trunc"
  | zext => "zext"
  | sext => "sext"
  | fpTrunc => "fptrunc"
  | fpExt => "fpext"
  | fpToUi => "fptoui"
  | fpToSi => "fptosi"
  | uiToFp => "uitofp"
  | siToFp => "sitofp"
  | ptrToInt => "ptrtoint"
  | intToPtr => "inttoptr"
  | bitCast => "bitcast"
  | addrSpaceCast => "addrspacecast"

/-- Memory ordering of loads and stores. -/
inductive AtomicOrdering where
  | notAtomic
  | unordered
  | monotonic
  | acquire
  | release
  | acquireRelease
  | sequentiallyConsistent
  deriving DecidableEq, Repr, Inhabited

namespace AtomicOrdering

def isAtomic : AtomicOrdering → Bool
  | notAtomic => false
  | _ => true

def text : AtomicOrdering → String
  | notAtomic => ""
  | unordered => "unordered"
  | monotonic => "monotonic"
  | acquire => "acquire"
  | release => "release"
  | acquireRelease => "acq_rel"
  | sequentiallyConsistent => "seq_cst"

end AtomicOrdering

/-- Which threads an atomic access synchronizes with. -/
inductive SynchronizationScope where
  | singleThread
  | crossThread
  deriving DecidableEq, Repr

end IrAssembly
