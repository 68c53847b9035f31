/-!
Conversions of doubles on their words. Sign, exponent and fraction of a double are moved to where
the other format has them; half precision has fewer digits than a double and rounds.
-/

namespace IrAssembly

/-- A word shifted down, rounded to nearest; a tie goes to the even neighbour. -/
def shiftRoundEven (value : UInt64) (shift : UInt32) : UInt64 :=
  if shift = 0 then value
  else if 64 ≤ shift then 0
  else
    let kept := value >>> shift.toUInt64
    let rest := value &&& (((1 : UInt64) <<< shift.toUInt64) - 1)
    let half : UInt64 := 1 <<< (shift - 1).toUInt64
    if half < rest ∨ (rest = half ∧ kept &&& 1 = 1) then kept + 1 else kept

/-- The number of zeros above the leading one of a word. -/
def leadingZeros (word : UInt64) : UInt32 := .ofBitVec (word.toBitVec.clz.setWidth 32)

/-- The fields of a double. -/
structure DoubleFields where
  sign : UInt64
  exponent : Int32
  fraction : UInt64
  deriving DecidableEq, Repr

namespace DoubleFields

def fractionMask : UInt64 := ((1 : UInt64) <<< 52) - 1

def exponentBias : Int32 := 1023

def ofBits (bits : UInt64) : DoubleFields where
  sign := bits >>> 63
  exponent := ((bits >>> 52) &&& 0x7ff).toUInt32.toInt32
  fraction := bits &&& fractionMask

/-- Exponent and fraction of a finite nonzero double whose leading one is moved to the place of the
hidden one: the exponent without its bias, the fraction without the leading one. -/
def normalized (fields : DoubleFields) : Int32 × UInt64 :=
  if fields.exponent ≠ 0 then (fields.exponent - exponentBias, fields.fraction)
  else
    let shift := leadingZeros fields.fraction - 11
    (1 - exponentBias - shift.toInt32, (fields.fraction <<< shift.toUInt64) &&& fractionMask)

end DoubleFields

/-- The half precision pattern of a double. A NaN keeps its sign and becomes quiet, its payload is
lost. -/
def halfOfDouble (double : UInt64) : UInt16 :=
  let fields := DoubleFields.ofBits double
  let sign := fields.sign.toUInt16 <<< 15
  if fields.exponent = 0x7ff then
    let payload : UInt16 := if fields.fraction ≠ 0 then 0x200 else 0
    sign ||| 0x7c00 ||| payload
  else if fields.exponent = 0 then
    -- doubles this small are zero in half precision
    sign
  else
    let biased := fields.exponent - DoubleFields.exponentBias + 15
    if 0x1f ≤ biased then sign ||| 0x7c00
    else if biased ≤ 0 then
      if biased < -10 then sign
      else
        let significand := fields.fraction ||| ((1 : UInt64) <<< 52)
        let shift := (42 + 1 - biased).toUInt32
        sign ||| (shiftRoundEven significand shift).toUInt16
    else
      -- a carry out of the fraction moves to the next exponent, as it should
      let combined := (biased.toInt64.toUInt64 <<< 52) ||| fields.fraction
      sign ||| (min (shiftRoundEven combined 42) 0x7c00).toUInt16

/-- The exponent bias of extended and quadruple precision. -/
def wideExponentBias : Int32 := 16383

/-- The significand of extended precision, whose leading one is written out. -/
def extendedSignificand (fraction : UInt64) : UInt64 :=
  ((1 : UInt64) <<< 63) ||| (fraction <<< 11)

/-- The extended precision pattern of a double. -/
def extendedOfDouble (double : UInt64) : BitVec 128 :=
  let fields := DoubleFields.ofBits double
  let sign := fields.sign.toBitVec.setWidth 128 <<< 79
  if fields.exponent = 0 ∧ fields.fraction = 0 then sign
  else if fields.exponent = 0x7ff then
    let significand := (extendedSignificand fields.fraction).toBitVec.setWidth 128
    sign ||| ((0x7fff : BitVec 128) <<< 64) ||| significand
  else
    let (unbiased, fraction) := fields.normalized
    let biased := (unbiased + wideExponentBias).toBitVec.signExtend 128
    let significand := (extendedSignificand fraction).toBitVec.setWidth 128
    sign ||| (biased <<< 64) ||| significand

/-- The quadruple precision pattern of a double. -/
def quadOfDouble (double : UInt64) : BitVec 128 :=
  let fields := DoubleFields.ofBits double
  let sign := fields.sign.toBitVec.setWidth 128 <<< 127
  if fields.exponent = 0 ∧ fields.fraction = 0 then sign
  else if fields.exponent = 0x7ff then
    sign ||| ((0x7fff : BitVec 128) <<< 112) ||| (fields.fraction.toBitVec.setWidth 128 <<< 60)
  else
    let (unbiased, fraction) := fields.normalized
    let biased := (unbiased + wideExponentBias).toBitVec.signExtend 128
    sign ||| (biased <<< 112) ||| (fraction.toBitVec.setWidth 128 <<< 60)

end IrAssembly
