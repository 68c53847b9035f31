/-!
Binary floating point formats: the number a bit pattern stands for, and the pattern nearest to a
given number. All arithmetic is exact, on natural numbers and integers.
-/

namespace IrAssembly

-- A power of natural numbers is the core one, also where the monoid power of Mathlib is in scope.
attribute [instance (2000), default_instance (20000)] instPowNat

/-- What a bit pattern stands for: a signed multiple of a power of two, an infinity, or no number
at all, in which case the fraction field is kept as a payload. -/
inductive FloatDatum where
  | finite (negative : Bool) (significand : Nat) (exponent : Int)
  | infinity (negative : Bool)
  | nan (negative : Bool) (payload : Nat)
  deriving DecidableEq, Repr

/-- The nearest integer to `value / 2 ^ shift`; a tie goes to the even neighbour. -/
def roundHalfEven (value shift : Nat) : Nat :=
  let kept := value / 2 ^ shift
  let rest := value % 2 ^ shift
  if 2 ^ shift < 2 * rest ∨ (2 * rest = 2 ^ shift ∧ kept % 2 = 1) then kept + 1 else kept

/-- The number `significand * 2 ^ exponent` counted in units of `2 ^ unit`, rounded to the nearest
count with ties to even. -/
def countUnits (significand : Nat) (exponent unit : Int) : Nat :=
  if unit ≤ exponent then significand * 2 ^ (exponent - unit).toNat
  else roundHalfEven significand (unit - exponent).toNat

/-- A format with a sign bit, a biased exponent field and a fraction field below a hidden
leading one. -/
structure BinaryFormat where
  exponentBits : Nat
  fractionBits : Nat
  deriving DecidableEq, Repr

namespace BinaryFormat

def half : BinaryFormat := ⟨5, 10⟩
def single : BinaryFormat := ⟨8, 23⟩
def double : BinaryFormat := ⟨11, 52⟩
def quad : BinaryFormat := ⟨15, 112⟩

def bias (format : BinaryFormat) : Nat := 2 ^ (format.exponentBits - 1) - 1

/-- The exponent field of infinities and of patterns that are no number. -/
def topExponent (format : BinaryFormat) : Nat := 2 ^ format.exponentBits - 1

/-- The exponent of the last place of a subnormal number, the finest step of the format. -/
def leastExponent (format : BinaryFormat) : Int := 1 - format.bias - format.fractionBits

/-- The pattern of negative zero. -/
def signBit (format : BinaryFormat) : Nat := 2 ^ (format.exponentBits + format.fractionBits)

/-- The pattern of positive infinity. -/
def infinityBits (format : BinaryFormat) : Nat := format.topExponent * 2 ^ format.fractionBits

/-- Put a sign on the pattern of a magnitude. -/
def signed (format : BinaryFormat) (negative : Bool) (magnitude : Nat) : Nat :=
  (if negative then format.signBit else 0) + magnitude

/-- The datum a pattern stands for; bits above the format's width are ignored. -/
def decode (format : BinaryFormat) (bits : Nat) : FloatDatum :=
  let negative := bits / format.signBit % 2 == 1
  let exponent := bits / 2 ^ format.fractionBits % 2 ^ format.exponentBits
  let fraction := bits % 2 ^ format.fractionBits
  if exponent = format.topExponent then
    if fraction = 0 then .infinity negative else .nan negative fraction
  else if exponent = 0 then .finite negative fraction format.leastExponent
  else .finite negative (2 ^ format.fractionBits + fraction) (format.leastExponent + (exponent - 1))

/-- The magnitude pattern nearest to `significand * 2 ^ exponent`, ties to even. The count of
last places and the exponent field are added up, so a carry out of the fraction moves to the next
exponent by itself, and anything past the largest finite number becomes infinity. -/
def nearest (format : BinaryFormat) (significand : Nat) (exponent : Int) : Nat :=
  if significand = 0 then 0
  else
    let unit := max format.leastExponent (significand.log2 + exponent - format.fractionBits)
    let steps := (unit - format.leastExponent).toNat
    min format.infinityBits
      (steps * 2 ^ format.fractionBits + countUnits significand exponent unit)

/-- The signed pattern nearest to a finite number. -/
def round (format : BinaryFormat) (negative : Bool) (significand : Nat) (exponent : Int) : Nat :=
  format.signed negative (format.nearest significand exponent)

end BinaryFormat

end IrAssembly
