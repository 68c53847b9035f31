import IrAssembly.FloatingPoint.Format

/-!
Decimal text of a double: the fewest digits that read back as the same double, the nearest such
number if there are several.
-/

namespace IrAssembly

/-- The positive decimal number `digits * 10 ^ exponent`. -/
structure Decimal where
  digits : Nat
  exponent : Int
  deriving DecidableEq, Repr

/-- The reals that round to one positive double, in quarters of its last place: from
`value - below` to `value + 2` units of `2 ^ unit`, ends included iff `closed`. -/
structure RoundingInterval where
  value : Nat
  below : Nat
  unit : Int
  closed : Bool
  deriving DecidableEq, Repr

namespace RoundingInterval

/-- The neighbour below a power of two is only half as far away, unless the exponent is already
the least one. -/
def ofDouble (significand : Nat) (exponent : Int) : RoundingInterval where
  value := 4 * significand
  below :=
    if significand = 2 ^ 52 ∧ BinaryFormat.double.leastExponent < exponent then 1 else 2
  unit := exponent - 2
  closed := significand % 2 == 0

/-- `coefficient * 10 ^ grid` multiplied by a factor that makes it a whole number. -/
def gridPoint (interval : RoundingInterval) (grid : Int) (coefficient : Nat) : Nat :=
  coefficient * 10 ^ grid.toNat * 2 ^ (-interval.unit).toNat

/-- `units * 2 ^ unit` multiplied by the same factor as a grid point. -/
def scaled (interval : RoundingInterval) (grid : Int) (units : Nat) : Nat :=
  units * 2 ^ interval.unit.toNat * 10 ^ (-grid).toNat

def contains (interval : RoundingInterval) (grid : Int) (coefficient : Nat) : Bool :=
  let point := interval.gridPoint grid coefficient
  let low := interval.scaled grid (interval.value - interval.below)
  let high := interval.scaled grid (interval.value + 2)
  if interval.closed then low ≤ point && point ≤ high else low < point && point < high

/-- The point of the grid `10 ^ grid` in the interval that is nearest to the value, if there is
one; of two equally near points the upper. -/
def nearestOn (interval : RoundingInterval) (grid : Int) : Option Decimal :=
  let value := interval.scaled grid interval.value
  let lower := value / interval.gridPoint grid 1
  let nearer :=
    if value - interval.gridPoint grid lower < interval.gridPoint grid (lower + 1) - value
    then lower else lower + 1
  let farther := if nearer = lower then lower + 1 else lower
  if interval.contains grid nearer && nearer != 0 then some ⟨nearer, grid⟩
  else if interval.contains grid farther && farther != 0 then some ⟨farther, grid⟩
  else none

/-- The first point found from the coarsest grid a double can need to the finest. -/
def shortest (interval : RoundingInterval) : Decimal :=
  let onGrid (step : Nat) := interval.nearestOn (309 - (step : Int))
  ((List.range 634).findSome? onGrid).getD ⟨0, 0⟩

end RoundingInterval

namespace Decimal

def zeros (count : Nat) : String := String.ofList (List.replicate count '0')

/-- The exponent of the leading digit. -/
def leadingExponent (decimal : Decimal) : Int :=
  decimal.exponent + (toString decimal.digits).length - 1

/-- One digit, then a point and the remaining digits if there are any, then the exponent. -/
def scientific (decimal : Decimal) : String :=
  let digits := (toString decimal.digits).toList
  let fraction := digits.drop 1
  String.ofList (digits.take 1) ++ (if fraction.isEmpty then "" else "." ++ String.ofList fraction)
    ++ "e" ++ toString decimal.leadingExponent

/-- All digits around the point, at least one on each side. -/
def positional (decimal : Decimal) : String :=
  let digits := (toString decimal.digits).toList
  let whole := decimal.leadingExponent + 1
  if 0 ≤ decimal.exponent then
    String.ofList digits ++ zeros decimal.exponent.toNat ++ ".0"
  else if 0 < whole then
    String.ofList (digits.take whole.toNat) ++ "." ++ String.ofList (digits.drop whole.toNat)
  else "0." ++ zeros (-whole).toNat ++ String.ofList digits

/-- Numbers from `10 ^ -4` up to `10 ^ 16` are written with all their digits. -/
def text (decimal : Decimal) : String :=
  if -4 ≤ decimal.leadingExponent && decimal.leadingExponent < 16 then decimal.positional
  else decimal.scientific

end Decimal

/-- The shortest decimal text of a double that reads back as the same double. -/
def doubleText (double : UInt64) : String :=
  let sign (negative : Bool) := if negative then "-" else ""
  match BinaryFormat.double.decode double.toNat with
  | .nan _ _ => "NaN"
  | .infinity negative => sign negative ++ "inf"
  | .finite negative significand exponent =>
    sign negative ++
      if significand = 0 then "0.0"
      else (RoundingInterval.ofDouble significand exponent).shortest.text

end IrAssembly
