import IrAssembly.Proofs.FloatingPoint.Rounding
import IrAssembly.Proofs.FloatingPoint.Words

/-! Doubles as extended and quadruple precision numbers. Both formats hold every double exactly,
with room for the payloads of what is no number, so different doubles remain different. -/

namespace IrAssembly

open BinaryFormat

/-- A datum is carried over into a format of longer fractions: the numbers are equal, and payloads
get zeros behind. -/
inductive FloatDatum.Widens (zeros : Nat) : FloatDatum → FloatDatum → Prop where
  | finite {negative : Bool} {significand wide : Nat} {exponent wideExponent : Int}
      (same : (wide : ℚ) * 2 ^ wideExponent = significand * 2 ^ exponent) :
      Widens zeros (.finite negative significand exponent) (.finite negative wide wideExponent)
  | infinity (negative : Bool) : Widens zeros (.infinity negative) (.infinity negative)
  | nan (negative : Bool) (payload : Nat) :
      Widens zeros (.nan negative payload) (.nan negative (payload * 2 ^ zeros))

namespace FloatDatum.Widens

variable {zeros : Nat} {datum wide : FloatDatum}

theorem negative_eq (widens : datum.Widens zeros wide) : wide.negative = datum.negative := by
  cases widens <;> rfl

theorem number?_eq (widens : datum.Widens zeros wide) : wide.number? = datum.number? := by
  cases widens with
  | finite same => rw [number?, number?, same]
  | infinity | nan => rfl

theorem payload?_eq (widens : datum.Widens zeros wide) :
    wide.payload? = datum.payload?.map (· * 2 ^ zeros) := by
  cases widens <;> rfl

end FloatDatum.Widens

/-- Patterns are told apart by what the data that they stand for become. -/
theorem eq_of_decode_widens {format : BinaryFormat} {zeros bits other : Nat} {wide : FloatDatum}
    (bounded : bits < 2 * format.signBit) (otherBounded : other < 2 * format.signBit)
    (widens : (format.decode bits).Widens zeros wide)
    (too : (format.decode other).Widens zeros wide) : bits = other := by
  have injective : Function.Injective fun payload : Nat => payload * 2 ^ zeros :=
    fun _ _ => Nat.eq_of_mul_eq_mul_right (Nat.two_pow_pos zeros)
  refine eq_of_decode bounded otherBounded ?_ ?_ ?_
  · exact widens.negative_eq.symm.trans too.negative_eq
  · exact widens.number?_eq.symm.trans too.number?_eq
  · exact Option.map_injective injective (widens.payload?_eq.symm.trans too.payload?_eq)

theorem eq_of_widens {zeros : Nat} {double other : UInt64} {wide : FloatDatum}
    (widens : (BinaryFormat.double.decode double.toNat).Widens zeros wide)
    (too : (BinaryFormat.double.decode other.toNat).Widens zeros wide) : double = other := by
  have width : 2 * BinaryFormat.double.signBit = 2 ^ 64 := by decide
  exact UInt64.toNat_inj.mp
    (eq_of_decode_widens (width ▸ double.toNat_lt) (width ▸ other.toNat_lt) widens too)

section Double

variable {double : UInt64} {significand payload : Nat} {exponent : Int} {negative : Bool}

theorem double_bounds
    (stands : BinaryFormat.double.decode double.toNat = .finite negative significand exponent) :
    significand < 2 ^ 53 ∧ -1074 ≤ exponent ∧ exponent ≤ 971 := by
  have shows := BinaryFormat.double.shows_decode double.toNat
  rw [stands] at shows
  exact shows.finite_bounds

theorem double_payload_bounds
    (stands : BinaryFormat.double.decode double.toNat = .nan negative payload) :
    0 < payload ∧ payload < 2 ^ 52 := by
  have shows := BinaryFormat.double.shows_decode double.toNat
  rw [stands] at shows
  exact shows.payload_bounds

end Double

/-! Wider formats -/

/-- A finite number is one of every format with at least its digits and its range. -/
theorem wider_nearest {format wide : BinaryFormat} {bits significand : Nat} {exponent : Int}
    {negative : Bool} (fraction : 0 < wide.fractionBits)
    (digits : 2 ^ format.fractionBits ≤ 2 ^ wide.fractionBits)
    (least : wide.leastExponent ≤ format.leastExponent)
    (greatest : format.value format.infinityBits ≤ wide.value wide.infinityBits)
    (stands : format.decode bits = .finite negative significand exponent) :
    wide.nearest significand exponent < wide.infinityBits ∧
      wide.value (wide.nearest significand exponent) = significand * 2 ^ exponent := by
  have shows := format.shows_decode bits
  rw [stands] at shows
  obtain ⟨short, lowest, -⟩ := shows.finite_bounds
  exact value_nearest fraction (short.trans_le (by omega)) (least.trans lowest)
    (shows.finite_lt.trans_le greatest)

/-- So it is carried over by rounding it there. -/
theorem round_widens {format wide : BinaryFormat} {zeros bits significand : Nat} {exponent : Int}
    {negative : Bool} (fraction : 0 < wide.fractionBits)
    (digits : 2 ^ format.fractionBits ≤ 2 ^ wide.fractionBits)
    (least : wide.leastExponent ≤ format.leastExponent)
    (greatest : format.value format.infinityBits ≤ wide.value wide.infinityBits)
    (stands : format.decode bits = .finite negative significand exponent) :
    FloatDatum.Widens zeros (.finite negative significand exponent)
      (wide.decode (wide.round negative significand exponent)) := by
  obtain ⟨below, same⟩ := wider_nearest fraction digits least greatest stands
  obtain ⟨wideSignificand, wideExponent, reads, counts⟩ :=
    (shows_round negative significand exponent).exists_finite below
  rw [reads]
  exact .finite (counts.trans same)

theorem half_infinity_le : half.value half.infinityBits ≤
    BinaryFormat.double.value BinaryFormat.double.infinityBits := by
  rw [value_infinityBits _ (by decide), value_infinityBits _ (by decide)]
  exact zpow_le_zpow_right₀ one_le_two (by decide)

theorem single_infinity_le : single.value single.infinityBits ≤
    BinaryFormat.double.value BinaryFormat.double.infinityBits := by
  rw [value_infinityBits _ (by decide), value_infinityBits _ (by decide)]
  exact zpow_le_zpow_right₀ one_le_two (by decide)

theorem double_infinity_le : BinaryFormat.double.value BinaryFormat.double.infinityBits ≤
    quad.value quad.infinityBits := by
  rw [value_infinityBits _ (by decide), value_infinityBits _ (by decide)]
  exact zpow_le_zpow_right₀ one_le_two (by decide)

/-! Quadruple precision -/

/-- Quadruple precision holds every double, payloads included. -/
def FloatDatum.quadBits : FloatDatum → Nat
  | .finite negative significand exponent => quad.round negative significand exponent
  | .infinity negative => quad.signed negative quad.infinityBits
  | .nan negative payload => quad.signed negative (quad.infinityBits + payload * 2 ^ 60)

theorem quadBits_lt {double : UInt64} :
    (BinaryFormat.double.decode double.toNat).quadBits < 2 ^ 128 := by
  cases stands : BinaryFormat.double.decode double.toNat with
  | finite negative significand exponent =>
    exact quad.signed_lt negative ((nearest_le ..).trans_lt quad.infinityBits_lt)
  | infinity negative => exact quad.signed_lt negative quad.infinityBits_lt
  | nan negative payload =>
    have short := (double_payload_bounds stands).2
    refine quad.signed_lt negative (infinityBits_add_lt ?_)
    change payload * 2 ^ 60 < 2 ^ 112
    omega

theorem quad_widens (double : UInt64) :
    (BinaryFormat.double.decode double.toNat).Widens 60
      (quad.decode (BinaryFormat.double.decode double.toNat).quadBits) := by
  cases stands : BinaryFormat.double.decode double.toNat with
  | finite negative significand exponent =>
    exact round_widens (by decide) (by decide) (by decide) double_infinity_le stands
  | infinity negative =>
    rw [FloatDatum.quadBits, decode_infinity]
    exact .infinity negative
  | nan negative payload =>
    obtain ⟨some, short⟩ := double_payload_bounds stands
    have room : payload * 2 ^ 60 < 2 ^ quad.fractionBits := by
      change payload * 2 ^ 60 < 2 ^ 112
      omega
    rw [FloatDatum.quadBits, decode_nan negative (by omega) room]
    exact .nan negative payload

/-! Extended precision -/

/-- The extended pattern of a sign, an exponent field and a 64-bit significand whose leading one
is explicit. -/
def FloatDatum.extendedPattern (negative : Bool) (exponent significand : Nat) : Nat :=
  (if negative then 2 ^ 79 else 0) + exponent * 2 ^ 64 + significand

/-- Extended precision holds every double. Its range is wide enough for subnormal doubles to be
normalized, so every nonzero number has its leading one in bit 63. -/
def FloatDatum.extendedBits : FloatDatum → Nat
  | .finite negative significand exponent =>
    if significand = 0 then extendedPattern negative 0 0
    else
      extendedPattern negative (significand.log2 + exponent + 16383).toNat
        (significand * 2 ^ (63 - significand.log2))
  | .infinity negative => extendedPattern negative 0x7fff (2 ^ 63)
  | .nan negative payload => extendedPattern negative 0x7fff (2 ^ 63 + payload * 2 ^ 11)

/-- What an extended pattern stands for. The leading one of a significand is written out; a number
may only go without it at the lowest exponent, which counts like the next one. -/
def extendedDatum? (bits : Nat) : Option FloatDatum :=
  let negative := bits / 2 ^ 79 % 2 == 1
  let exponent : Nat := bits / 2 ^ 64 % 2 ^ 15
  let significand := bits % 2 ^ 64
  if exponent = 0 then some (.finite negative significand (-16445))
  else if significand < 2 ^ 63 then none
  else if exponent < 0x7fff then some (.finite negative significand (exponent - 16446))
  else if significand = 2 ^ 63 then some (.infinity negative)
  else some (.nan negative (significand - 2 ^ 63))

section Pattern

variable {exponent significand : Nat}

theorem extendedPattern_lt (negative : Bool) (bounded : exponent < 2 ^ 15)
    (short : significand < 2 ^ 64) :
    FloatDatum.extendedPattern negative exponent significand < 2 ^ 80 := by
  unfold FloatDatum.extendedPattern
  split <;> omega

theorem extendedPattern_leading (negative : Bool) (short : significand < 2 ^ 64) :
    FloatDatum.extendedPattern negative exponent significand / 2 ^ 63 % 2 =
      significand / 2 ^ 63 := by
  unfold FloatDatum.extendedPattern
  split <;> omega

theorem extendedDatum?_pattern (negative : Bool) (bounded : exponent < 2 ^ 15)
    (short : significand < 2 ^ 64) :
    extendedDatum? (FloatDatum.extendedPattern negative exponent significand) =
      if exponent = 0 then some (.finite negative significand (-16445))
      else if significand < 2 ^ 63 then none
      else if exponent < 0x7fff then some (.finite negative significand (exponent - 16446))
      else if significand = 2 ^ 63 then some (.infinity negative)
      else some (.nan negative (significand - 2 ^ 63)) := by
  have sign : (FloatDatum.extendedPattern negative exponent significand / 2 ^ 79 % 2 == 1) =
      negative := by
    rw [Bool.eq_iff_iff, beq_iff_eq]
    unfold FloatDatum.extendedPattern
    split <;> simp_all <;> omega
  have field : FloatDatum.extendedPattern negative exponent significand / 2 ^ 64 % 2 ^ 15 =
      exponent := by
    unfold FloatDatum.extendedPattern
    split <;> omega
  have rest : FloatDatum.extendedPattern negative exponent significand % 2 ^ 64 = significand := by
    unfold FloatDatum.extendedPattern
    split <;> omega
  simp only [extendedDatum?, sign, field, rest]

end Pattern

/-- The extended pattern of a nonzero double in its parts. -/
theorem exists_extended {double : UInt64} {negative : Bool} {significand : Nat} {exponent : Int}
    (stands : BinaryFormat.double.decode double.toNat = .finite negative significand exponent)
    (nonzero : significand ≠ 0) : ∃ field moved : Nat,
      (BinaryFormat.double.decode double.toNat).extendedBits =
        FloatDatum.extendedPattern negative field moved ∧
      0 < field ∧ field < 0x7fff ∧ 2 ^ 63 ≤ moved ∧ moved < 2 ^ 64 ∧
      (moved : ℚ) * 2 ^ (field - 16446 : Int) = significand * 2 ^ exponent := by
  obtain ⟨digits, least, greatest⟩ := double_bounds stands
  have short : significand.log2 < 53 := (Nat.log2_lt nonzero).mpr digits
  obtain ⟨lower, upper⟩ := leading_bounds nonzero (show significand.log2 ≤ 63 by omega)
  refine ⟨_, _, by rw [stands, FloatDatum.extendedBits, if_neg nonzero], by omega, by omega, lower,
    upper, ?_⟩
  push_cast
  rw [mul_assoc, ← zpow_natCast, ← zpow_add₀ two_ne_zero]
  congr 2
  omega

theorem extended_widens (double : UInt64) :
    (BinaryFormat.double.decode double.toNat).extendedBits < 2 ^ 80 ∧
      ∃ wide, extendedDatum? (BinaryFormat.double.decode double.toNat).extendedBits = some wide ∧
        (BinaryFormat.double.decode double.toNat).Widens 11 wide := by
  cases stands : BinaryFormat.double.decode double.toNat with
  | finite negative significand exponent =>
    by_cases zero : significand = 0
    · rw [FloatDatum.extendedBits, if_pos zero]
      refine ⟨extendedPattern_lt _ (by decide) (by decide), _,
        extendedDatum?_pattern _ (by decide) (by decide), .finite ?_⟩
      rw [zero, Nat.cast_zero, zero_mul, zero_mul]
    · obtain ⟨field, moved, parts, normal, bounded, lower, upper, same⟩ :=
        exists_extended stands zero
      rw [← stands, parts, stands]
      refine ⟨extendedPattern_lt _ (by omega) upper, _, ?_, .finite same⟩
      rw [extendedDatum?_pattern _ (by omega) upper, if_neg normal.ne', if_neg lower.not_gt,
        if_pos bounded]
  | infinity negative =>
    exact ⟨extendedPattern_lt _ (by decide) (by decide), _,
      extendedDatum?_pattern _ (by decide) (by decide), .infinity negative⟩
  | nan negative payload =>
    obtain ⟨some, short⟩ := double_payload_bounds stands
    refine ⟨extendedPattern_lt _ (by decide) (by omega), _, ?_, .nan negative payload⟩
    rw [FloatDatum.extendedBits, extendedDatum?_pattern _ (by decide) (by omega),
      if_neg (by decide), if_neg (by omega), if_neg (by decide), if_neg (by omega),
      Nat.add_sub_cancel_left]

theorem extended_leading {double : UInt64} {number : ℚ}
    (stands : (BinaryFormat.double.decode double.toNat).number? = some number)
    (nonzero : number ≠ 0) :
    (BinaryFormat.double.decode double.toNat).extendedBits / 2 ^ 63 % 2 = 1 := by
  cases datum : BinaryFormat.double.decode double.toNat with
  | finite negative significand exponent =>
    rw [datum] at stands
    have positive : significand ≠ 0 := by
      rintro rfl
      apply nonzero
      rw [← Option.some.inj stands, Nat.cast_zero, zero_mul, mul_zero]
    obtain ⟨field, moved, parts, -, -, lower, upper, -⟩ := exists_extended datum positive
    rw [← datum, parts, extendedPattern_leading negative upper]
    omega
  | infinity | nan =>
    rw [datum] at stands
    cases stands

/-! The words of a double -/

/-- A sign, an exponent field and the digits below them put side by side. -/
theorem toNat_sideBySide {sign : UInt64} {negative : Bool} {field low : BitVec 128} {place : Nat}
    (stands : sign.toNat = negative.toNat) (room : place ≤ 112) (bounded : field.toNat < 2 ^ 15)
    (short : low.toNat < 2 ^ place) :
    ((sign.toBitVec.setWidth 128 <<< (place + 15)) ||| (field <<< place) ||| low).toNat =
      negative.toNat * 2 ^ (place + 15) + (field.toNat * 2 ^ place + low.toNat) := by
  have size : 2 ^ (place + 15) = 2 ^ 15 * 2 ^ place := by rw [Nat.add_comm, Nat.pow_add]
  have whole : 2 ^ place ≤ 2 ^ 112 := Nat.pow_le_pow_right (by decide) room
  have within : field.toNat * 2 ^ place + low.toNat < 2 ^ (place + 15) := by
    have : (field.toNat + 1) * 2 ^ place ≤ 2 ^ 15 * 2 ^ place := Nat.mul_le_mul_right _ bounded
    rw [Nat.succ_mul] at this
    omega
  have middle : (field <<< place).toNat = field.toNat * 2 ^ place := by
    rw [BitVec.toNat_shiftLeft, Nat.shiftLeft_eq]
    exact Nat.mod_eq_of_lt (by omega)
  have high : (sign.toBitVec.setWidth 128 <<< (place + 15)).toNat =
      negative.toNat * 2 ^ (place + 15) := by
    have same : (sign.toBitVec.setWidth 128).toNat = negative.toNat :=
      (BitVec.toNat_setWidth_of_le (by decide)).trans stands
    rw [BitVec.toNat_shiftLeft, Nat.shiftLeft_eq, same]
    have : negative.toNat * 2 ^ (place + 15) ≤ 1 * 2 ^ (place + 15) :=
      Nat.mul_le_mul_right _ (Bool.toNat_le negative)
    exact Nat.mod_eq_of_lt (by omega)
  rw [BitVec.toNat_or, BitVec.toNat_or, Nat.or_assoc, high, middle, shifted_or _ short,
    shifted_or _ within]

namespace DoubleFields.Normal

variable {fields : DoubleFields} {significand : Nat} {place : Int}
  (normal : fields.Normal significand place)
include normal

theorem lead_bounds : -1074 ≤ significand.log2 + place ∧ significand.log2 + place ≤ 1023 := by
  obtain ⟨-, short, least, greatest, -, -⟩ := normal
  omega

/-- The exponent field of a normalized double in the wider formats. -/
theorem toNat_field : ((fields.normalized.1 + wideExponentBias).toBitVec.signExtend 128).toNat =
    (significand.log2 + place + 16383).toNat := by
  have bounds := normal.lead_bounds
  refine toNat_signExtend ?_ 128 (by omega)
  rw [Int32.toInt_add, normal.exponent_eq]
  change ((significand.log2 : Int) + place + 16383).bmod (2 ^ 32) = _
  rw [bmod_small (by omega) (by omega)]
  omega

end DoubleFields.Normal

theorem toNat_extendedSignificand {fraction : UInt64} (short : fraction.toNat < 2 ^ 52) :
    ((extendedSignificand fraction).toBitVec.setWidth 128).toNat =
      2 ^ 63 + fraction.toNat * 2 ^ 11 := by
  have moved : (fraction <<< 11).toNat = fraction.toNat * 2 ^ 11 := by
    rw [UInt64.toNat_shiftLeft, Nat.shiftLeft_eq]
    change fraction.toNat * 2 ^ 11 % 2 ^ 64 = _
    omega
  rw [BitVec.toNat_setWidth_of_le (by decide)]
  change (((1 : UInt64) <<< 63) ||| (fraction <<< 11)).toNat = _
  rw [UInt64.toNat_or, moved]
  have joined : 1 * 2 ^ 63 ||| fraction.toNat * 2 ^ 11 = 1 * 2 ^ 63 + fraction.toNat * 2 ^ 11 :=
    shifted_or 1 (by omega)
  exact joined

theorem toNat_quadFraction {fraction : UInt64} (short : fraction.toNat < 2 ^ 52) :
    (fraction.toBitVec.setWidth 128 <<< 60).toNat = fraction.toNat * 2 ^ 60 := by
  rw [BitVec.toNat_shiftLeft, BitVec.toNat_setWidth_of_le (by decide), Nat.shiftLeft_eq]
  exact Nat.mod_eq_of_lt (by change fraction.toNat * 2 ^ 60 < 2 ^ 128; omega)

section Sign

variable {sign : UInt64} {negative : Bool} (stands : sign.toNat = negative.toNat)
include stands

theorem toNat_extendedPattern {field low : BitVec 128} (bounded : field.toNat < 2 ^ 15)
    (short : low.toNat < 2 ^ 64) :
    ((sign.toBitVec.setWidth 128 <<< 79) ||| (field <<< 64) ||| low).toNat =
      FloatDatum.extendedPattern negative field.toNat low.toNat := by
  have parts := toNat_sideBySide stands (show 64 ≤ 112 by decide) bounded short
  rw [FloatDatum.extendedPattern, parts]
  cases negative <;> simp [Nat.add_assoc]

theorem toNat_quadPattern {field low : BitVec 128} (bounded : field.toNat < 2 ^ 15)
    (short : low.toNat < 2 ^ 112) :
    ((sign.toBitVec.setWidth 128 <<< 127) ||| (field <<< 112) ||| low).toNat =
      quad.signed negative (field.toNat * 2 ^ 112 + low.toNat) := by
  have parts := toNat_sideBySide stands (show 112 ≤ 112 by decide) bounded short
  rw [signed, parts]
  cases negative <;> simp [signBit, quad]

theorem toNat_signExtended :
    (sign.toBitVec.setWidth 128 <<< 79).toNat = FloatDatum.extendedPattern negative 0 0 := by
  have alone := toNat_extendedPattern stands (show (0#128).toNat < 2 ^ 15 by decide)
    (show (0#128).toNat < 2 ^ 64 by decide)
  rwa [BitVec.or_zero, BitVec.zero_shiftLeft, BitVec.or_zero] at alone

theorem toNat_signQuad :
    (sign.toBitVec.setWidth 128 <<< 127).toNat = quad.signed negative 0 := by
  have alone := toNat_quadPattern stands (show (0#128).toNat < 2 ^ 15 by decide)
    (show (0#128).toNat < 2 ^ 112 by decide)
  rwa [BitVec.or_zero, BitVec.zero_shiftLeft, BitVec.or_zero] at alone

end Sign

/-- At the top exponent an infinity is a payload of zero. -/
theorem extendedBits_top (negative : Bool) (fraction : Nat) :
    (fieldsDatum negative 0x7ff fraction).extendedBits =
      FloatDatum.extendedPattern negative 0x7fff (2 ^ 63 + fraction * 2 ^ 11) := by
  rw [fieldsDatum, if_pos rfl]
  by_cases none : fraction = 0
  · rw [if_pos none, none]
    rfl
  · rw [if_neg none]
    rfl

theorem quadBits_top (negative : Bool) (fraction : Nat) :
    (fieldsDatum negative 0x7ff fraction).quadBits =
      quad.signed negative (0x7fff * 2 ^ 112 + fraction * 2 ^ 60) := by
  rw [fieldsDatum, if_pos rfl]
  by_cases none : fraction = 0
  · rw [if_pos none, none]
    rfl
  · rw [if_neg none]
    rfl

/-- The word of an extended number has the leading one of the double in its top place. -/
theorem toNat_extendedOfDouble (double : UInt64) : (extendedOfDouble double).toNat =
    (BinaryFormat.double.decode double.toNat).extendedBits := by
  obtain ⟨negative, exponent, fraction, holds, reads⟩ := exists_holds double
  rw [reads, extendedOfDouble]
  dsimp only
  generalize DoubleFields.ofBits double = fields at *
  simp only [holds.least_iff, holds.fraction_iff, holds.top_iff]
  by_cases zero : exponent = 0 ∧ fraction = 0
  · rw [if_pos zero, zero.1, zero.2]
    exact toNat_signExtended holds.sign_eq
  rw [if_neg zero]
  by_cases infinite : exponent = 0x7ff
  · have short := holds.fraction_lt
    have low := toNat_extendedSignificand (holds.fraction_eq ▸ short)
    rw [holds.fraction_eq] at low
    rw [if_pos infinite, toNat_extendedPattern holds.sign_eq (by decide) (by omega), low,
      infinite, extendedBits_top]
    rfl
  obtain ⟨significand, place, finite, normal⟩ := holds.exists_normal infinite zero
  have field := normal.toNat_field
  have low := toNat_extendedSignificand normal.fraction_lt
  have digits := normal.digits_eq 11
  have short := normal.fraction_lt
  have bounds := normal.lead_bounds
  have joined : 2 ^ 63 + fields.normalized.2.toNat * 2 ^ 11 =
      (2 ^ 52 + fields.normalized.2.toNat) * 2 ^ 11 := by ring
  rw [if_neg infinite, toNat_extendedPattern holds.sign_eq (by omega) (by omega), field, low,
    joined, digits, finite, FloatDatum.extendedBits, if_neg normal.nonzero]

/-- A normalized double has its digits in front of the fraction field, and zeros behind. -/
theorem DoubleFields.Normal.quad_nearest {fields : DoubleFields} {significand : Nat} {place : Int}
    (normal : fields.Normal significand place) : quad.nearest significand place =
      (significand.log2 + place + 16383).toNat * 2 ^ 112 + fields.normalized.2.toNat * 2 ^ 60 := by
  have short := normal.short
  have bounds := normal.lead_bounds
  have fraction := normal.fraction_lt
  have digits := normal.digits_eq 60
  have least : quad.leastExponent = -16494 := by decide
  have unit : max (-16494 : Int) (significand.log2 + place - (112 : Nat)) =
      significand.log2 + place - 112 := by omega
  have moved : (place - (significand.log2 + place - 112)).toNat = 52 + 60 - significand.log2 := by
    omega
  rw [nearest, if_neg normal.nonzero, least, show quad.fractionBits = 112 from rfl]
  dsimp only
  rw [unit, countUnits, if_pos (by omega), moved, ← digits]
  change min (0x7fff * 2 ^ 112) _ = _
  omega

/-- The word of a quadruple number is the number that a double is rounded to. -/
theorem toNat_quadOfDouble (double : UInt64) : (quadOfDouble double).toNat =
    (BinaryFormat.double.decode double.toNat).quadBits := by
  obtain ⟨negative, exponent, fraction, holds, reads⟩ := exists_holds double
  rw [reads, quadOfDouble]
  dsimp only
  generalize DoubleFields.ofBits double = fields at *
  simp only [holds.least_iff, holds.fraction_iff, holds.top_iff]
  by_cases zero : exponent = 0 ∧ fraction = 0
  · rw [if_pos zero, zero.1, zero.2]
    exact toNat_signQuad holds.sign_eq
  rw [if_neg zero]
  by_cases infinite : exponent = 0x7ff
  · have short := holds.fraction_lt
    have low := toNat_quadFraction (holds.fraction_eq ▸ short)
    rw [holds.fraction_eq] at low
    rw [if_pos infinite, toNat_quadPattern holds.sign_eq (by decide) (by omega), low, infinite,
      quadBits_top]
    rfl
  obtain ⟨significand, place, finite, normal⟩ := holds.exists_normal infinite zero
  have field := normal.toNat_field
  have low := toNat_quadFraction normal.fraction_lt
  have short := normal.fraction_lt
  have bounds := normal.lead_bounds
  rw [if_neg infinite, toNat_quadPattern holds.sign_eq (by omega) (by omega), field, low, finite,
    FloatDatum.quadBits, BinaryFormat.round, normal.quad_nearest]

theorem toNat_bits_x87 (double : UInt64) :
    (FloatConstant.ofDouble .x87 double).bits.toNat =
      (BinaryFormat.double.decode double.toNat).extendedBits :=
  toNat_extendedOfDouble double

theorem toNat_bits_quad (double : UInt64) :
    (FloatConstant.ofDouble .quad double).bits.toNat =
      (BinaryFormat.double.decode double.toNat).quadBits :=
  toNat_quadOfDouble double

/-- In extended and in quadruple precision a double remains the number that it is, also where it is
subnormal, and keeps its sign; infinity remains infinity and no number remains no number. In
extended precision the leading one of a number is written out. Different doubles become different
patterns. -/
theorem wide_exact (double : UInt64) :
    let datum := BinaryFormat.double.decode double.toNat
    let extended := (FloatConstant.ofDouble .x87 double).bits
    let quadruple := (FloatConstant.ofDouble .quad double).bits
    (extended.toNat < 2 ^ 80 ∧
      (∃ wide, extendedDatum? extended.toNat = some wide ∧ datum.Widens 11 wide) ∧
      ∀ number, datum.number? = some number → number ≠ 0 → extended.toNat / 2 ^ 63 % 2 = 1) ∧
    (quadruple.toNat < 2 ^ 128 ∧ datum.Widens 60 (quad.decode quadruple.toNat)) ∧
    ∀ other, other ≠ double → (FloatConstant.ofDouble .x87 other).bits ≠ extended ∧
      (FloatConstant.ofDouble .quad other).bits ≠ quadruple := by
  intro datum extended quadruple
  have extendedBits : extended.toNat = datum.extendedBits := toNat_bits_x87 double
  have quadrupleBits : quadruple.toNat = datum.quadBits := toNat_bits_quad double
  refine ⟨?_, ?_, fun other differs => ⟨fun same => ?_, fun same => ?_⟩⟩
  · rw [extendedBits]
    obtain ⟨bounded, widens⟩ := extended_widens double
    exact ⟨bounded, widens, fun number => extended_leading⟩
  · rw [quadrupleBits]
    exact ⟨quadBits_lt, quad_widens double⟩
  · obtain ⟨-, wide, reads, widens⟩ := extended_widens double
    obtain ⟨-, too, readsToo, widensToo⟩ := extended_widens other
    have bits := congrArg BitVec.toNat same
    rw [toNat_bits_x87, extendedBits] at bits
    rw [bits, reads] at readsToo
    obtain rfl := Option.some.inj readsToo
    exact differs (eq_of_widens widensToo widens)
  · have bits := congrArg BitVec.toNat same
    rw [toNat_bits_quad, quadrupleBits] at bits
    have widens := quad_widens other
    rw [bits] at widens
    exact differs (eq_of_widens widens (quad_widens double))

-- The least double, which is subnormal, becomes normal in both formats.
example : (FloatConstant.ofDouble .x87 1).bits = 0x3bcd8000000000000000 ∧
    (FloatConstant.ofDouble .quad 1).bits = 0x3bcd0000000000000000000000000000 := by decide

end IrAssembly
