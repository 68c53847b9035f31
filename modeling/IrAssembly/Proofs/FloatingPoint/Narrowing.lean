import IrAssembly.Proofs.FloatingPoint.Rounding
import IrAssembly.Proofs.FloatingPoint.Words

/-! Doubles as half precision numbers. A double is rounded to the nearest number of half precision
or, from the middle between the greatest one and the next power of two on, to infinity. -/

namespace IrAssembly

open BinaryFormat

/-- Half precision keeps the sign of a NaN and replaces its payload by the quiet bit alone. -/
def FloatDatum.halfBits : FloatDatum → Nat
  | .finite negative significand exponent => half.round negative significand exponent
  | .infinity negative => half.signed negative half.infinityBits
  | .nan negative _ => half.signed negative (half.infinityBits + 2 ^ 9)

/-- Half precision ends in the middle between `65504` and `65536`. -/
theorem half_nearest_lt_iff (significand : Nat) (exponent : Int) :
    half.nearest significand exponent < half.infinityBits ↔
      (significand * 2 ^ exponent : ℚ) < 65520 := by
  obtain ⟨place, rounds, chosen⟩ :=
    exists_rounds_nearest (show 0 < half.fractionBits by decide) significand exponent
  have greatest : half.steps 31743 = 2047 * 2 ^ 29 := by decide
  have beyond : half.steps 31744 = 2 ^ 40 := by decide
  have least : half.leastExponent = -24 := by decide
  have middle : half.value 31743 + half.value (31743 + 1) = 2 * 65520 := by
    rw [value, value, greatest, beyond, least]
    norm_num
  have reaches := rounds.lt_iff half.strictMono_value (show 31743 % 2 = 1 by decide)
  have within : min 31744 place < 31744 ↔ ¬ 31743 < place := by omega
  rw [chosen, show half.infinityBits = 31744 from rfl, within, reaches, middle, not_le]
  constructor <;> intro <;> linarith

theorem halfBits_lt (datum : FloatDatum) : datum.halfBits < 2 ^ 16 := by
  cases datum with
  | finite negative significand exponent =>
    exact half.signed_lt negative ((nearest_le ..).trans_lt half.infinityBits_lt)
  | infinity negative => exact half.signed_lt negative half.infinityBits_lt
  | nan negative => exact half.signed_lt negative (infinityBits_add_lt (by decide))

/-! The words of a double -/

/-- The last place that a number is rounded to is no lower than that of the least half. -/
theorem half_nearest_eq {significand : Nat} {exponent unit : Int} (nonzero : significand ≠ 0)
    (chosen : max (-24 : Int) (significand.log2 + exponent - (10 : Nat)) = unit)
    (coarse : exponent < unit) : half.nearest significand exponent = min 0x7c00
      ((unit - -24).toNat * 2 ^ 10 + roundHalfEven significand (unit - exponent).toNat) := by
  have least : half.leastExponent = -24 := by decide
  rw [nearest, if_neg nonzero, least, show half.fractionBits = 10 from rfl]
  dsimp only
  rw [chosen, countUnits, if_neg (Int.not_le.mpr coarse)]
  rfl

theorem half_nearest_zero {fraction : Nat} (short : fraction < 2 ^ 52) :
    half.nearest fraction (-1074) = 0 := by
  by_cases zero : fraction = 0
  · rw [nearest, if_pos zero]
  · have lead : fraction.log2 < 52 := (Nat.log2_lt zero).mpr short
    have places : 2 ^ 53 ≤ 2 ^ ((-24 : Int) - -1074).toNat :=
      Nat.pow_le_pow_right (by decide) (by decide)
    rw [half_nearest_eq zero (show _ = -24 by omega) (by decide),
      roundHalfEven_eq_zero (by omega)]
    rfl

section Ranges

variable {exponent fraction : Nat} (short : fraction < 2 ^ 52)
include short

/-- Below the least normal half the last place stays where it is. -/
theorem half_nearest_small (small : exponent ≤ 1008) :
    half.nearest (2 ^ 52 + fraction) (exponent - 1075) =
      roundHalfEven (2 ^ 52 + fraction) (1051 - exponent) := by
  have lead := log2_hidden short
  have shift : (-24 - ((exponent : Int) - 1075)).toNat = 1051 - exponent := by omega
  have bounded : roundHalfEven (2 ^ 52 + fraction) (1051 - exponent) ≤ 2 ^ 10 := by
    have : 2 ^ 43 ≤ 2 ^ (1051 - exponent) := Nat.pow_le_pow_right (by decide) (by omega)
    exact roundHalfEven_le (by omega)
  rw [half_nearest_eq (by omega) (show _ = -24 by omega) (by omega), shift]
  change min 0x7c00 (0 * 2 ^ 10 + _) = _
  omega

/-- From there on it moves up with the exponent. -/
theorem half_nearest_normal (normal : 1009 ≤ exponent) :
    half.nearest (2 ^ 52 + fraction) (exponent - 1075) = min 0x7c00
      ((exponent - 1009) * 2 ^ 10 + roundHalfEven (2 ^ 52 + fraction) 42) := by
  have lead := log2_hidden short
  have shift : ((exponent : Int) - 1033 - (exponent - 1075)).toNat = 42 := by omega
  have steps : ((exponent : Int) - 1033 - -24).toNat = exponent - 1009 := by omega
  rw [half_nearest_eq (by omega) (show _ = (exponent : Int) - 1033 by omega) (by omega), shift,
    steps]

theorem half_nearest_overflow (large : 1039 ≤ exponent) :
    half.nearest (2 ^ 52 + fraction) (exponent - 1075) = 0x7c00 := by
  have hidden : 2 ^ 10 ≤ roundHalfEven (2 ^ 52 + fraction) 42 := le_roundHalfEven (by omega)
  rw [half_nearest_normal short (by omega)]
  omega

theorem half_nearest_underflow (tiny : exponent < 998) :
    half.nearest (2 ^ 52 + fraction) (exponent - 1075) = 0 := by
  have : 2 ^ 54 ≤ 2 ^ (1051 - exponent) := Nat.pow_le_pow_right (by decide) (by omega)
  rw [half_nearest_small short (by omega), roundHalfEven_eq_zero (by omega)]

/-- The exponent field above the fraction is rounded with it: its steps are whole. -/
theorem half_nearest_combined (normal : 1009 ≤ exponent) :
    half.nearest (2 ^ 52 + fraction) (exponent - 1075) =
      min 0x7c00 (roundHalfEven ((exponent - 1008) * 2 ^ 52 + fraction) 42) := by
  have combined : (exponent - 1008) * 2 ^ 52 + fraction =
      2 * ((exponent - 1009) * 2 ^ 9) * 2 ^ 42 + (2 ^ 52 + fraction) := by omega
  have steps : (exponent - 1009) * 2 ^ 10 = 2 * ((exponent - 1009) * 2 ^ 9) := by ring
  rw [half_nearest_normal short normal, combined, roundHalfEven_add, steps]

end Ranges

/-- A sign above a magnitude. -/
theorem toNat_signedHalf {sign : UInt64} {word : UInt16} {negative : Bool}
    (stands : sign.toNat = negative.toNat) (short : word.toNat < half.signBit) :
    ((sign.toUInt16 <<< 15) ||| word).toNat = half.signed negative word.toNat := by
  have placed : (sign.toUInt16 <<< 15).toNat = negative.toNat * 2 ^ 15 := by
    rw [UInt16.toNat_shiftLeft, UInt64.toNat_toUInt16, stands, Nat.shiftLeft_eq]
    cases negative <;> rfl
  rw [UInt16.toNat_or, placed, shifted_or _ (show word.toNat < 2 ^ 15 from short)]
  cases negative <;> simp [signed, signBit, half]

theorem toNat_signHalf {sign : UInt64} {negative : Bool} (stands : sign.toNat = negative.toNat) :
    (sign.toUInt16 <<< 15).toNat = half.signed negative 0 := by
  have alone : ((sign.toUInt16 <<< 15) ||| 0).toNat = half.signed negative 0 :=
    toNat_signedHalf stands (by decide)
  rwa [UInt16.or_zero] at alone

/-- The exponent field of a half that has the exponent of a double. -/
theorem toInt_biasedHalf {exponent : Int32} {field : Nat} (stands : exponent.toInt = field)
    (bounded : field < 2 ^ 11) :
    (exponent - DoubleFields.exponentBias + 15).toInt = field - 1008 := by
  have unbiased : (exponent - DoubleFields.exponentBias).toInt = field - 1023 := by
    rw [Int32.toInt_sub, stands]
    change ((field : Int) - 1023).bmod (2 ^ 32) = _
    exact bmod_small (by omega) (by omega)
  rw [Int32.toInt_add, unbiased]
  change ((field : Int) - 1023 + 15).bmod (2 ^ 32) = _
  rw [bmod_small (by omega) (by omega)]
  omega

/-- Where the exponent field of a double leaves the ranges of half precision. -/
theorem biasedHalf_ranges {biased : Int32} {exponent : Nat}
    (stands : biased.toInt = exponent - 1008) :
    (0x1f ≤ biased ↔ 1039 ≤ exponent) ∧ (biased ≤ 0 ↔ exponent ≤ 1008) ∧
      (biased < -10 ↔ exponent < 998) := by
  simp only [Int32.le_iff_toInt_le, Int32.lt_iff_toInt_lt, stands]
  refine ⟨?_, ?_, ?_⟩
  · change 31 ≤ _ ↔ _
    omega
  · change _ ≤ 0 ↔ _
    omega
  · change _ < -10 ↔ _
    omega

section Words

variable {fraction : UInt64} (short : fraction.toNat < 2 ^ 52)
include short

theorem toNat_hidden : (fraction ||| ((1 : UInt64) <<< 52)).toNat = 2 ^ 52 + fraction.toNat := by
  rw [UInt64.toNat_or, Nat.or_comm]
  change 1 * 2 ^ 52 ||| fraction.toNat = _
  rw [shifted_or 1 short, Nat.one_mul]

/-- The last place of a subnormal half. -/
theorem toNat_subnormalHalf {biased : Int32} {exponent : Nat}
    (stands : biased.toInt = exponent - 1008) (small : exponent ≤ 1008)
    (visible : 998 ≤ exponent) :
    (shiftRoundEven (fraction ||| ((1 : UInt64) <<< 52))
        (42 + 1 - biased).toUInt32).toUInt16.toNat =
      half.nearest (2 ^ 52 + fraction.toNat) (exponent - 1075) := by
  have places : (42 + 1 - biased).toInt = (1051 - exponent : Nat) := by
    rw [Int32.toInt_sub, stands]
    change ((43 : Int) - (exponent - 1008)).bmod (2 ^ 32) = _
    rw [bmod_small (by omega) (by omega)]
    omega
  have shift : (42 + 1 - biased).toUInt32.toNat = 1051 - exponent := by
    have word := toNat_signExtend places 32 (by omega)
    rwa [BitVec.signExtend_eq] at word
  have bounded : half.nearest (2 ^ 52 + fraction.toNat) (exponent - 1075) ≤ half.infinityBits :=
    nearest_le ..
  have hidden := toNat_hidden short
  rw [half_nearest_small short small] at bounded ⊢
  rw [UInt64.toNat_toUInt16, toNat_shiftRoundEven (by omega), hidden, shift]
  exact Nat.mod_eq_of_lt (bounded.trans_lt (by decide))

/-- Exponent field and fraction of a normal half. -/
theorem toNat_normalHalf {biased : Int32} {exponent : Nat} (stands : biased.toInt = exponent - 1008)
    (normal : 1009 ≤ exponent) (below : exponent < 1039) :
    (min (shiftRoundEven ((biased.toInt64.toUInt64 <<< 52) ||| fraction) 42)
        0x7c00).toUInt16.toNat = half.nearest (2 ^ 52 + fraction.toNat) (exponent - 1075) := by
  have field : biased.toInt64.toUInt64.toNat = exponent - 1008 :=
    toNat_signExtend (by omega) 64 (by omega)
  have combined : ((biased.toInt64.toUInt64 <<< 52) ||| fraction).toNat =
      (exponent - 1008) * 2 ^ 52 + fraction.toNat := by
    rw [UInt64.toNat_or, UInt64.toNat_shiftLeft, field, Nat.shiftLeft_eq]
    change (exponent - 1008) * 2 ^ 52 % 2 ^ 64 ||| fraction.toNat = _
    rw [Nat.mod_eq_of_lt (by omega), shifted_or _ short]
  have least (word : UInt64) : (min word 0x7c00).toNat = min 0x7c00 word.toNat := by
    have same : word ≤ 0x7c00 ↔ word.toNat ≤ 0x7c00 := UInt64.le_iff_toNat_le
    change (if word ≤ 0x7c00 then word else 0x7c00).toNat = _
    by_cases lower : word ≤ 0x7c00
    · rw [if_pos lower, Nat.min_eq_right (same.mp lower)]
    · rw [if_neg lower, Nat.min_eq_left (Nat.le_of_not_le (same.not.mp lower))]
      rfl
  rw [half_nearest_combined short normal, UInt64.toNat_toUInt16, least,
    toNat_shiftRoundEven (by omega), combined]
  change min 0x7c00 (roundHalfEven _ 42) % 2 ^ 16 = _
  omega

end Words

/-- A normal double is rounded, in the range of halfs that it falls into. -/
theorem toNat_halfOfDouble_of_normal {double : UInt64} {negative : Bool} {exponent fraction : Nat}
    (holds : (DoubleFields.ofBits double).Holds negative exponent fraction)
    (normal : exponent ≠ 0) (finite : exponent ≠ 0x7ff) : (halfOfDouble double).toNat =
      half.round negative (2 ^ 52 + fraction) (exponent - 1075) := by
  have field := toInt_biasedHalf holds.exponent_eq holds.exponent_lt
  rw [halfOfDouble, BinaryFormat.round]
  dsimp only
  generalize DoubleFields.ofBits double = fields at *
  generalize fields.exponent - DoubleFields.exponentBias + 15 = biased at *
  obtain ⟨overflow, subnormal, underflow⟩ := biasedHalf_ranges field
  have short := holds.fraction_lt
  obtain rfl := holds.fraction_eq
  have limit := (nearest_le (2 ^ 52 + fields.fraction.toNat) (exponent - 1075)).trans_lt
    half.infinityBits_lt
  rw [if_neg (holds.top_iff.not.mpr finite), if_neg (holds.least_iff.not.mpr normal)]
  by_cases large : 1039 ≤ exponent
  · rw [if_pos (overflow.mpr large), half_nearest_overflow short large]
    exact toNat_signedHalf holds.sign_eq (by decide)
  rw [if_neg (overflow.not.mpr large)]
  by_cases small : exponent ≤ 1008
  · rw [if_pos (subnormal.mpr small)]
    by_cases tiny : exponent < 998
    · rw [if_pos (underflow.mpr tiny), half_nearest_underflow short tiny]
      exact toNat_signHalf holds.sign_eq
    · have word := toNat_subnormalHalf short field small (by omega)
      rw [if_neg (underflow.not.mpr tiny), ← word]
      exact toNat_signedHalf holds.sign_eq (word ▸ limit)
  · have word := toNat_normalHalf short field (by omega) (by omega)
    rw [if_neg (subnormal.not.mpr small), ← word]
    exact toNat_signedHalf holds.sign_eq (word ▸ limit)

/-- The word of a half precision number is the number that a double is rounded to. -/
theorem toNat_halfOfDouble (double : UInt64) : (halfOfDouble double).toNat =
    (BinaryFormat.double.decode double.toNat).halfBits := by
  obtain ⟨negative, exponent, fraction, holds, reads⟩ := exists_holds double
  rw [reads, fieldsDatum]
  by_cases infinite : exponent = 0x7ff
  · rw [halfOfDouble, if_pos infinite]
    dsimp only
    rw [if_pos (holds.top_iff.mpr infinite)]
    by_cases none : fraction = 0
    · rw [if_pos none, if_neg (not_not.mpr (holds.fraction_iff.mpr none)), UInt16.or_zero]
      exact toNat_signedHalf holds.sign_eq (by decide)
    · rw [if_neg none, if_pos (holds.fraction_iff.not.mpr none), UInt16.or_assoc]
      exact toNat_signedHalf holds.sign_eq (by decide)
  rw [if_neg infinite]
  by_cases least : exponent = 0
  · rw [halfOfDouble, if_pos least]
    dsimp only
    rw [if_neg (holds.top_iff.not.mpr infinite), if_pos (holds.least_iff.mpr least),
      FloatDatum.halfBits, BinaryFormat.round, half_nearest_zero holds.fraction_lt]
    exact toNat_signHalf holds.sign_eq
  · rw [if_neg least]
    exact toNat_halfOfDouble_of_normal holds least infinite

theorem toNat_bits_half (double : UInt64) :
    (FloatConstant.ofDouble .half double).bits.toNat =
      (BinaryFormat.double.decode double.toNat).halfBits := by
  rw [← toNat_halfOfDouble]
  exact BitVec.toNat_setWidth_of_le (by decide)

/-- A double becomes the half precision number nearest to it, and the one with an even last bit if
two are equally near; from `65520` on it becomes infinite. Its sign is kept, also where the result
is zero, and what is infinite or no number remains so. -/
theorem half_rounds (double : UInt64) :
    let datum := BinaryFormat.double.decode double.toNat
    let bits := (FloatConstant.ofDouble .half double).bits.toNat
    bits < 2 ^ 16 ∧ (half.decode bits).negative = datum.negative ∧
      (∀ number, datum.number? = some number →
        (|number| < 65520 → half.IsNearest bits number) ∧
        (65520 ≤ |number| → half.decode bits = .infinity datum.negative)) ∧
      (∀ negative, datum = .infinity negative → half.decode bits = .infinity negative) ∧
      ∀ negative payload, datum = .nan negative payload →
        ∃ kept, half.decode bits = .nan negative kept := by
  intro datum bits
  have same : bits = datum.halfBits := toNat_bits_half double
  rw [same]
  clear_value datum
  refine ⟨halfBits_lt datum, ?_, ?_, ?_, ?_⟩
  · cases datum with
    | finite negative significand exponent => exact (shows_round ..).negative_eq
    | infinity negative => exact congrArg FloatDatum.negative (decode_infinity negative)
    | nan negative =>
      rw [FloatDatum.halfBits, decode_nan negative (by decide) (by decide)]
      rfl
  · intro number stands
    cases datum with
    | infinity | nan => cases stands
    | finite negative significand exponent =>
      obtain rfl := Option.some.inj stands
      rw [abs_mul, abs_signNumber, one_mul, abs_of_nonneg (by positivity)]
      constructor
      · intro below
        exact isNearest_round (by decide) negative ((half_nearest_lt_iff ..).mpr below)
      · intro beyond
        have reached := (half_nearest_lt_iff significand exponent).not.mpr beyond.not_gt
        exact (shows_round ..).eq_infinity ((nearest_le ..).antisymm (not_lt.mp reached))
  · rintro negative rfl
    exact decode_infinity negative
  · rintro negative payload rfl
    exact ⟨_, decode_nan negative (by decide) (by decide)⟩

-- The last double below `65520`, and `65520` itself.
example : (FloatConstant.ofDouble .half 0x40effdffffffffff).bits = 0x7bff ∧
    (FloatConstant.ofDouble .half 0x40effe0000000000).bits = 0x7c00 := by decide

end IrAssembly
