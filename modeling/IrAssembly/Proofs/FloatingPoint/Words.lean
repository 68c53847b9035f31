import IrAssembly.FloatingPoint.Kind
import Mathlib.Tactic.Ring

/-! The words of a double as numbers. Fields that are put side by side into a word add up, and the
shift that rounds a word rounds its number. -/

namespace IrAssembly

/-- A field above others is added to them. -/
theorem shifted_or {place low : Nat} (high : Nat) (short : low < 2 ^ place) :
    high * 2 ^ place ||| low = high * 2 ^ place + low := by
  rw [Nat.mul_comm, Nat.two_pow_add_eq_or_of_lt short]

/-! Rounding -/

/-- An even number of whole steps goes through rounding as it is. -/
theorem roundHalfEven_add (value steps shift : Nat) :
    roundHalfEven (2 * steps * 2 ^ shift + value) shift =
      2 * steps + roundHalfEven value shift := by
  have positive := Nat.two_pow_pos shift
  have kept : (2 * steps * 2 ^ shift + value) / 2 ^ shift = 2 * steps + value / 2 ^ shift := by
    rw [Nat.add_comm, Nat.add_mul_div_right _ _ positive, Nat.add_comm]
  have rest : (2 * steps * 2 ^ shift + value) % 2 ^ shift = value % 2 ^ shift := by
    rw [Nat.add_comm, Nat.add_mul_mod_self_right]
  have parity : (2 * steps + value / 2 ^ shift) % 2 = value / 2 ^ shift % 2 := by omega
  unfold roundHalfEven
  dsimp only
  rw [kept, rest, parity]
  split <;> omega

/-- Less than half a step is rounded off. -/
theorem roundHalfEven_eq_zero {value shift : Nat} (small : 2 * value < 2 ^ shift) :
    roundHalfEven value shift = 0 := by
  have below : value < 2 ^ shift := by omega
  unfold roundHalfEven
  dsimp only
  rw [Nat.div_eq_of_lt below, Nat.mod_eq_of_lt below, if_neg (by omega)]

theorem roundHalfEven_le {value count shift : Nat} (bounded : value ≤ count * 2 ^ shift) :
    roundHalfEven value shift ≤ count := by
  have parts := Nat.div_add_mod' value (2 ^ shift)
  have positive := Nat.two_pow_pos shift
  unfold roundHalfEven
  dsimp only
  generalize 2 ^ shift = whole at *
  split
  · -- something is left behind the whole steps, so there is room for one more
    have some : value / whole * whole < count * whole := by omega
    exact Nat.lt_of_mul_lt_mul_right some
  · exact Nat.le_of_mul_le_mul_right (by omega) positive

theorem le_roundHalfEven {value count shift : Nat} (reached : count * 2 ^ shift ≤ value) :
    count ≤ roundHalfEven value shift := by
  have kept : count ≤ value / 2 ^ shift :=
    (Nat.le_div_iff_mul_le (Nat.two_pow_pos shift)).mpr reached
  unfold roundHalfEven
  dsimp only
  split <;> omega

theorem roundHalfEven_zero (value : Nat) : roundHalfEven value 0 = value := by
  simp [roundHalfEven, Nat.mod_one]

section Shift

variable {shift : UInt32}

theorem toNat_shiftDown (short : shift.toNat < 64) (value : UInt64) :
    (value >>> shift.toUInt64).toNat = value.toNat / 2 ^ shift.toNat := by
  rw [UInt64.toNat_shiftRight, UInt32.toNat_toUInt64, Nat.mod_eq_of_lt short,
    Nat.shiftRight_eq_div_pow]

theorem toNat_shiftedOne (short : shift.toNat < 64) :
    ((1 : UInt64) <<< shift.toUInt64).toNat = 2 ^ shift.toNat := by
  have bounded : 2 ^ shift.toNat < 2 ^ 64 := Nat.pow_lt_pow_right (by decide) short
  rw [UInt64.toNat_shiftLeft, UInt32.toNat_toUInt64, Nat.mod_eq_of_lt short, Nat.shiftLeft_eq,
    UInt64.toNat_one, Nat.one_mul, Nat.mod_eq_of_lt bounded]

theorem toNat_lowMask (short : shift.toNat < 64) (value : UInt64) :
    (value &&& (((1 : UInt64) <<< shift.toUInt64) - 1)).toNat = value.toNat % 2 ^ shift.toNat := by
  have one : (1 : UInt64) ≤ 1 <<< shift.toUInt64 := by
    rw [UInt64.le_iff_toNat_le, toNat_shiftedOne short]
    exact Nat.two_pow_pos _
  rw [UInt64.toNat_and, UInt64.toNat_sub_of_le _ _ one, toNat_shiftedOne short, UInt64.toNat_one,
    Nat.and_two_pow_sub_one_eq_mod]

/-- Half of the step that a shift rounds to. -/
theorem toNat_halfStep (positive : 0 < shift.toNat) (short : shift.toNat < 64) :
    2 * ((1 : UInt64) <<< (shift - 1).toUInt64).toNat = 2 ^ shift.toNat := by
  have lower : (shift - 1).toNat = shift.toNat - 1 :=
    UInt32.toNat_sub_of_le _ _ (UInt32.le_iff_toNat_le.mpr positive)
  rw [toNat_shiftedOne (by omega), lower, ← Nat.pow_succ', Nat.succ_eq_add_one,
    Nat.sub_add_cancel positive]

/-- Rounding a word is rounding its number. A word without its highest bit is rounded off by the
shifts that leave nothing of it. -/
theorem toNat_shiftRoundEven {value : UInt64} (room : value.toNat < 2 ^ 63) (shift : UInt32) :
    (shiftRoundEven value shift).toNat = roundHalfEven value.toNat shift.toNat := by
  unfold shiftRoundEven
  by_cases unmoved : shift = 0
  · subst unmoved
    rw [if_pos rfl]
    exact (roundHalfEven_zero _).symm
  rw [if_neg unmoved]
  by_cases wide : 64 ≤ shift
  · have all : 2 ^ 64 ≤ 2 ^ shift.toNat :=
      Nat.pow_le_pow_right (by decide) (UInt32.le_iff_toNat_le.mp wide)
    rw [if_pos wide, roundHalfEven_eq_zero (by omega)]
    rfl
  have short : shift.toNat < 64 := Nat.not_le.mp (UInt32.le_iff_toNat_le.not.mp wide)
  have positive : 0 < shift.toNat :=
    Nat.pos_of_ne_zero fun none => unmoved (UInt32.toNat_inj.mp none)
  have step := toNat_halfStep positive short
  have kept := toNat_shiftDown short value
  have rest := toNat_lowMask short value
  have odd : (value >>> shift.toUInt64) &&& 1 = 1 ↔ value.toNat / 2 ^ shift.toNat % 2 = 1 := by
    rw [← UInt64.toNat_inj, UInt64.toNat_and, kept, UInt64.toNat_one, Nat.and_one_is_mod]
  rw [if_neg wide, roundHalfEven]
  dsimp only
  simp only [odd, UInt64.lt_iff_toNat_lt, ← UInt64.toNat_inj, rest, ← step,
    Nat.mul_lt_mul_left (by decide : 0 < 2), Nat.mul_right_inj (by decide : (2 : Nat) ≠ 0)]
  rw [step]
  split
  · have bounded : value.toNat / 2 ^ shift.toNat ≤ value.toNat := Nat.div_le_self ..
    rw [UInt64.toNat_add, kept, UInt64.toNat_one, Nat.mod_eq_of_lt (by omega)]
  · exact kept

end Shift

/-! Fields -/

/-- A small signed number remains itself where words wrap. -/
theorem bmod_small {number : Int} (least : -2 ^ 31 ≤ number) (greatest : number < 2 ^ 31) :
    number.bmod (2 ^ 32) = number :=
  Int.bmod_eq_of_le (by omega) (by omega)

theorem toNat_signExtend {word : Int32} {number : Nat} (stands : word.toInt = number) (width : Nat)
    (bounded : number < 2 ^ width) : (word.toBitVec.signExtend width).toNat = number := by
  have whole : ((2 ^ width : Nat) : Int) = 2 ^ width := by push_cast; rfl
  change (BitVec.ofInt width word.toInt).toNat = number
  rw [stands, BitVec.toNat_ofInt, Int.emod_eq_of_lt (by omega) (by omega), Int.toNat_natCast]

/-- The fields of a double are those of its pattern. -/
structure DoubleFields.Holds (fields : DoubleFields) (negative : Bool) (exponent fraction : Nat) :
    Prop where
  sign_eq : fields.sign.toNat = negative.toNat
  exponent_eq : fields.exponent.toInt = exponent
  fraction_eq : fields.fraction.toNat = fraction
  exponent_lt : exponent < 2 ^ 11
  fraction_lt : fraction < 2 ^ 52

namespace DoubleFields.Holds

variable {fields : DoubleFields} {negative : Bool} {exponent fraction : Nat}
  (holds : fields.Holds negative exponent fraction)
include holds

theorem top_iff : fields.exponent = 0x7ff ↔ exponent = 0x7ff := by
  rw [← Int32.toInt_inj, holds.exponent_eq]
  exact Int.ofNat_inj (n := 0x7ff)

theorem least_iff : fields.exponent = 0 ↔ exponent = 0 := by
  rw [← Int32.toInt_inj, holds.exponent_eq]
  exact Int.ofNat_inj (n := 0)

theorem fraction_iff : fields.fraction = 0 ↔ fraction = 0 := by
  rw [← UInt64.toNat_inj, holds.fraction_eq]
  rfl

end DoubleFields.Holds

/-- The datum of a double in terms of its fields. -/
def fieldsDatum (negative : Bool) (exponent fraction : Nat) : FloatDatum :=
  if exponent = 0x7ff then if fraction = 0 then .infinity negative else .nan negative fraction
  else if exponent = 0 then .finite negative fraction (-1074)
  else .finite negative (2 ^ 52 + fraction) (exponent - 1075)

theorem toNat_exponentField (bits : UInt64) :
    ((bits >>> 52) &&& 0x7ff).toUInt32.toNat = bits.toNat / 2 ^ 52 % 2 ^ 11 := by
  have masked : ((bits >>> 52) &&& 0x7ff).toNat = bits.toNat / 2 ^ 52 % 2 ^ 11 := by
    rw [UInt64.toNat_and, UInt64.toNat_shiftRight, Nat.shiftRight_eq_div_pow]
    exact Nat.and_two_pow_sub_one_eq_mod _ 11
  rw [UInt64.toNat_toUInt32, masked]
  omega

theorem toInt_toInt32 {word : UInt32} (small : word.toNat < 2 ^ 31) :
    word.toInt32.toInt = word.toNat :=
  BitVec.toInt_eq_toNat_of_lt (x := word.toBitVec) (by change 2 * word.toNat < _; omega)

theorem toNat_masked (word : UInt64) :
    (word &&& DoubleFields.fractionMask).toNat = word.toNat % 2 ^ 52 := by
  rw [UInt64.toNat_and]
  exact Nat.and_two_pow_sub_one_eq_mod _ 52

/-- A double is told by its fields. -/
theorem exists_holds (double : UInt64) : ∃ negative exponent fraction,
    (DoubleFields.ofBits double).Holds negative exponent fraction ∧
      BinaryFormat.double.decode double.toNat = fieldsDatum negative exponent fraction := by
  have size := double.toNat_lt
  have field := toNat_exponentField double
  refine ⟨double.toNat / 2 ^ 63 % 2 == 1, double.toNat / 2 ^ 52 % 2 ^ 11, double.toNat % 2 ^ 52,
    ⟨?_, ?_, toNat_masked double, Nat.mod_lt _ (by decide), Nat.mod_lt _ (by decide)⟩, ?_⟩
  · have top : double.toNat / 2 ^ 63 = 0 ∨ double.toNat / 2 ^ 63 = 1 := by omega
    change double.toNat >>> 63 = _
    rw [Nat.shiftRight_eq_div_pow]
    rcases top with top | top <;> rw [top] <;> rfl
  · change ((double >>> 52) &&& 0x7ff).toUInt32.toInt32.toInt = _
    rw [toInt_toInt32 (by omega), field]
  · have place (exponent : Nat) : (-1074 : Int) + (exponent - 1) = exponent - 1075 := by omega
    rw [fieldsDatum, ← place]
    rfl

/-! Normalized doubles -/

/-- The zeros above the leading one tell its place. -/
theorem toNat_leadingZeros {word : UInt64} (nonzero : word.toNat ≠ 0) :
    (leadingZeros word).toNat = 63 - word.toNat.log2 := by
  have some : word.toBitVec ≠ 0#64 := fun none => nonzero (congrArg BitVec.toNat none)
  have clear : word.toBitVec.clz.toNat < 64 := BitVec.clz_lt_iff_ne_zero.mpr some
  have lower : 2 ^ (63 - word.toBitVec.clz.toNat) ≤ word.toNat :=
    BitVec.two_pow_sub_clz_le_toNat_of_ne_zero (by decide) some
  have upper : word.toNat < 2 ^ (64 - word.toBitVec.clz.toNat) := BitVec.toNat_lt_two_pow_sub_clz
  have lead : word.toNat.log2 = 63 - word.toBitVec.clz.toNat := by
    rw [Nat.log2_eq_iff nonzero, show 63 - word.toBitVec.clz.toNat + 1 =
      64 - word.toBitVec.clz.toNat by omega]
    exact ⟨lower, upper⟩
  change (word.toBitVec.clz.setWidth 32).toNat = _
  rw [BitVec.toNat_setWidth, lead]
  omega

/-- A number that is moved up until its leading one is at a given place. -/
theorem leading_bounds {number place : Nat} (nonzero : number ≠ 0) (short : number.log2 ≤ place) :
    2 ^ place ≤ number * 2 ^ (place - number.log2) ∧
      number * 2 ^ (place - number.log2) < 2 ^ (place + 1) := by
  have lower := Nat.log2_self_le nonzero
  have upper : number < 2 ^ (number.log2 + 1) := Nat.lt_log2_self
  generalize number.log2 = lead at *
  constructor
  · calc 2 ^ place = 2 ^ lead * 2 ^ (place - lead) := by rw [← Nat.pow_add]; congr 1; omega
      _ ≤ number * 2 ^ (place - lead) := Nat.mul_le_mul_right _ lower
  · calc number * 2 ^ (place - lead)
        < 2 ^ (lead + 1) * 2 ^ (place - lead) :=
          Nat.mul_lt_mul_of_pos_right upper (Nat.two_pow_pos _)
      _ = 2 ^ (place + 1) := by rw [← Nat.pow_add]; congr 1; omega

theorem log2_hidden {fraction : Nat} (short : fraction < 2 ^ 52) :
    (2 ^ 52 + fraction).log2 = 52 :=
  (Nat.log2_eq_iff (by omega)).mpr ⟨by omega, by omega⟩

/-- A finite nonzero double is the number that its leading one and its normalized fields tell. -/
structure DoubleFields.Normal (fields : DoubleFields) (significand : Nat) (place : Int) : Prop where
  nonzero : significand ≠ 0
  short : significand.log2 ≤ 52
  least : -1074 ≤ place
  greatest : place ≤ 971
  exponent_eq : fields.normalized.1.toInt = significand.log2 + place
  fraction_eq : 2 ^ 52 + fields.normalized.2.toNat = significand * 2 ^ (52 - significand.log2)

theorem DoubleFields.Holds.normal {fields : DoubleFields} {negative : Bool}
    {exponent fraction : Nat} (holds : fields.Holds negative exponent fraction)
    (normal : exponent ≠ 0) (finite : exponent ≠ 0x7ff) :
    fields.Normal (2 ^ 52 + fraction) (exponent - 1075) := by
  have bounded := holds.exponent_lt
  have lead := log2_hidden holds.fraction_lt
  have some : fields.exponent ≠ 0 := holds.least_iff.not.mpr normal
  refine ⟨by omega, lead.le, by omega, by omega, ?_, ?_⟩
  · rw [DoubleFields.normalized, if_pos some, Int32.toInt_sub, holds.exponent_eq, lead]
    change ((exponent : Int) - 1023).bmod (2 ^ 32) = _
    rw [bmod_small (by omega) (by omega)]
    omega
  · rw [DoubleFields.normalized, if_pos some, holds.fraction_eq, lead, Nat.sub_self, Nat.pow_zero,
      Nat.mul_one]

theorem DoubleFields.Holds.subnormal {fields : DoubleFields} {negative : Bool} {fraction : Nat}
    (holds : fields.Holds negative 0 fraction) (nonzero : fraction ≠ 0) :
    fields.Normal fraction (-1074) := by
  have none : fields.exponent = 0 := holds.least_iff.mpr rfl
  have same := holds.fraction_eq
  have lead : fraction.log2 < 52 := (Nat.log2_lt nonzero).mpr holds.fraction_lt
  have zeros : (leadingZeros fields.fraction).toNat = 63 - fraction.log2 := by
    rw [toNat_leadingZeros (by rwa [same]), same]
  have shift : (leadingZeros fields.fraction - 11).toNat = 52 - fraction.log2 := by
    have enough : 11 ≤ leadingZeros fields.fraction := by
      rw [UInt32.le_iff_toNat_le, zeros]
      change 11 ≤ _
      omega
    rw [UInt32.toNat_sub_of_le _ _ enough, zeros]
    change _ - 11 = _
    omega
  obtain ⟨lower, upper⟩ := leading_bounds nonzero lead.le
  refine ⟨nonzero, lead.le, by omega, by omega, ?_, ?_⟩
  · rw [DoubleFields.normalized, if_neg (not_not.mpr none)]
    dsimp only
    rw [Int32.toInt_sub, toInt_toInt32 (by omega), shift]
    change ((-1022 : Int) - (52 - fraction.log2 : Nat)).bmod (2 ^ 32) = _
    rw [bmod_small (by omega) (by omega)]
    omega
  · rw [DoubleFields.normalized, if_neg (not_not.mpr none)]
    dsimp only
    rw [toNat_masked, UInt64.toNat_shiftLeft, UInt32.toNat_toUInt64, shift, same, Nat.shiftLeft_eq,
      Nat.mod_eq_of_lt (by omega : 52 - fraction.log2 < 64)]
    generalize fraction * 2 ^ (52 - fraction.log2) = moved at *
    omega

/-- A double that is neither zero nor at the top exponent can be normalized. -/
theorem DoubleFields.Holds.exists_normal {fields : DoubleFields} {negative : Bool}
    {exponent fraction : Nat} (holds : fields.Holds negative exponent fraction)
    (finite : exponent ≠ 0x7ff) (nonzero : ¬ (exponent = 0 ∧ fraction = 0)) :
    ∃ significand place,
      fieldsDatum negative exponent fraction = .finite negative significand place ∧
        fields.Normal significand place := by
  rw [fieldsDatum, if_neg finite]
  by_cases least : exponent = 0
  · subst least
    exact ⟨_, _, if_pos rfl, holds.subnormal fun none => nonzero ⟨rfl, none⟩⟩
  · exact ⟨_, _, if_neg least, holds.normal least finite⟩

namespace DoubleFields.Normal

variable {fields : DoubleFields} {significand : Nat} {place : Int}
  (normal : fields.Normal significand place)
include normal

theorem fraction_lt : fields.normalized.2.toNat < 2 ^ 52 := by
  have upper := (leading_bounds normal.nonzero normal.short).2
  have := normal.fraction_eq
  omega

/-- The digits of the number with zeros behind. -/
theorem digits_eq (zeros : Nat) : (2 ^ 52 + fields.normalized.2.toNat) * 2 ^ zeros =
    significand * 2 ^ (52 + zeros - significand.log2) := by
  have short := normal.short
  rw [normal.fraction_eq, Nat.mul_assoc, ← Nat.pow_add]
  congr 2
  omega

end DoubleFields.Normal

end IrAssembly
