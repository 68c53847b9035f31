import IrAssembly.Builder.Literal
import IrAssembly.Proofs.FloatingPoint.Narrowing
import IrAssembly.Proofs.FloatingPoint.Widening

/-! Integers as floating point constants. An integer literal becomes a double before it becomes a
number of its kind, so it keeps its value where double precision and the kind both have it. -/

namespace IrAssembly

open BinaryFormat

/-! What patterns of a kind stand for -/

namespace FloatKind

/-- What a pattern of a kind stands for; some extended patterns stand for nothing. -/
def datum? : FloatKind → Nat → Option FloatDatum
  | half, bits => some (BinaryFormat.half.decode bits)
  | single, bits => some (BinaryFormat.single.decode bits)
  | double, bits => some (BinaryFormat.double.decode bits)
  | x87, bits => extendedDatum? bits
  | quad, bits => some (BinaryFormat.quad.decode bits)

/-- The number is one of the kind. -/
def Holds (kind : FloatKind) (number : ℚ) : Prop :=
  ∃ bits < 2 ^ kind.bitWidth, ∃ datum, kind.datum? bits = some datum ∧ datum.number? = some number

end FloatKind

/-- The constant is a pattern of its kind that stands for the integer, without a sign for zero. -/
def FloatConstant.IsInteger (constant : FloatConstant) (value : Int) : Prop :=
  constant.bits.toNat < 2 ^ constant.kind.bitWidth ∧
    ∃ datum, constant.kind.datum? constant.bits.toNat = some datum ∧
      datum.negative = decide (value < 0) ∧ datum.number? = some (value : ℚ)

theorem FloatConstant.IsInteger.holds {constant : FloatConstant} {value : Int}
    (exact : constant.IsInteger value) : constant.kind.Holds value := by
  obtain ⟨bounded, datum, stands, -, number⟩ := exact
  exact ⟨_, bounded, datum, stands, number⟩

theorem exists_finite_of_number? {datum : FloatDatum} {number : ℚ}
    (stands : datum.number? = some number) : ∃ negative significand exponent,
      datum = .finite negative significand exponent ∧
        signNumber negative * (significand * 2 ^ exponent) = number := by
  cases datum with
  | finite negative significand exponent => exact ⟨_, _, _, rfl, Option.some.inj stands⟩
  | infinity | nan => cases stands

/-! Rounding what needs no rounding -/

namespace BinaryFormat

variable {format : BinaryFormat} {negative : Bool} {significand : Nat} {exponent : Int}

theorem exists_place {bits : Nat} {number : ℚ}
    (stands : (format.decode bits).number? = some number) :
    ∃ place < format.infinityBits, format.value place = |number| := by
  rw [(format.shows_decode bits).number?_eq] at stands
  split at stands
  · rename_i below
    obtain rfl := Option.some.inj stands
    refine ⟨_, below, ?_⟩
    rw [abs_mul, abs_signNumber, one_mul, abs_of_nonneg (format.value_nonneg _)]
  · cases stands

/-- A number of the format is rounded to itself. -/
theorem number?_round {place : Nat} (fraction : 0 < format.fractionBits)
    (below : place < format.infinityBits)
    (same : format.value place = significand * 2 ^ exponent) :
    (format.decode (format.round negative significand exponent)).number? =
      some (signNumber negative * (significand * 2 ^ exponent)) := by
  obtain ⟨reached, rounds, chosen⟩ := exists_rounds_nearest fraction significand exponent
  obtain rfl := rounds.eq_of_value format.strictMono_value same
  have nearest : format.nearest significand exponent = reached := by omega
  rw [(shows_round negative significand exponent).number?_eq, nearest, if_pos below, same]

theorem negative_round :
    (format.decode (format.round negative significand exponent)).negative = negative :=
  (shows_round negative significand exponent).negative_eq

theorem round_lt : format.round negative significand exponent < 2 * format.signBit :=
  format.signed_lt negative ((nearest_le ..).trans_lt format.infinityBits_lt)

end BinaryFormat

/-! Integers as doubles -/

theorem signNumber_mul_natAbs (value : Int) :
    signNumber (decide (value < 0)) * (value.natAbs * 2 ^ (0 : Int)) = (value : ℚ) := by
  rw [zpow_zero, mul_one, Nat.cast_natAbs]
  by_cases negative : value < 0
  · rw [decide_eq_true negative, abs_of_neg negative, signNumber, if_pos rfl]
    push_cast
    ring
  · rw [decide_eq_false negative, abs_of_nonneg (not_lt.mp negative), signNumber,
      if_neg Bool.false_ne_true, one_mul]

theorem toNat_doubleOfInt (value : Int) :
    (doubleOfInt value).toNat = BinaryFormat.double.round (value < 0) value.natAbs 0 := by
  have width : 2 * BinaryFormat.double.signBit = 2 ^ 64 := by decide
  exact Nat.mod_eq_of_lt (width ▸ round_lt)

/-- An integer that is a double becomes it. -/
theorem doubleOfInt_exact {value : Int} (held : FloatKind.double.Holds value) :
    (BinaryFormat.double.decode (doubleOfInt value).toNat).negative = decide (value < 0) ∧
      (BinaryFormat.double.decode (doubleOfInt value).toNat).number? = some (value : ℚ) := by
  obtain ⟨bits, -, datum, stands, number⟩ := held
  obtain rfl := Option.some.inj stands
  obtain ⟨place, below, same⟩ := exists_place number
  rw [toNat_doubleOfInt]
  refine ⟨negative_round, ?_⟩
  rw [number?_round (by decide) below, signNumber_mul_natAbs]
  rw [same, zpow_zero, mul_one, Nat.cast_natAbs, Int.cast_abs]

/-- A number of a format with fewer digits and a narrower range is a double. -/
theorem holds_double {format : BinaryFormat} {bits : Nat} {number : ℚ}
    (digits : 2 ^ format.fractionBits ≤ 2 ^ BinaryFormat.double.fractionBits)
    (least : BinaryFormat.double.leastExponent ≤ format.leastExponent)
    (greatest : format.value format.infinityBits ≤
      BinaryFormat.double.value BinaryFormat.double.infinityBits)
    (stands : (format.decode bits).number? = some number) : FloatKind.double.Holds number := by
  obtain ⟨negative, significand, exponent, finite, rfl⟩ := exists_finite_of_number? stands
  obtain ⟨below, same⟩ := wider_nearest (by decide) digits least greatest finite
  have width : 2 * BinaryFormat.double.signBit = 2 ^ FloatKind.double.bitWidth := by decide
  refine ⟨BinaryFormat.double.round negative significand exponent, width ▸ round_lt, _, rfl, ?_⟩
  rw [(shows_round negative significand exponent).number?_eq, if_pos below, same]

/-! Integers in the kinds -/

section Kinds

variable {double : UInt64} {value : Int}

/-- A number that is rounded in a format that has it remains. -/
theorem isInteger_round {format : BinaryFormat} {constant : FloatConstant} {negative : Bool}
    {significand : Nat} {exponent : Int} (fraction : 0 < format.fractionBits)
    (width : 2 * format.signBit = 2 ^ constant.kind.bitWidth)
    (reads : ∀ bits, constant.kind.datum? bits = some (format.decode bits))
    (rounded : constant.bits.toNat = format.round negative significand exponent)
    (held : constant.kind.Holds value) (sign : negative = decide (value < 0))
    (number : signNumber negative * (significand * 2 ^ exponent) = (value : ℚ)) :
    constant.IsInteger value := by
  obtain ⟨bits, -, datum, stands, heldNumber⟩ := held
  obtain rfl := Option.some.inj ((reads bits).symm.trans stands)
  obtain ⟨place, below, same⟩ := exists_place heldNumber
  refine ⟨rounded ▸ width ▸ round_lt, _, reads _, ?_, ?_⟩
  · rw [rounded, negative_round, sign]
  · rw [rounded, number?_round fraction below, number]
    rw [same, ← number, abs_mul, abs_signNumber, one_mul, abs_of_nonneg (by positivity)]

theorem toNat_bits_single {negative : Bool} {significand : Nat} {exponent : Int}
    (stands : BinaryFormat.double.decode double.toNat = .finite negative significand exponent) :
    (FloatConstant.ofDouble .single double).bits.toNat =
      BinaryFormat.single.round negative significand exponent := by
  have narrow : BinaryFormat.single.round negative significand exponent < 2 ^ 128 :=
    round_lt.trans (by decide)
  rw [FloatConstant.ofDouble, FloatKind.ofDouble, stands]
  exact Nat.mod_eq_of_lt narrow

theorem toNat_bits_double (double : UInt64) :
    (FloatConstant.ofDouble .double double).bits.toNat = double.toNat :=
  Nat.mod_eq_of_lt (double.toNat_lt.trans (by decide))

/-- A double that is an integer remains one in every kind that has the integer. -/
theorem isInteger_ofDouble {kind : FloatKind} (held : kind.Holds value)
    (sign : (BinaryFormat.double.decode double.toNat).negative = decide (value < 0))
    (number : (BinaryFormat.double.decode double.toNat).number? = some (value : ℚ)) :
    (FloatConstant.ofDouble kind double).IsInteger value := by
  obtain ⟨negative, significand, exponent, finite, own⟩ := exists_finite_of_number? number
  have finiteSign : negative = decide (value < 0) := by rw [← sign, finite]; rfl
  cases kind with
  | half =>
    have rounded := toNat_bits_half double
    rw [finite] at rounded
    exact isInteger_round (by decide) rfl (fun _ => rfl) rounded held finiteSign own
  | single =>
    exact isInteger_round (by decide) rfl (fun _ => rfl) (toNat_bits_single finite) held
      finiteSign own
  | double =>
    refine ⟨?_, _, rfl, ?_⟩
    · rw [toNat_bits_double]
      exact double.toNat_lt
    · rw [toNat_bits_double]
      exact ⟨sign, number⟩
  | x87 =>
    obtain ⟨bounded, wide, stands, widens⟩ := extended_widens double
    refine ⟨?_, wide, ?_, widens.negative_eq.trans sign, widens.number?_eq.trans number⟩
    · rw [toNat_bits_x87]
      exact bounded
    · rw [toNat_bits_x87]
      exact stands
  | quad =>
    have widens := quad_widens double
    rw [← toNat_bits_quad] at widens
    refine ⟨?_, _, rfl, widens.negative_eq.trans sign, widens.number?_eq.trans number⟩
    rw [toNat_bits_quad]
    exact quadBits_lt

/-- Only a double that is an integer becomes one in the wide kinds. -/
theorem number?_of_isInteger {kind : FloatKind} (wide : kind = .x87 ∨ kind = .quad)
    (exact : (FloatConstant.ofDouble kind double).IsInteger value) :
    (BinaryFormat.double.decode double.toNat).number? = some (value : ℚ) := by
  obtain ⟨-, datum, stands, -, number⟩ := exact
  rcases wide with rfl | rfl
  · obtain ⟨-, wide, reads, widens⟩ := extended_widens double
    rw [← toNat_bits_x87] at reads
    obtain rfl := Option.some.inj (reads.symm.trans stands)
    exact widens.number?_eq.symm.trans number
  · have widens := quad_widens double
    rw [← toNat_bits_quad] at widens
    obtain rfl := Option.some.inj stands
    exact widens.number?_eq.symm.trans number

end Kinds

/-- What the narrow kinds have is a double. -/
theorem FloatKind.Holds.double {kind : FloatKind} {number : ℚ} (held : kind.Holds number)
    (narrow : kind ≠ .x87 ∧ kind ≠ .quad) : FloatKind.double.Holds number := by
  cases kind with
  | half =>
    obtain ⟨bits, -, datum, stands, number⟩ := held
    obtain rfl := Option.some.inj stands
    exact holds_double (by decide) (by decide) half_infinity_le number
  | single =>
    obtain ⟨bits, -, datum, stands, number⟩ := held
    obtain rfl := Option.some.inj stands
    exact holds_double (by decide) (by decide) single_infinity_le number
  | double => exact held
  | x87 => exact absurd rfl narrow.1
  | quad => exact absurd rfl narrow.2

/-- An integer literal of a floating point kind is the integer just if the kind has it, and for
extended and quadruple precision just if it is also a double. -/
theorem Literal.int_exact_iff (kind : FloatKind) (value : Int64) :
    ∃ constant, (Literal.int value).toConstant (.float kind) = .ok (.float constant) ∧
      constant.kind = kind ∧ (constant.IsInteger value.toInt ↔ kind.Holds value.toInt ∧
        (kind = .x87 ∨ kind = .quad → FloatKind.double.Holds value.toInt)) := by
  refine ⟨_, rfl, rfl, ?_⟩
  constructor
  · intro exact
    refine ⟨exact.holds, fun wide => ?_⟩
    exact ⟨_, UInt64.toNat_lt _, _, rfl, number?_of_isInteger wide exact⟩
  · rintro ⟨held, heldByDouble⟩
    have double : FloatKind.double.Holds value.toInt := by
      by_cases wide : kind = .x87 ∨ kind = .quad
      · exact heldByDouble wide
      · exact held.double (not_or.mp wide)
    obtain ⟨sign, number⟩ := doubleOfInt_exact double
    exact isInteger_ofDouble held sign number

/-- Extended precision has the integer `2 ^ 53 + 1`, but the literal becomes the constant of
`2 ^ 53`. -/
theorem Literal.int_off_by_one :
    FloatKind.x87.Holds (9007199254740993 : Int) ∧
      ∃ constant, (Literal.int 9007199254740993).toConstant (.float .x87) = .ok (.float constant) ∧
        constant.IsInteger 9007199254740992 ∧ ¬ constant.IsInteger 9007199254740993 := by
  have held : FloatKind.x87.datum? 0x40348000000000000400 =
      some (.finite false 0x8000000000000400 (-10)) := by decide
  have given : FloatKind.x87.datum? 0x40348000000000000000 =
      some (.finite false 0x8000000000000000 (-10)) := by decide
  have number : (FloatDatum.finite false 0x8000000000000000 (-10)).number? =
      some (9007199254740992 : ℚ) := by
    norm_num [FloatDatum.number?, signNumber]
  refine ⟨⟨0x40348000000000000400, by decide, _, held, ?_⟩, ⟨.x87, 0x40348000000000000000⟩,
    by decide, ⟨by decide, _, given, rfl, ?_⟩, ?_⟩
  · norm_num [FloatDatum.number?, signNumber]
  · exact_mod_cast number
  · rintro ⟨-, datum, stands, -, other⟩
    obtain rfl := Option.some.inj (given.symm.trans stands)
    rw [number] at other
    norm_num at other

end IrAssembly
