import IrAssembly.Proofs.Assembly.Spelling
import IrAssembly.Proofs.FloatingPoint.Widening

/-! The hexadecimal notation tells the floating point constants of a kind apart. A single is written
as a double, which keeps every number and both infinities. -/

namespace IrAssembly

open BinaryFormat

/-! Digits -/

theorem length_hexDigits (width value : Nat) : (hexDigits width value).length = width := by
  induction width generalizing value with
  | zero => rfl
  | succ width ih => rw [hexDigits, List.length_append, ih, List.length_singleton]

/-- Digits tell a number up to those above them. -/
theorem mod_eq_of_hexDigits {width value other : Nat}
    (same : hexDigits width value = hexDigits width other) :
    value % 16 ^ width = other % 16 ^ width := by
  induction width generalizing value other with
  | zero => rw [Nat.pow_zero, Nat.mod_one, Nat.mod_one]
  | succ width ih =>
    rw [hexDigits, hexDigits] at same
    obtain ⟨front, last⟩ := List.append_inj' same rfl
    have low := mod_eq_of_hexDigit (List.singleton_inj.mp last)
    rw [Nat.pow_succ', Nat.mod_mul, Nat.mod_mul, low, ih front]

theorem mod_eq_of_hexText {width value other : Nat}
    (same : hexText width value = hexText width other) :
    value % 16 ^ width = other % 16 ^ width :=
  mod_eq_of_hexDigits (String.ofList_injective same)

theorem eq_of_hexText {width value other : Nat} (bounded : value < 16 ^ width)
    (otherBounded : other < 16 ^ width) (same : hexText width value = hexText width other) :
    value = other := by
  have rest := mod_eq_of_hexText same
  rwa [Nat.mod_eq_of_lt bounded, Nat.mod_eq_of_lt otherBounded] at rest

theorem eq_of_hexText_append {width value other : Nat} {back otherBack : String}
    (same : hexText width value ++ back = hexText width other ++ otherBack) :
    hexText width value = hexText width other ∧ back = otherBack := by
  have letters := congrArg String.toList same
  rw [String.toList_append, String.toList_append] at letters
  have lengths : (hexText width value).toList.length = (hexText width other).toList.length := by
    simp only [hexText, String.toList_ofList, length_hexDigits]
  obtain ⟨front, rest⟩ := List.append_inj letters lengths
  exact ⟨String.toList_injective front, String.toList_injective rest⟩

/-! Singles -/

namespace FloatConstant

variable {bits other : Nat}

theorem single_widens
    (known : ∀ negative payload, single.decode bits ≠ .nan negative payload) :
    (single.decode bits).Widens 29 (BinaryFormat.double.decode (widenedSingle bits)) := by
  unfold widenedSingle
  cases stands : single.decode bits with
  | finite negative significand exponent =>
    exact round_widens (by decide) (by decide) (by decide) single_infinity_le stands
  | infinity negative =>
    rw [FloatDatum.doubleBitsOfSingle, decode_infinity]
    exact .infinity negative
  | nan negative payload => exact absurd stands (known negative payload)

theorem widenedSingle_lt
    (known : ∀ negative payload, single.decode bits ≠ .nan negative payload) :
    widenedSingle bits < 2 ^ 64 := by
  unfold widenedSingle
  cases stands : single.decode bits with
  | finite negative significand exponent =>
    exact BinaryFormat.double.signed_lt negative
      ((nearest_le ..).trans_lt BinaryFormat.double.infinityBits_lt)
  | infinity negative =>
    exact BinaryFormat.double.signed_lt negative BinaryFormat.double.infinityBits_lt
  | nan negative payload => exact absurd stands (known negative payload)

theorem eq_of_widenedSingle (bounded : bits < 2 ^ 32) (otherBounded : other < 2 ^ 32)
    (known : ∀ negative payload, single.decode bits ≠ .nan negative payload)
    (otherKnown : ∀ negative payload, single.decode other ≠ .nan negative payload)
    (same : widenedSingle bits = widenedSingle other) : bits = other := by
  have widens := single_widens known
  rw [same] at widens
  have width : 2 * single.signBit = 2 ^ 32 := by decide
  exact eq_of_decode_widens (width ▸ bounded) (width ▸ otherBounded) widens
    (single_widens otherKnown)

/-! Constants -/

/-- The bits fit the kind, and a single is a number or an infinity. A pattern that is neither may
change when it is widened. -/
structure Normal (number : FloatConstant) : Prop where
  fits : number.bits.toNat < 2 ^ number.kind.bitWidth
  known : number.kind = .single → ∀ negative payload,
    single.decode number.bits.toNat ≠ .nan negative payload

theorem toNat_bits_inj {kind : FloatKind} {bits otherBits : BitVec 128}
    (normal : (FloatConstant.mk kind bits).Normal)
    (otherNormal : (FloatConstant.mk kind otherBits).Normal)
    (same : (FloatConstant.mk kind bits).literal = (FloatConstant.mk kind otherBits).literal) :
    bits.toNat = otherBits.toNat := by
  have fits := normal.fits
  have otherFits := otherNormal.fits
  cases kind with
  | half => exact eq_of_hexText fits otherFits ((String.append_right_inj _).mp same)
  | single =>
    have known := normal.known rfl
    have otherKnown := otherNormal.known rfl
    have widened := eq_of_hexText (widenedSingle_lt known) (widenedSingle_lt otherKnown)
      ((String.append_right_inj _).mp same)
    exact eq_of_widenedSingle fits otherFits known otherKnown widened
  | double => exact eq_of_hexText fits otherFits ((String.append_right_inj _).mp same)
  | x87 => exact eq_of_hexText fits otherFits ((String.append_right_inj _).mp same)
  | quad =>
    -- The low half stands in front of the high one.
    have halves : hexText 16 bits.toNat ++ hexText 16 (bits.toNat / 2 ^ 64) =
        hexText 16 otherBits.toNat ++ hexText 16 (otherBits.toNat / 2 ^ 64) := by
      simpa only [literal, String.append_assoc, String.append_right_inj] using same
    obtain ⟨front, back⟩ := eq_of_hexText_append halves
    have low := mod_eq_of_hexText front
    have high := mod_eq_of_hexText back
    change bits.toNat < 2 ^ 128 at fits
    change otherBits.toNat < 2 ^ 128 at otherFits
    omega

/-- The notation loses nothing of a constant whose kind is known. -/
theorem Normal.literal_injective {number other : FloatConstant} (normal : number.Normal)
    (otherNormal : other.Normal) (kinds : number.kind = other.kind)
    (same : number.literal = other.literal) : number = other := by
  obtain ⟨kind, bits⟩ := number
  obtain ⟨_, otherBits⟩ := other
  cases kinds
  rw [BitVec.eq_of_toNat_eq (toNat_bits_inj normal otherNormal same)]

end FloatConstant

end IrAssembly
