import IrAssembly.Proofs.FloatingPoint.Notation
import IrAssembly.Proofs.Text.Hexadecimal

/-! Literals of floating point kinds as a reader takes them. Each kind has its own mark and number
of digits. A single is read as a double that has to be a single without rounding, and a quadruple is
read with its halves exchanged. -/

namespace IrAssembly

open BinaryFormat

/-! Reading -/

/-- The digits behind a mark, if there are as many as expected and nothing else. -/
def digitsBehind? (mark : String) (count : Nat) (text : String) : Option (List Char) :=
  let digits := text.toList.drop mark.length
  if text.toList = mark.toList ++ digits ∧ digits.length = count then some digits else none

/-- The single that is equal to a double: sign and number have to remain, or the payload of what is
no number. -/
def narrowed? (double : Nat) : Option Nat :=
  let datum := BinaryFormat.double.decode double
  let narrow := single.decode datum.singleBits
  if narrow.negative = datum.negative ∧ narrow.number? = datum.number? ∧
      narrow.payload?.map (· * 2 ^ 29) = datum.payload? then
    some datum.singleBits
  else none

/-- The pattern that a literal of a kind stands for. -/
def readLiteral? (kind : FloatKind) (text : String) : Option Nat :=
  match kind with
  | .half => (digitsBehind? "0xH" 4 text).bind hexNumber?
  | .single => ((digitsBehind? "0x" 16 text).bind hexNumber?).bind narrowed?
  | .double => (digitsBehind? "0x" 16 text).bind hexNumber?
  | .x87 => (digitsBehind? "0xK" 20 text).bind hexNumber?
  | .quad => do
    let digits ← digitsBehind? "0xL" 32 text
    let low ← hexNumber? (digits.take 16)
    let high ← hexNumber? (digits.drop 16)
    return high * 2 ^ 64 + low

/-- The number of characters of a literal. -/
def FloatKind.literalLength : FloatKind → Nat
  | half => 7
  | single | double => 18
  | x87 => 23
  | quad => 35

theorem digitsBehind?_append {digits : List Char} {count : Nat} (mark : String)
    (counted : digits.length = count) :
    digitsBehind? mark count (mark ++ String.ofList digits) = some digits := by
  have dropped : (mark ++ String.ofList digits).toList.drop mark.length = digits := by
    rw [String.toList_append, String.toList_ofList, List.drop_left' String.length_toList]
  unfold digitsBehind?
  rw [dropped, if_pos ⟨by simp, counted⟩]

theorem hexNumber?_behind (mark : String) (width value : Nat) :
    (digitsBehind? mark width (mark ++ hexText width value)).bind hexNumber? =
      some (value % 16 ^ width) := by
  rw [hexText, digitsBehind?_append mark (length_hexDigits ..), Option.bind_some,
    hexNumber?_hexDigits]

/-! What does not fit -/

theorem hexDigits_congr {width value other : Nat}
    (same : value % 16 ^ width = other % 16 ^ width) :
    hexDigits width value = hexDigits width other := by
  induction width generalizing value other with
  | zero => rfl
  | succ width ih =>
    rw [Nat.pow_succ', Nat.mod_mul, Nat.mod_mul] at same
    have last : value % 16 = other % 16 := by omega
    have front : value / 16 % 16 ^ width = other / 16 % 16 ^ width := by omega
    rw [hexDigits, hexDigits, last, ih front]

namespace BinaryFormat

variable {format : BinaryFormat}

/-- Sign, exponent and fraction are all that is read. -/
theorem decode_mod (format : BinaryFormat) (bits : Nat) :
    format.decode (bits % (2 * format.signBit)) = format.decode bits := by
  have sign : bits % (2 * format.signBit) / format.signBit % 2 = bits / format.signBit % 2 := by
    rw [Nat.mul_comm, Nat.mod_mul_right_div_self, Nat.mod_mod]
  have whole : 2 * format.signBit =
      2 ^ format.fractionBits * (2 ^ format.exponentBits * 2) := by
    rw [signBit_eq, Nat.mul_comm, Nat.mul_assoc]
  have field : bits % (2 * format.signBit) / 2 ^ format.fractionBits % 2 ^ format.exponentBits =
      bits / 2 ^ format.fractionBits % 2 ^ format.exponentBits := by
    rw [whole, Nat.mod_mul_right_div_self, Nat.mod_mul_right_mod]
  have rest : bits % (2 * format.signBit) % 2 ^ format.fractionBits =
      bits % 2 ^ format.fractionBits := by
    rw [whole, Nat.mod_mul_right_mod]
  unfold decode
  dsimp only
  rw [sign, field, rest]

/-- A pattern is put together from its sign and its magnitude. -/
theorem signed_fields (format : BinaryFormat) (bits : Nat) :
    format.signed (bits / format.signBit % 2 == 1) (bits % format.signBit) =
      bits % (2 * format.signBit) := by
  rw [Nat.mul_comm, Nat.mod_mul, signed]
  have bit := Nat.mod_lt (bits / format.signBit) (by decide : 0 < 2)
  split
  · rename_i negative
    rw [beq_iff_eq.mp negative, Nat.mul_one, Nat.add_comm]
  · rename_i positive
    have zero : bits / format.signBit % 2 = 0 := by
      rw [beq_iff_eq] at positive
      omega
    rw [zero, Nat.mul_zero, Nat.add_comm]

/-- A number that the format has is rounded to the pattern that stands for it. -/
theorem Shows.round_eq (fraction : 0 < format.fractionBits) {magnitude significand wide : Nat}
    {exponent wideExponent : Int} {sign negative : Bool}
    (shows : format.Shows sign magnitude (.finite negative significand exponent))
    (same : (wide : ℚ) * 2 ^ wideExponent = significand * 2 ^ exponent) :
    format.round negative wide wideExponent = format.signed sign magnitude := by
  obtain ⟨place, rounds, chosen⟩ := exists_rounds_nearest fraction wide wideExponent
  rw [round, chosen]
  cases shows with
  | finite below counts =>
    obtain rfl := rounds.eq_of_value format.strictMono_value (counts.symm.trans same.symm)
    rw [Nat.min_eq_right below.le]

theorem Shows.signed_infinity {sign negative : Bool} {magnitude : Nat}
    (shows : format.Shows sign magnitude (.infinity negative)) :
    format.signed negative format.infinityBits = format.signed sign magnitude := by
  cases shows
  rfl

end BinaryFormat

/-! Singles -/

/-- A single that was widened to a double is read back. -/
theorem narrowed?_widenedSingle {bits : Nat}
    (known : ∀ negative payload, single.decode bits ≠ .nan negative payload) :
    narrowed? (FloatConstant.widenedSingle bits) = some (bits % 2 ^ 32) := by
  have widens := FloatConstant.single_widens known
  have shows := single.shows_decode bits
  have width : 2 * single.signBit = 2 ^ 32 := by decide
  have pattern : (BinaryFormat.double.decode (FloatConstant.widenedSingle bits)).singleBits =
      bits % 2 ^ 32 := by
    rw [← width, ← single.signed_fields bits]
    generalize BinaryFormat.double.decode (FloatConstant.widenedSingle bits) = datum at widens
    cases stands : single.decode bits with
    | finite negative significand exponent =>
      rw [stands] at widens shows
      cases widens with
      | finite same => exact shows.round_eq (by decide) same
    | infinity negative =>
      rw [stands] at widens shows
      cases widens
      exact shows.signed_infinity
    | nan negative payload => exact absurd stands (known negative payload)
  unfold narrowed?
  dsimp only
  rw [pattern, ← width, single.decode_mod, if_pos]
  exact ⟨widens.negative_eq.symm, widens.number?_eq.symm, widens.payload?_eq.symm⟩

/-! Constants -/

namespace FloatConstant

theorem widenedSingle_mod (bits : Nat) : widenedSingle (bits % 2 ^ 32) = widenedSingle bits := by
  have same : single.decode (bits % 2 ^ 32) = single.decode bits := single.decode_mod bits
  rw [widenedSingle, widenedSingle, same]

/-- Bits above the width of the kind are not written. -/
theorem literal_congr {kind : FloatKind} {bits other : BitVec 128}
    (same : other.toNat % 2 ^ kind.bitWidth = bits.toNat % 2 ^ kind.bitWidth) :
    (FloatConstant.mk kind other).literal = (FloatConstant.mk kind bits).literal := by
  cases kind with
  | half => exact congrArg ("0xH" ++ String.ofList ·) (hexDigits_congr same)
  | single =>
    refine congrArg ("0x" ++ hexText 16 ·) ?_
    rw [← widenedSingle_mod, ← widenedSingle_mod bits.toNat]
    exact congrArg widenedSingle same
  | double => exact congrArg ("0x" ++ String.ofList ·) (hexDigits_congr same)
  | x87 => exact congrArg ("0xK" ++ String.ofList ·) (hexDigits_congr same)
  | quad =>
    change other.toNat % 2 ^ 128 = bits.toNat % 2 ^ 128 at same
    rw [BitVec.eq_of_toNat_eq (by omega : other.toNat = bits.toNat)]

theorem length_literal (constant : FloatConstant) :
    constant.literal.length = constant.kind.literalLength := by
  obtain ⟨kind, bits⟩ := constant
  cases kind <;>
    simp [literal, hexText, length_hexDigits, FloatKind.literalLength, ← String.length_toList]

theorem readLiteral?_literal {kind : FloatKind} {bits : BitVec 128}
    (known : kind = .single → ∀ negative payload,
      single.decode bits.toNat ≠ .nan negative payload) :
    readLiteral? kind (FloatConstant.mk kind bits).literal =
      some (bits.toNat % 2 ^ kind.bitWidth) := by
  cases kind with
  | half => exact hexNumber?_behind "0xH" 4 bits.toNat
  | single =>
    have fits := widenedSingle_lt (known rfl)
    have read := hexNumber?_behind "0x" 16 (widenedSingle bits.toNat)
    rw [Nat.mod_eq_of_lt fits] at read
    exact (congrArg (·.bind narrowed?) read).trans (narrowed?_widenedSingle (known rfl))
  | double => exact hexNumber?_behind "0x" 16 bits.toNat
  | x87 => exact hexNumber?_behind "0xK" 20 bits.toNat
  | quad =>
    have halves : (FloatConstant.mk .quad bits).literal = "0xL" ++
        String.ofList (hexDigits 16 bits.toNat ++ hexDigits 16 (bits.toNat / 2 ^ 64)) := by
      rw [String.ofList_append]
      exact String.append_assoc ..
    have counted : (hexDigits 16 bits.toNat ++ hexDigits 16 (bits.toNat / 2 ^ 64)).length = 32 := by
      rw [List.length_append, length_hexDigits, length_hexDigits]
    rw [halves, readLiteral?, digitsBehind?_append _ counted, Option.bind_eq_bind, Option.bind_some,
      List.take_left' (length_hexDigits ..), List.drop_left' (length_hexDigits ..),
      hexNumber?_hexDigits, hexNumber?_hexDigits]
    refine congrArg some ?_
    change bits.toNat / 2 ^ 64 % 2 ^ 64 * 2 ^ 64 + bits.toNat % 2 ^ 64 = bits.toNat % 2 ^ 128
    omega

end FloatConstant

/-- A literal has the length of its kind, shows the bits of the kind and no others, and is read
back to them. A single that is no number may be read back as another one. -/
theorem literal_reads_back (kind : FloatKind) (bits : BitVec 128) :
    let literal := (FloatConstant.mk kind bits).literal
    literal.length = kind.literalLength ∧
      (∀ other : BitVec 128, other.toNat % 2 ^ kind.bitWidth = bits.toNat % 2 ^ kind.bitWidth →
        (FloatConstant.mk kind other).literal = literal) ∧
      ((kind = .single → ∀ negative payload, single.decode bits.toNat ≠ .nan negative payload) →
        readLiteral? kind literal = some (bits.toNat % 2 ^ kind.bitWidth)) :=
  ⟨FloatConstant.length_literal ⟨kind, bits⟩, fun _ => FloatConstant.literal_congr,
    FloatConstant.readLiteral?_literal⟩

/-- The least subnormal single below zero is written as a normal double, with bits above it or
without. -/
theorem literal_reads_back_of_subnormal :
    (FloatConstant.mk .single 0x180000001).literal = "0xB6A0000000000000" ∧
      (FloatConstant.mk .single 0x80000001).literal = "0xB6A0000000000000" ∧
      readLiteral? .single "0xB6A0000000000000" = some 0x80000001 := by
  have written : (FloatConstant.mk .single 0x180000001).literal = "0xB6A0000000000000" := by
    decide +kernel
  obtain ⟨-, same, reads⟩ := literal_reads_back .single 0x180000001
  rw [written] at same reads
  refine ⟨written, same 0x80000001 rfl, reads fun _ negative payload shown => ?_⟩
  have stands : single.decode 0x180000001 = .finite true 1 (-149) := by decide +kernel
  cases stands.symm.trans shown

end IrAssembly
