import IrAssembly.Constant
import Mathlib.Data.Int.ModEq
import Mathlib.Tactic.Linarith
import Mathlib.Tactic.Ring

/-! Integers wrapped to a width. What wrapping gives is the one number of the signed range that is
congruent to the integer, and it is what shifts of a word and bytes in two's complement come to. -/

namespace IrAssembly

/-- A signed integer of a width can be the number. -/
def InSignedRange (width : Nat) (value : Int) : Prop :=
  -2 ^ (width - 1) ≤ value ∧ value < 2 ^ (width - 1)

instance (width : Nat) (value : Int) : Decidable (InSignedRange width value) :=
  inferInstanceAs (Decidable (_ ∧ _))

/-- The number of the signed range of a width that is congruent to a given number. -/
structure Wraps (width : Nat) (value wrapped : Int) : Prop where
  least : -2 ^ (width - 1) ≤ wrapped
  greatest : wrapped < 2 ^ (width - 1)
  congruent : wrapped ≡ value [ZMOD 2 ^ width]

theorem two_pow_eq_double {width : Nat} (positive : 0 < width) :
    2 ^ width = 2 * 2 ^ (width - 1) := by
  rw [← Nat.pow_succ', Nat.succ_eq_add_one, Nat.sub_add_cancel positive]

/-- The signed range has one number of each class. -/
theorem wraps_iff {width : Nat} (positive : 0 < width) {value wrapped : Int} :
    Wraps width value wrapped ↔ value.bmod (2 ^ width) = wrapped := by
  have half := two_pow_eq_double positive
  have cast : ((2 ^ (width - 1) : Nat) : Int) = 2 ^ (width - 1) := by push_cast; rfl
  have whole : ((2 ^ width : Nat) : Int) = 2 ^ width := by push_cast; rfl
  rw [Int.bmod_eq_iff (Nat.two_pow_pos width)]
  constructor
  · rintro ⟨least, greatest, congruent⟩
    exact ⟨by omega, by omega, whole ▸ congruent.symm.dvd⟩
  · rintro ⟨least, greatest, divides⟩
    exact ⟨by omega, by omega, (Int.modEq_iff_dvd.mpr (whole ▸ divides)).symm⟩

theorem wraps_bmod {width : Nat} (positive : 0 < width) (value : Int) :
    Wraps width value (value.bmod (2 ^ width)) :=
  (wraps_iff positive).mpr rfl

/-- Congruent numbers wrap to the same. -/
theorem Wraps.of_modEq {width : Nat} {value other wrapped : Int} (wraps : Wraps width value wrapped)
    (congruent : value ≡ other [ZMOD 2 ^ width]) : Wraps width other wrapped :=
  ⟨wraps.least, wraps.greatest, wraps.congruent.trans congruent⟩

theorem Wraps.one_bit {value wrapped : Int} (wraps : Wraps 1 value wrapped) :
    wrapped = -1 ∨ wrapped = 0 := by
  have least : -1 ≤ wrapped := wraps.least
  have greatest : wrapped < 1 := wraps.greatest
  omega

/-! Words -/

/-- A signed number of at most 64 bits fits. -/
theorem toInt_ofInt_bmod {width : Nat} (value : Int) (positive : 0 < width) (le : width ≤ 64) :
    (Int64.ofInt (value.bmod (2 ^ width))).toInt = value.bmod (2 ^ width) := by
  have half := two_pow_eq_double positive
  have bound : 2 ^ (width - 1) ≤ 2 ^ 63 := Nat.pow_le_pow_right Nat.zero_lt_two (by omega)
  have low := Int.le_bmod (x := value) (Nat.two_pow_pos width)
  have high := Int.bmod_lt (x := value) (Nat.two_pow_pos width)
  exact Int64.toInt_ofInt_of_le (by omega) (by omega)

theorem wraps_lowBits (value : Int) : Wraps 64 value (lowBits value).toInt := by
  rw [lowBits, Int64.toInt_ofInt]
  exact wraps_bmod (by decide) value

theorem wraps_signNormalize {width : UInt32} (positive : 0 < width.toNat)
    (narrow : width.toNat ≤ 64) (value : Int64) :
    Wraps width.toNat value.toInt (signNormalize value width).toInt := by
  have some : width ≠ 0 := by
    rintro rfl
    exact absurd positive (Nat.lt_irrefl _)
  by_cases full : 64 ≤ width
  · have whole : width.toNat = 64 := Nat.le_antisymm narrow full
    rw [signNormalize, if_pos (.inr full), whole]
    exact ⟨value.le_toInt, value.toInt_lt, Int.ModEq.refl _⟩
  · rw [signNormalize, if_neg (not_or.mpr ⟨some, full⟩), toInt_ofInt_bmod _ positive narrow]
    exact wraps_bmod positive _

/-- A number of the signed range is left as it is. -/
theorem signNormalize_of_inSignedRange {width : UInt32} {value : Int64}
    (positive : 0 < width.toNat) (inRange : InSignedRange width.toNat value.toInt) :
    signNormalize value width = value := by
  rw [signNormalize]
  split
  · rfl
  · rw [(wraps_iff positive).mp ⟨inRange.1, inRange.2, Int.ModEq.refl _⟩, Int64.ofInt_toInt]

theorem toNat_smod_shift : ∀ shift < 64,
    ((Int64.ofNat shift).toBitVec.smod 64).toNat = shift := by
  decide

/-- Shifting up loses the high bits; shifting back down divides. -/
theorem toInt_shifted {shift : Nat} (short : shift < 64) (value : Int64) :
    ((value <<< Int64.ofNat shift) >>> Int64.ofNat shift).toInt =
      (value.toInt * 2 ^ shift).bmod (2 ^ 64) / 2 ^ shift := by
  have up : (value <<< Int64.ofNat shift).toBitVec = value.toBitVec <<< shift := by
    change value.toBitVec <<< ((Int64.ofNat shift).toBitVec.smod 64).toNat = _
    rw [toNat_smod_shift shift short]
  have down : ((value <<< Int64.ofNat shift) >>> Int64.ofNat shift).toBitVec =
      (value.toBitVec <<< shift).sshiftRight shift := by
    change (value <<< Int64.ofNat shift).toBitVec.sshiftRight
      ((Int64.ofNat shift).toBitVec.smod 64).toNat = _
    rw [toNat_smod_shift shift short, up]
  have wrapped : (value.toBitVec <<< shift).toInt = (value.toInt * 2 ^ shift).bmod (2 ^ 64) := by
    rw [BitVec.toInt_shiftLeft, Nat.shiftLeft_eq, ← Int64.toInt_toBitVec,
      BitVec.toInt_eq_toNat_bmod, Int.bmod_mul_bmod]
    push_cast
    rfl
  rw [← Int64.toInt_toBitVec, down, BitVec.toInt_sshiftRight, wrapped, Int.shiftRight_eq_div_pow]
  push_cast
  rfl

/-- A narrow number that is moved to the end of its word and back gets its sign into all bits
above: the shifts of a word give what it is normalized to. -/
theorem signNormalize_eq_shifted {width : UInt32} (positive : 0 < width.toNat)
    (narrow : width.toNat < 64) (value : Int64) : signNormalize value width =
      (value <<< Int64.ofNat (64 - width.toNat)) >>> Int64.ofNat (64 - width.toNat) := by
  apply Int64.toInt_inj.mp
  have normalized := (wraps_iff positive).mp (wraps_signNormalize positive narrow.le value)
  rw [← normalized, toInt_shifted (by omega)]
  generalize width.toNat = bits at *
  have even : 2 ∣ 2 ^ bits := dvd_pow_self 2 positive.ne'
  have moved := Int.mod_bmod_mul_of_pos value.toInt (2 ^ bits)
    (Nat.two_pow_pos (64 - bits)) even
  rw [← Nat.pow_add, Nat.sub_add_cancel narrow.le, Nat.cast_pow, Nat.cast_ofNat] at moved
  rw [mul_comm, moved, Int.mul_ediv_cancel_left _ (by positivity)]

/-! Bytes -/

/-- The number that bytes write, the lowest byte first. -/
def bytesNumber : List UInt8 → Nat
  | [] => 0
  | byte :: bytes => byte.toNat + 256 * bytesNumber bytes

/-- The last byte has the sign bit. -/
def hasSign (bytes : List UInt8) : Bool := bytes.getLast?.any (0x80 ≤ ·)

/-- The number that bytes write in two's complement. -/
def signedBytesNumber (bytes : List UInt8) : Int :=
  bytesNumber bytes - if hasSign bytes then 256 ^ bytes.length else 0

/-- The word of the lowest eight bytes of a number in two's complement; where it has fewer, its sign
fills up the others. -/
def wordOfBytes (bytes : List UInt8) : Int64 :=
  let fill : UInt8 := if hasSign bytes then 0xff else 0
  .ofNat (bytesNumber ((bytes ++ List.replicate 8 fill).take 8))

theorem bytesNumber_append (low high : List UInt8) :
    bytesNumber (low ++ high) = bytesNumber low + 256 ^ low.length * bytesNumber high := by
  induction low with
  | nil => simp [bytesNumber]
  | cons byte low ih =>
    rw [List.cons_append, bytesNumber, bytesNumber, ih, List.length_cons, Nat.pow_succ]
    ring

theorem bytesNumber_take (count : Nat) (bytes : List UInt8) (enough : count ≤ bytes.length) :
    (bytesNumber (bytes.take count) : Int) ≡ bytesNumber bytes [ZMOD 256 ^ count] := by
  have parts := bytesNumber_append (bytes.take count) (bytes.drop count)
  rw [List.take_append_drop, List.length_take_of_le enough] at parts
  rw [parts]
  push_cast
  exact Int.modEq_add_fac_self.symm

/-- Bytes that repeat the sign take it away from what the word wraps to. -/
theorem bytesNumber_signed (bytes : List UInt8) :
    (bytesNumber (bytes ++ List.replicate 8 (if hasSign bytes then 0xff else 0)) : Int) ≡
      signedBytesNumber bytes [ZMOD 256 ^ 8] := by
  rw [bytesNumber_append, signedBytesNumber]
  split
  · have full : bytesNumber (List.replicate 8 0xff) = 256 ^ 8 - 1 := by decide
    rw [full, Int.modEq_iff_dvd]
    refine ⟨-256 ^ bytes.length, ?_⟩
    push_cast
    ring
  · have empty : bytesNumber (List.replicate 8 0) = 0 := by decide
    rw [empty, Nat.mul_zero, Nat.add_zero, sub_zero]

/-- The low 64 bits of a number are taken from its bytes in two's complement, however many it is
written in. -/
theorem wordOfBytes_eq_lowBits (bytes : List UInt8) :
    wordOfBytes bytes = lowBits (signedBytesNumber bytes) := by
  have congruent := (bytesNumber_take 8 _ (by simp)).trans (bytesNumber_signed bytes)
  have taken := (wraps_bmod (by decide : 0 < 64) _).of_modEq congruent
  apply Int64.toInt_inj.mp
  rw [wordOfBytes, lowBits, Int64.toInt_ofInt, Int64.toInt_ofNat']
  exact ((wraps_iff (by decide)).mp taken).symm

end IrAssembly
