import IrAssembly.Builder.Literal
import IrAssembly.Proofs.Constant.Wrapping

/-! Literals that become constants of integer types. They wrap to the width of the type, and an
integer becomes the same whether it was given as a word or as a number of any length. -/

namespace IrAssembly.Literal

variable {literal : Literal} {number : Int} {width : UInt32}

/-- Integers that fit a word become constants of their low bits. -/
theorem toConstant_int (stands : literal.integer? = some number) (narrow : width.toNat ≤ 64) :
    literal.toConstant (.int width) = .ok (.integer (.int width) (lowBits number)) := by
  have small : (Ty.int width).isBigInteger = false := by
    simpa [Ty.isBigInteger, UInt32.le_iff_toNat_le] using narrow
  simp [toConstant, stands, small]

/-- Wider integers become constants of all their bits. -/
theorem toConstant_bigInt (stands : literal.integer? = some number) (wide : 64 < width.toNat) :
    literal.toConstant (.int width) = .ok (.bigInt (.int width) number) := by
  have big : (Ty.int width).isBigInteger = true := by
    simpa [Ty.isBigInteger, UInt32.lt_iff_toNat_lt] using wide
  simp [toConstant, stands, big]

/-- The low bits of an integer, normalized to a width, are the integer wrapped to the width. -/
theorem wraps_normalized (positive : 0 < width.toNat) (narrow : width.toNat ≤ 64) (number : Int) :
    Wraps width.toNat number (signNormalize (lowBits number) width).toInt := by
  refine (wraps_signNormalize positive narrow (lowBits number)).of_modEq ?_
  have divides : (2 ^ width.toNat : Int) ∣ 2 ^ 64 := pow_dvd_pow 2 narrow
  exact (wraps_lowBits number).congruent.of_dvd divides

/-- A word becomes what the integer that it stands for becomes, in every type. -/
theorem toConstant_bigInt_eq (small : Int64) (ty : Ty) :
    (bigInt small.toInt).toConstant ty = (int small).toConstant ty := by
  have low : lowBits small.toInt = small := Int64.ofInt_toInt small
  cases ty <;> simp [toConstant, integer?, double, text, low]

/-- An integer literal of an integer type of at most 64 bits becomes the one number of the signed
range of the type that is congruent to it, and in a wider type it remains what it is. A word becomes
what the same integer of any length becomes, in every type, errors included. The low bits that the
integer is cut to are those of its bytes in two's complement, and a word is normalized by shifts. -/
theorem toConstant_twosComplement :
    (∀ (literal : Literal) (number : Int), literal.integer? = some number → ∀ width : UInt32,
      (1 ≤ width.toNat → width.toNat ≤ 64 → ∃ wrapped : Int64,
        literal.toConstant (.int width) = .ok (.int (.int width) wrapped) ∧
        ∀ other, Wraps width.toNat number other ↔ other = wrapped.toInt) ∧
      (64 < width.toNat → literal.toConstant (.int width) = .ok (.bigInt (.int width) number))) ∧
    (∀ (small : Int64) (ty : Ty), (bigInt small.toInt).toConstant ty = (int small).toConstant ty) ∧
    (∀ bytes, wordOfBytes bytes = lowBits (signedBytesNumber bytes)) ∧
    ∀ width : UInt32, 1 ≤ width.toNat → width.toNat < 64 → ∀ value : Int64,
      signNormalize value width =
        (value <<< Int64.ofNat (64 - width.toNat)) >>> Int64.ofNat (64 - width.toNat) := by
  refine ⟨fun literal number stands width => ⟨fun positive narrow => ?_, ?_⟩, ?_, ?_, ?_⟩
  · refine ⟨_, toConstant_int stands narrow, fun other => ?_⟩
    have wraps := wraps_normalized positive narrow number
    rw [wraps_iff positive] at wraps ⊢
    rw [wraps, eq_comm]
    rfl
  · exact toConstant_bigInt stands
  · exact toConstant_bigInt_eq
  · exact wordOfBytes_eq_lowBits
  · exact fun width positive narrow => signNormalize_eq_shifted positive narrow

/-- An integer of nine bytes is cut to its low one. -/
theorem toConstant_of_nine_bytes :
    (bigInt (-1180591620717411303553)).integer? = some (-1180591620717411303553) ∧
    1 ≤ (8 : UInt32).toNat ∧ (8 : UInt32).toNat ≤ 64 ∧
    (bigInt (-1180591620717411303553)).toConstant (.int 8) = .ok (.int (.int 8) 127) ∧
    wordOfBytes [0x7f, 0xff, 0xff, 0xff, 0xff, 0xff, 0xff, 0xff, 0xbf] =
      lowBits (-1180591620717411303553) := by
  refine ⟨rfl, by decide, by decide, ?_, ?_⟩
  · obtain ⟨wrapped, found, unique⟩ :=
      (toConstant_twosComplement.1 (bigInt (-1180591620717411303553)) _ rfl 8).1
        (by decide) (by decide)
    have same : wrapped.toInt = (127 : Int64).toInt :=
      ((unique 127).mp ⟨by decide, by decide, by decide⟩).symm
    rw [found, Int64.toInt_inj.mp same]
  · exact toConstant_twosComplement.2.2.1 _

end IrAssembly.Literal
