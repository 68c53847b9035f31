import IrAssembly.FloatingPoint.Kind
import Mathlib.Algebra.Order.Field.Power
import Mathlib.Algebra.Order.Field.Rat
import Mathlib.Order.Monotone.Basic
import Mathlib.Tactic.Linarith
import Mathlib.Tactic.NormNum
import Mathlib.Tactic.Positivity
import Mathlib.Tactic.Ring

/-! What patterns stand for. A pattern is a sign and a magnitude. Up to the pattern of infinity the
magnitudes are numbers in ascending order; those above it are no numbers. -/

namespace IrAssembly

/-- The number that a sign multiplies by. -/
def signNumber (negative : Bool) : ℚ := if negative then -1 else 1

theorem abs_signNumber (negative : Bool) : |signNumber negative| = 1 := by
  cases negative <;> simp [signNumber]

theorem signNumber_ne_zero (negative : Bool) : signNumber negative ≠ 0 := by
  cases negative <;> simp [signNumber]

namespace FloatDatum

def negative : FloatDatum → Bool
  | finite negative _ _ | infinity negative | nan negative _ => negative

/-- The number that a datum stands for. -/
def number? : FloatDatum → Option ℚ
  | finite negative significand exponent =>
    some (signNumber negative * (significand * 2 ^ exponent))
  | infinity _ | nan _ _ => none

/-- The payload of a datum that is no number. -/
def payload? : FloatDatum → Option Nat
  | nan _ payload => some payload
  | finite _ _ _ | infinity _ => none

end FloatDatum

namespace BinaryFormat

variable {format : BinaryFormat}

/-- A magnitude in steps of the least number. The exponents go on above the greatest number. -/
def steps (format : BinaryFormat) (magnitude : Nat) : Nat :=
  let doublings := magnitude / 2 ^ format.fractionBits - 1
  (magnitude - doublings * 2 ^ format.fractionBits) * 2 ^ doublings

/-- The number that a magnitude stands for. -/
def value (format : BinaryFormat) (magnitude : Nat) : ℚ :=
  format.steps magnitude * 2 ^ format.leastExponent

/-- Steps that were doubled are counted as the format counts them, up to the first number that asks
for another doubling. -/
theorem steps_doubled {doublings count : Nat}
    (normal : doublings = 0 ∨ 2 ^ format.fractionBits ≤ count)
    (bounded : count ≤ 2 * 2 ^ format.fractionBits) :
    format.steps (doublings * 2 ^ format.fractionBits + count) = count * 2 ^ doublings := by
  have positive : 0 < 2 ^ format.fractionBits := Nat.two_pow_pos _
  unfold steps
  dsimp only
  generalize 2 ^ format.fractionBits = whole at *
  have field : (doublings * whole + count) / whole = doublings + count / whole := by
    rw [Nat.add_comm, Nat.add_mul_div_right _ _ positive, Nat.add_comm]
  rw [field]
  rcases Nat.lt_or_ge count whole with subnormal | normal'
  · obtain rfl : doublings = 0 := by omega
    rw [Nat.div_eq_of_lt subnormal]
    simp
  · obtain ⟨fraction, rfl⟩ := Nat.exists_eq_add_of_le normal'
    rw [Nat.add_div_left _ positive]
    rcases Nat.lt_or_ge fraction whole with below | above
    · rw [Nat.div_eq_of_lt below, Nat.add_sub_cancel, Nat.add_sub_cancel_left]
    · obtain rfl : fraction = whole := by omega
      rw [Nat.div_self positive]
      change (doublings * fraction + (fraction + fraction) - (doublings + 1) * fraction) *
        2 ^ (doublings + 1) = _
      rw [Nat.succ_mul, ← Nat.add_assoc, Nat.add_sub_cancel_left, Nat.pow_succ]
      ring

/-- Every magnitude counts steps that were doubled. -/
theorem exists_doubled (format : BinaryFormat) (magnitude : Nat) :
    ∃ doublings count, magnitude = doublings * 2 ^ format.fractionBits + count ∧
      (doublings = 0 ∨ 2 ^ format.fractionBits ≤ count) ∧
      count < 2 * 2 ^ format.fractionBits := by
  have positive : 0 < 2 ^ format.fractionBits := Nat.two_pow_pos _
  generalize 2 ^ format.fractionBits = whole at *
  have parts := Nat.div_add_mod' magnitude whole
  have below := Nat.mod_lt magnitude positive
  cases field : magnitude / whole with
  | zero =>
    rw [field] at parts
    exact ⟨0, magnitude, by simp, .inl rfl, by omega⟩
  | succ doublings =>
    rw [field, Nat.succ_mul] at parts
    exact ⟨doublings, whole + magnitude % whole, by omega, .inr (Nat.le_add_right ..), by omega⟩

theorem steps_lt_succ (format : BinaryFormat) (magnitude : Nat) :
    format.steps magnitude < format.steps (magnitude + 1) := by
  obtain ⟨doublings, count, rfl, normal, bounded⟩ := format.exists_doubled magnitude
  rw [steps_doubled normal (by omega), Nat.add_assoc, steps_doubled (by omega) (by omega)]
  exact Nat.mul_lt_mul_of_pos_right (Nat.lt_succ_self count) (Nat.two_pow_pos _)

theorem strictMono_value (format : BinaryFormat) : StrictMono format.value := by
  refine strictMono_nat_of_lt_succ fun magnitude => ?_
  have less : (format.steps magnitude : ℚ) < format.steps (magnitude + 1) :=
    Nat.cast_lt.mpr (format.steps_lt_succ magnitude)
  exact mul_lt_mul_of_pos_right less (by positivity)

theorem value_doubled {doublings count : Nat}
    (normal : doublings = 0 ∨ 2 ^ format.fractionBits ≤ count)
    (bounded : count ≤ 2 * 2 ^ format.fractionBits) :
    format.value (doublings * 2 ^ format.fractionBits + count) =
      count * 2 ^ (format.leastExponent + doublings) := by
  rw [value, steps_doubled normal bounded, zpow_add₀ two_ne_zero, zpow_natCast]
  push_cast
  ring

/-- The magnitude of infinity counts as the next number behind the greatest one. -/
theorem value_infinityBits (format : BinaryFormat) (filled : 0 < format.topExponent) :
    format.value format.infinityBits =
      2 ^ (format.fractionBits + (format.leastExponent + (format.topExponent - 1 : Nat))) := by
  have parts : format.infinityBits =
      (format.topExponent - 1) * 2 ^ format.fractionBits + 2 ^ format.fractionBits := by
    rw [← Nat.succ_mul, Nat.succ_eq_add_one, Nat.sub_add_cancel filled, infinityBits]
  rw [parts, value_doubled (.inr (Nat.le_refl _)) (by omega), Nat.cast_pow, Nat.cast_ofNat,
    ← zpow_natCast, ← zpow_add₀ two_ne_zero]

/-! Patterns -/

/-- What a sign and a magnitude stand for: a number below the magnitude of infinity, whose
significand and exponent are bounded by the format, infinity, and no number above. -/
inductive Shows (format : BinaryFormat) (negative : Bool) : Nat → FloatDatum → Prop where
  | finite {magnitude significand : Nat} {exponent : Int} (below : magnitude < format.infinityBits)
      (counts : (significand : ℚ) * 2 ^ exponent = format.value magnitude)
      (short : significand < 2 * 2 ^ format.fractionBits) (least : format.leastExponent ≤ exponent)
      (greatest : exponent ≤ format.leastExponent + (format.topExponent - 2 : Nat)) :
      Shows format negative magnitude (.finite negative significand exponent)
  | infinity : Shows format negative format.infinityBits (.infinity negative)
  | nan {payload : Nat} (some : 0 < payload) (short : payload < 2 ^ format.fractionBits) :
      Shows format negative (format.infinityBits + payload) (.nan negative payload)

theorem signBit_eq (format : BinaryFormat) :
    format.signBit = 2 ^ format.fractionBits * 2 ^ format.exponentBits := by
  rw [signBit, Nat.add_comm, Nat.pow_add]

theorem shows_number {doublings count : Nat} {negative : Bool}
    (normal : doublings = 0 ∨ 2 ^ format.fractionBits ≤ count)
    (short : count < 2 * 2 ^ format.fractionBits)
    (below : doublings * 2 ^ format.fractionBits + count < format.infinityBits) :
    format.Shows negative (doublings * 2 ^ format.fractionBits + count)
      (.finite negative count (format.leastExponent + doublings)) := by
  refine .finite below ?_ short (by omega) ?_
  · rw [value_doubled normal short.le]
  · have greatest : doublings ≤ format.topExponent - 2 := by
      rcases normal with rfl | normal
      · exact Nat.zero_le _
      · have : (doublings + 1) * 2 ^ format.fractionBits <
            format.topExponent * 2 ^ format.fractionBits := by
          rw [Nat.succ_mul]
          exact Nat.lt_of_le_of_lt (Nat.add_le_add_left normal _) below
        have := Nat.lt_of_mul_lt_mul_right this
        omega
    omega

/-- A magnitude is told by its exponent field and its fraction. -/
theorem shows_fields {exponent fraction : Nat} (negative : Bool)
    (bounded : exponent ≤ format.topExponent) (short : fraction < 2 ^ format.fractionBits) :
    format.Shows negative (exponent * 2 ^ format.fractionBits + fraction)
      (if exponent = format.topExponent then
        if fraction = 0 then .infinity negative else .nan negative fraction
      else if exponent = 0 then .finite negative fraction format.leastExponent
      else .finite negative (2 ^ format.fractionBits + fraction)
        (format.leastExponent + (exponent - 1))) := by
  split
  · rename_i top
    subst top
    split
    · rename_i none
      subst none
      exact .infinity
    · rename_i some
      exact .nan (Nat.pos_of_ne_zero some) short
  · rename_i lower
    have below : exponent * 2 ^ format.fractionBits + fraction < format.infinityBits := by
      have : (exponent + 1) * 2 ^ format.fractionBits ≤ format.infinityBits :=
        Nat.mul_le_mul_right _ (by omega)
      rw [Nat.succ_mul] at this
      omega
    cases exponent with
    | zero => simpa using shows_number (.inl rfl) (by omega) below
    | succ doublings =>
      rw [Nat.succ_mul, Nat.add_assoc] at below ⊢
      simpa using shows_number (.inr (Nat.le_add_right ..)) (by omega) below

/-- What a pattern stands for is told by its sign and its magnitude. -/
theorem shows_decode (format : BinaryFormat) (bits : Nat) :
    format.Shows (bits / format.signBit % 2 == 1) (bits % format.signBit) (format.decode bits) := by
  have field : bits / 2 ^ format.fractionBits % 2 ^ format.exponentBits =
      bits % format.signBit / 2 ^ format.fractionBits := by
    rw [signBit_eq, Nat.mod_mul_right_div_self]
  have rest : bits % 2 ^ format.fractionBits =
      bits % format.signBit % 2 ^ format.fractionBits := by
    rw [signBit_eq, Nat.mod_mul_right_mod]
  have bounded : bits % format.signBit / 2 ^ format.fractionBits ≤ format.topExponent := by
    rw [← field, topExponent]
    exact Nat.le_sub_one_of_lt (Nat.mod_lt _ (Nat.two_pow_pos _))
  unfold decode
  dsimp only
  rw [field, rest]
  have shows := shows_fields (bits / format.signBit % 2 == 1) bounded
    (Nat.mod_lt (bits % format.signBit) (Nat.two_pow_pos format.fractionBits))
  rwa [Nat.div_add_mod'] at shows

namespace Shows

variable {negative : Bool} {magnitude : Nat} {datum : FloatDatum}

theorem negative_eq (shows : format.Shows negative magnitude datum) :
    datum.negative = negative := by
  cases shows <;> rfl

theorem number?_eq (shows : format.Shows negative magnitude datum) :
    datum.number? = if magnitude < format.infinityBits
      then some (signNumber negative * format.value magnitude) else none := by
  cases shows with
  | finite below counts => rw [FloatDatum.number?, if_pos below, counts]
  | infinity => rw [if_neg (Nat.lt_irrefl _)]; rfl
  | nan => rw [if_neg (Nat.not_lt.mpr (Nat.le_add_right ..))]; rfl

theorem payload?_eq (shows : format.Shows negative magnitude datum) :
    datum.payload? = if format.infinityBits < magnitude
      then some (magnitude - format.infinityBits) else none := by
  cases shows with
  | finite below => rw [if_neg below.not_gt]; rfl
  | infinity => rw [if_neg (Nat.lt_irrefl _)]; rfl
  | nan some =>
    rw [if_pos (Nat.lt_add_of_pos_right some), Nat.add_sub_cancel_left]
    rfl

theorem finite_bounds {sign : Bool} {significand : Nat} {exponent : Int}
    (shows : format.Shows negative magnitude (.finite sign significand exponent)) :
    significand < 2 * 2 ^ format.fractionBits ∧ format.leastExponent ≤ exponent ∧
      exponent ≤ format.leastExponent + (format.topExponent - 2 : Nat) := by
  cases shows with
  | finite _ _ short least greatest => exact ⟨short, least, greatest⟩

theorem finite_lt {sign : Bool} {significand : Nat} {exponent : Int}
    (shows : format.Shows negative magnitude (.finite sign significand exponent)) :
    (significand : ℚ) * 2 ^ exponent < format.value format.infinityBits := by
  cases shows with
  | finite below counts =>
    rw [counts]
    exact format.strictMono_value below

theorem payload_bounds {sign : Bool} {payload : Nat}
    (shows : format.Shows negative magnitude (.nan sign payload)) :
    0 < payload ∧ payload < 2 ^ format.fractionBits := by
  cases shows with
  | nan some short => exact ⟨some, short⟩

theorem exists_finite (shows : format.Shows negative magnitude datum)
    (below : magnitude < format.infinityBits) : ∃ significand exponent,
      datum = .finite negative significand exponent ∧
        (significand : ℚ) * 2 ^ exponent = format.value magnitude := by
  cases shows with
  | finite _ counts => exact ⟨_, _, rfl, counts⟩
  | infinity => exact absurd below (Nat.lt_irrefl _)
  | nan => exact absurd below (Nat.not_lt.mpr (Nat.le_add_right ..))

theorem eq_infinity (shows : format.Shows negative magnitude datum)
    (same : magnitude = format.infinityBits) : datum = .infinity negative := by
  cases shows with
  | finite below => exact absurd same below.ne
  | infinity => rfl
  | nan some => omega

theorem eq_nan (shows : format.Shows negative magnitude datum)
    (above : format.infinityBits < magnitude) :
    datum = .nan negative (magnitude - format.infinityBits) := by
  cases shows with
  | finite below => exact absurd above below.not_gt
  | infinity => exact absurd above (Nat.lt_irrefl _)
  | nan => rw [Nat.add_sub_cancel_left]

/-- Sign, number and payload tell data apart. -/
theorem magnitude_unique (shows : format.Shows negative magnitude datum) {other : FloatDatum}
    {sign : Bool} {rest : Nat} (too : format.Shows sign rest other)
    (signs : datum.negative = other.negative) (numbers : datum.number? = other.number?)
    (payloads : datum.payload? = other.payload?) : negative = sign ∧ magnitude = rest := by
  rw [shows.negative_eq, too.negative_eq] at signs
  rw [shows.number?_eq, too.number?_eq, signs] at numbers
  rw [shows.payload?_eq, too.payload?_eq] at payloads
  refine ⟨signs, ?_⟩
  by_cases below : magnitude < format.infinityBits
  · rw [if_pos below] at numbers
    split at numbers
    · have same := mul_left_cancel₀ (signNumber_ne_zero sign) (Option.some.inj numbers)
      exact format.strictMono_value.injective same
    · cases numbers
  · have reached : ¬ rest < format.infinityBits := by
      intro lower
      rw [if_neg below, if_pos lower] at numbers
      cases numbers
    split at payloads <;> split at payloads
    · have := Option.some.inj payloads
      omega
    · cases payloads
    · cases payloads
    · omega

end Shows

theorem infinityBits_add_lt {payload : Nat} (short : payload < 2 ^ format.fractionBits) :
    format.infinityBits + payload < format.signBit := by
  have : format.infinityBits + 2 ^ format.fractionBits = format.signBit := by
    rw [signBit_eq, infinityBits, ← Nat.succ_mul, Nat.mul_comm, topExponent, Nat.succ_eq_add_one,
      Nat.sub_add_cancel (Nat.two_pow_pos _)]
  omega

theorem infinityBits_lt (format : BinaryFormat) : format.infinityBits < format.signBit :=
  infinityBits_add_lt (Nat.two_pow_pos _)

theorem signed_lt (format : BinaryFormat) {magnitude : Nat} (negative : Bool)
    (bounded : magnitude < format.signBit) :
    format.signed negative magnitude < 2 * format.signBit := by
  unfold signed
  split <;> omega

theorem shows_signed {magnitude : Nat} (negative : Bool) (bounded : magnitude < format.signBit) :
    format.Shows negative magnitude (format.decode (format.signed negative magnitude)) := by
  have shows := format.shows_decode (format.signed negative magnitude)
  have positive : 0 < format.signBit := Nat.zero_lt_of_lt bounded
  have sign : (format.signed negative magnitude / format.signBit % 2 == 1) = negative := by
    cases negative <;> simp [signed, Nat.div_eq_of_lt bounded, Nat.add_div_left, positive]
  have rest : format.signed negative magnitude % format.signBit = magnitude := by
    cases negative <;> simp [signed, Nat.mod_eq_of_lt bounded]
  rwa [sign, rest] at shows

theorem decode_infinity (negative : Bool) :
    format.decode (format.signed negative format.infinityBits) = .infinity negative :=
  (shows_signed negative format.infinityBits_lt).eq_infinity rfl

theorem decode_nan (negative : Bool) {payload : Nat} (some : 0 < payload)
    (short : payload < 2 ^ format.fractionBits) :
    format.decode (format.signed negative (format.infinityBits + payload)) =
      .nan negative payload := by
  have shows := shows_signed negative (infinityBits_add_lt short)
  rw [shows.eq_nan (Nat.lt_add_of_pos_right some), Nat.add_sub_cancel_left]

/-- Patterns are told apart by what they stand for. -/
theorem eq_of_decode {bits other : Nat} (bounded : bits < 2 * format.signBit)
    (otherBounded : other < 2 * format.signBit)
    (signs : (format.decode bits).negative = (format.decode other).negative)
    (numbers : (format.decode bits).number? = (format.decode other).number?)
    (payloads : (format.decode bits).payload? = (format.decode other).payload?) : bits = other := by
  obtain ⟨sign, rest⟩ := (format.shows_decode bits).magnitude_unique (format.shows_decode other)
    signs numbers payloads
  have lower : bits / format.signBit < 2 := Nat.div_lt_of_lt_mul (by omega)
  have otherLower : other / format.signBit < 2 := Nat.div_lt_of_lt_mul (by omega)
  have quotient : bits / format.signBit = other / format.signBit := by
    rw [Nat.mod_eq_of_lt lower, Nat.mod_eq_of_lt otherLower, Bool.eq_iff_iff, beq_iff_eq,
      beq_iff_eq] at sign
    generalize bits / format.signBit = high, other / format.signBit = otherHigh at *
    omega
  rw [← Nat.div_add_mod' bits format.signBit, quotient, rest, Nat.div_add_mod']

end BinaryFormat

end IrAssembly
