import IrAssembly.Proofs.FloatingPoint.Magnitude

/-! Rounding to the nearest magnitude. A number between two neighbouring magnitudes goes to the
nearer one, and to the even one if both are equally near. -/

namespace IrAssembly

/-- Of two neighbouring values around a number, the place of the one that is nearer, or of the one
at the even place if they are equally near. -/
inductive Rounds (value : Nat → ℚ) (number : ℚ) : Nat → Prop where
  | down {low : Nat} (above : value low ≤ number) (below : number < value (low + 1))
      (nearer : 2 * number < value low + value (low + 1) ∨
        2 * number = value low + value (low + 1) ∧ low % 2 = 0) : Rounds value number low
  | up {low : Nat} (above : value low ≤ number) (below : number < value (low + 1))
      (nearer : value low + value (low + 1) < 2 * number ∨
        2 * number = value low + value (low + 1) ∧ low % 2 = 1) : Rounds value number (low + 1)

namespace Rounds

variable {value other : Nat → ℚ} {number : ℚ} {place offset : Nat}

theorem of_eq (higher : value place < value (place + 1)) (exact : value place = number) :
    Rounds value number place :=
  .down exact.le (exact ▸ higher) (.inl (by linarith))

theorem scale {factor : ℚ} (positive : 0 < factor) (rounds : Rounds value number place) :
    Rounds (fun place => value place * factor) (number * factor) place := by
  cases rounds with
  | down above below nearer =>
    refine .down (by gcongr) (by gcongr) ?_
    rw [← add_mul, ← mul_assoc, mul_lt_mul_iff_left₀ positive, mul_left_inj' positive.ne']
    exact nearer
  | up above below nearer =>
    refine .up (by gcongr) (by gcongr) ?_
    rw [← add_mul, ← mul_assoc, mul_lt_mul_iff_left₀ positive, mul_left_inj' positive.ne']
    exact nearer

/-- The values around the number are found at other places, an even number of places further. -/
theorem shift (rounds : Rounds value number place) (even : offset % 2 = 0)
    (agree : ∀ low, value low ≤ number → number < value (low + 1) →
      other (offset + low) = value low ∧ other (offset + (low + 1)) = value (low + 1)) :
    Rounds other number (offset + place) := by
  cases rounds with
  | @down low above below nearer =>
    obtain ⟨lower, upper⟩ := agree _ above below
    refine .down (lower ▸ above) ?_ ?_
    · rwa [Nat.add_assoc, upper]
    · rw [Nat.add_assoc, lower, upper]
      exact nearer.imp_right fun tie => ⟨tie.1, by omega⟩
  | @up low above below nearer =>
    obtain ⟨lower, upper⟩ := agree _ above below
    rw [← Nat.add_assoc]
    refine .up (lower ▸ above) ?_ ?_
    · rwa [Nat.add_assoc, upper]
    · rw [Nat.add_assoc, lower, upper]
      exact nearer.imp_right fun tie => ⟨tie.1, by omega⟩

section Ascending

variable (mono : StrictMono value)
include mono

/-- No other value is nearer, and where another one is as near the place is even. -/
theorem nearest (rounds : Rounds value number place) (rival : Nat) :
    |value place - number| ≤ |value rival - number| ∧
      (|value place - number| = |value rival - number| → rival ≠ place → place % 2 = 0) := by
  cases rounds with
  | down above below nearer =>
    rw [abs_of_nonpos (by linarith : value place - number ≤ 0)]
    rcases Nat.lt_trichotomy rival place with lower | rfl | higher
    · have farther : value rival < value place := mono lower
      rw [abs_of_neg (by linarith)]
      exact ⟨by linarith, fun tie => by linarith⟩
    · exact ⟨neg_le_abs _, fun _ differs => absurd rfl differs⟩
    · have farther : value (place + 1) ≤ value rival := mono.monotone higher
      rw [abs_of_pos (by linarith)]
      rcases nearer with nearer | ⟨middle, even⟩
      · exact ⟨by linarith, fun tie => by linarith⟩
      · exact ⟨by linarith, fun _ _ => even⟩
  | @up low above below nearer =>
    rw [abs_of_pos (by linarith : 0 < value (low + 1) - number)]
    rcases Nat.lt_trichotomy rival (low + 1) with lower | rfl | higher
    · have farther : value rival ≤ value low := mono.monotone (Nat.le_of_lt_succ lower)
      rw [abs_of_nonpos (by linarith)]
      rcases nearer with nearer | ⟨middle, odd⟩
      · exact ⟨by linarith, fun tie => by linarith⟩
      · exact ⟨by linarith, fun _ _ => by omega⟩
    · exact ⟨le_abs_self _, fun _ differs => absurd rfl differs⟩
    · have farther : value (low + 1) < value rival := mono higher
      rw [abs_of_pos (by linarith)]
      exact ⟨by linarith, fun tie => by linarith⟩

theorem eq_of_value (rounds : Rounds value number place) {exact : Nat}
    (same : value exact = number) : place = exact := by
  have near := (rounds.nearest mono exact).1
  rw [same, sub_self, abs_zero, abs_nonpos_iff, sub_eq_zero, ← same] at near
  exact mono.injective near

/-- A place behind an odd one is reached from the middle on. -/
theorem lt_iff (rounds : Rounds value number place) {bound : Nat} (odd : bound % 2 = 1) :
    bound < place ↔ value bound + value (bound + 1) ≤ 2 * number := by
  have step : value bound < value (bound + 1) := mono (Nat.lt_succ_self _)
  cases rounds with
  | down above below nearer =>
    rcases Nat.lt_trichotomy bound place with lower | rfl | higher
    · have reached : value (bound + 1) ≤ value place := mono.monotone lower
      exact iff_of_true lower (by linarith)
    · refine iff_of_false (Nat.lt_irrefl _) ?_
      rcases nearer with nearer | ⟨_, even⟩
      · exact not_le.mpr nearer
      · omega
    · have missed : value (place + 1) ≤ value bound := mono.monotone higher
      exact iff_of_false (Nat.lt_asymm higher) (by linarith)
  | @up low above below nearer =>
    rcases Nat.lt_trichotomy bound low with lower | rfl | higher
    · have reached : value (bound + 1) ≤ value low := mono.monotone lower
      exact iff_of_true (Nat.lt_succ_of_lt lower) (by linarith)
    · refine iff_of_true (Nat.lt_succ_self _) ?_
      rcases nearer with nearer | ⟨middle, _⟩
      · exact nearer.le
      · exact middle.ge
    · have missed : value (low + 1) ≤ value bound := mono.monotone higher
      exact iff_of_false (Nat.not_lt.mpr higher) (by linarith)

end Ascending

end Rounds

/-- A remainder is compared with the half of the divisor. -/
theorem rounds_roundHalfEven (value shift : Nat) :
    Rounds (fun place => (place : ℚ) * 2 ^ shift) value (roundHalfEven value shift) := by
  have power : (2 : ℚ) ^ shift = (2 ^ shift : Nat) := by push_cast; rfl
  have short := Nat.mod_lt value (Nat.two_pow_pos shift)
  have parts := Nat.div_add_mod' value (2 ^ shift)
  unfold roundHalfEven
  dsimp only
  simp only [power]
  generalize 2 ^ shift = whole at *
  generalize value % whole = rest at *
  generalize value / whole = kept at *
  have number : (value : ℚ) = kept * whole + rest := by exact_mod_cast parts.symm
  have above : (kept : ℚ) * whole ≤ value := by
    rw [number]
    exact le_add_of_nonneg_right (Nat.cast_nonneg rest)
  have below : (value : ℚ) < (kept + 1 : Nat) * whole := by
    have short : (rest : ℚ) < whole := Nat.cast_lt.mpr short
    push_cast
    linarith
  split
  · rename_i more
    refine .up above below ?_
    push_cast
    rcases more with more | ⟨tie, odd⟩
    · have more : (whole : ℚ) < 2 * rest := by exact_mod_cast more
      exact .inl (by linarith)
    · have tie : 2 * (rest : ℚ) = whole := by exact_mod_cast tie
      exact .inr ⟨by linarith, odd⟩
  · rename_i fewer
    refine .down above below ?_
    push_cast
    by_cases tie : 2 * rest = whole
    · have even : kept % 2 = 0 := by omega
      have tie : 2 * (rest : ℚ) = whole := by exact_mod_cast tie
      exact .inr ⟨by linarith, even⟩
    · have less : 2 * rest < whole := by omega
      have less : 2 * (rest : ℚ) < whole := by exact_mod_cast less
      exact .inl (by linarith)

theorem rounds_countUnits (significand : Nat) (exponent unit : Int) :
    Rounds (fun place => (place : ℚ) * 2 ^ unit) (significand * 2 ^ exponent)
      (countUnits significand exponent unit) := by
  unfold countUnits
  split
  · rename_i coarse
    have shift : exponent = (exponent - unit).toNat + unit := by omega
    refine .of_eq ?_ ?_
    · have positive : (0 : ℚ) < 2 ^ unit := by positivity
      push_cast
      linarith
    · conv_rhs => rw [shift, zpow_add₀ two_ne_zero, zpow_natCast]
      push_cast
      ring
  · rename_i fine
    have shift : unit = (unit - exponent).toNat + exponent := by omega
    have scaled := (rounds_roundHalfEven significand (unit - exponent).toNat).scale
      (zpow_pos (by norm_num : (0 : ℚ) < 2) exponent)
    have same : (2 : ℚ) ^ unit = 2 ^ (unit - exponent).toNat * 2 ^ exponent := by
      conv_lhs => rw [shift, zpow_add₀ two_ne_zero, zpow_natCast]
    simpa only [same, mul_assoc] using scaled

namespace BinaryFormat

variable {format : BinaryFormat}

/-- The step of a number is the least one, or the number is normal with it. -/
theorem step_spans {significand : Nat} (some : significand ≠ 0) {exponent unit : Int}
    (chosen : unit = max format.leastExponent
      (significand.log2 + exponent - format.fractionBits)) :
    (significand : ℚ) * 2 ^ exponent < (2 * 2 ^ format.fractionBits : Nat) * 2 ^ unit ∧
      (unit = format.leastExponent ∨
        ((2 ^ format.fractionBits : Nat) : ℚ) * 2 ^ unit ≤ significand * 2 ^ exponent) := by
  have positive : (0 : ℚ) < 2 ^ exponent := by positivity
  constructor
  · have upper : (significand : ℚ) < 2 ^ (significand.log2 + 1) := by
      exact_mod_cast Nat.lt_log2_self
    calc (significand : ℚ) * 2 ^ exponent
        < 2 ^ (significand.log2 + 1) * 2 ^ exponent := by gcongr
      _ = 2 ^ ((significand.log2 + 1 : Int) + exponent) := by
          rw [zpow_add₀ two_ne_zero]
          norm_cast
      _ ≤ 2 ^ ((format.fractionBits + 1 : Int) + unit) :=
          zpow_le_zpow_right₀ one_le_two (by omega)
      _ = (2 * 2 ^ format.fractionBits : Nat) * 2 ^ unit := by
          rw [zpow_add₀ two_ne_zero, zpow_add_one₀ two_ne_zero, zpow_natCast]
          push_cast
          ring
  · by_cases least : unit = format.leastExponent
    · exact .inl least
    · right
      have lower : (2 : ℚ) ^ significand.log2 ≤ significand := by
        exact_mod_cast Nat.log2_self_le some
      have chosen : unit = significand.log2 + exponent - format.fractionBits := by omega
      calc ((2 ^ format.fractionBits : Nat) : ℚ) * 2 ^ unit
          = 2 ^ (format.fractionBits + unit) := by
            rw [zpow_add₀ two_ne_zero, zpow_natCast]
            push_cast
            rfl
        _ = 2 ^ significand.log2 * 2 ^ exponent := by
            rw [chosen, ← zpow_natCast, ← zpow_add₀ two_ne_zero]
            congr 1
            omega
        _ ≤ significand * 2 ^ exponent := by gcongr

theorem mul_power_mod_two (fraction : 0 < format.fractionBits) (count : Nat) :
    count * 2 ^ format.fractionBits % 2 = 0 := by
  obtain ⟨bits, same⟩ := Nat.exists_eq_succ_of_ne_zero fraction.ne'
  rw [same, Nat.pow_succ, ← Nat.mul_assoc, Nat.mul_mod_left]

/-- A number is rounded to a magnitude, and to infinity beyond the greatest one. -/
theorem exists_rounds_nearest (fraction : 0 < format.fractionBits) (significand : Nat)
    (exponent : Int) : ∃ place, Rounds format.value (significand * 2 ^ exponent) place ∧
      format.nearest significand exponent = min format.infinityBits place := by
  unfold nearest
  split
  · rename_i zero
    refine ⟨0, .of_eq (format.strictMono_value (Nat.lt_succ_self 0)) ?_, (Nat.min_zero _).symm⟩
    simp [zero, value, steps]
  · rename_i some
    extract_lets unit doublings
    have parts : unit = format.leastExponent + doublings := by omega
    refine ⟨_, (rounds_countUnits significand exponent unit).shift ?_ ?_, rfl⟩
    · exact mul_power_mod_two fraction doublings
    · intro low above below
      obtain ⟨upper, lower⟩ := step_spans some rfl
      have positive : (0 : ℚ) < 2 ^ unit := by positivity
      have short : low < 2 * 2 ^ format.fractionBits :=
        Nat.cast_lt.mp (lt_of_mul_lt_mul_right (above.trans_lt upper) positive.le)
      have normal : doublings = 0 ∨ 2 ^ format.fractionBits ≤ low := by
        refine lower.imp (fun least => by omega) fun lower => ?_
        have := Nat.cast_lt.mp (lt_of_mul_lt_mul_right (lower.trans_lt below) positive.le)
        omega
      rw [value_doubled normal short.le, value_doubled (by omega) short, ← parts]
      exact ⟨rfl, rfl⟩

theorem nearest_le (significand : Nat) (exponent : Int) :
    format.nearest significand exponent ≤ format.infinityBits := by
  unfold nearest
  split
  · exact Nat.zero_le _
  · exact Nat.min_le_left ..

/-- A number of a few digits above the least step is a magnitude. -/
theorem exists_value_eq {significand : Nat} {exponent : Int}
    (short : significand < 2 * 2 ^ format.fractionBits) (least : format.leastExponent ≤ exponent) :
    ∃ place, format.value place = significand * 2 ^ exponent := by
  obtain ⟨doublings, rfl⟩ := Int.le.dest least
  -- a number that is not normal yet has room for the next digit
  induction doublings generalizing significand with
  | zero => exact ⟨_, value_doubled (.inl rfl) short.le⟩
  | succ doublings ih =>
    by_cases normal : 2 ^ format.fractionBits ≤ significand
    · exact ⟨_, value_doubled (.inr normal) short.le⟩
    · obtain ⟨place, same⟩ := @ih (2 * significand) (by omega) (by omega)
      refine ⟨place, same.trans ?_⟩
      rw [Nat.cast_succ, ← add_assoc, zpow_add_one₀ two_ne_zero]
      push_cast
      ring

/-- A number that is a magnitude remains. -/
theorem value_nearest (fraction : 0 < format.fractionBits) {significand : Nat} {exponent : Int}
    (short : significand < 2 * 2 ^ format.fractionBits) (least : format.leastExponent ≤ exponent)
    (below : (significand : ℚ) * 2 ^ exponent < format.value format.infinityBits) :
    format.nearest significand exponent < format.infinityBits ∧
      format.value (format.nearest significand exponent) = significand * 2 ^ exponent := by
  obtain ⟨exact, same⟩ := exists_value_eq short least
  obtain ⟨place, rounds, chosen⟩ := exists_rounds_nearest fraction significand exponent
  obtain rfl := rounds.eq_of_value format.strictMono_value same
  rw [← same, format.strictMono_value.lt_iff_lt] at below
  rw [chosen, Nat.min_eq_right below.le]
  exact ⟨below, same⟩

/-! Signed numbers -/

/-- A pattern stands for the number of the format that is nearest to a given one; if another one is
as near, the last bit of the pattern is zero. -/
def IsNearest (format : BinaryFormat) (bits : Nat) (number : ℚ) : Prop :=
  ∃ own, (format.decode bits).number? = some own ∧
    ∀ other rival, (format.decode other).number? = some rival →
      |own - number| ≤ |rival - number| ∧
        (|own - number| = |rival - number| → rival ≠ own → bits % 2 = 0)

theorem value_zero (format : BinaryFormat) : format.value 0 = 0 := by
  simp [value, steps]

theorem value_nonneg (format : BinaryFormat) (magnitude : Nat) : 0 ≤ format.value magnitude :=
  mul_nonneg (Nat.cast_nonneg _) (by positivity)

theorem exists_magnitude {bits : Nat} {number : ℚ}
    (stands : (format.decode bits).number? = some number) :
    ∃ negative magnitude, number = signNumber negative * format.value magnitude := by
  rw [(format.shows_decode bits).number?_eq] at stands
  split at stands
  · exact ⟨_, _, (Option.some.inj stands).symm⟩
  · cases stands

/-- A number of the other sign is no nearer than zero. -/
theorem nearest_signed {number : ℚ} {place : Nat} (rounds : Rounds format.value number place)
    (nonneg : 0 ≤ number) (negative sign : Bool) (rival : Nat) :
    |signNumber negative * format.value place - signNumber negative * number| ≤
        |signNumber sign * format.value rival - signNumber negative * number| ∧
      (|signNumber negative * format.value place - signNumber negative * number| =
          |signNumber sign * format.value rival - signNumber negative * number| →
        signNumber sign * format.value rival ≠ signNumber negative * format.value place →
        place % 2 = 0) := by
  have near := rounds.nearest format.strictMono_value
  have along (magnitude : ℚ) :
      |signNumber negative * magnitude - signNumber negative * number| = |magnitude - number| := by
    rw [← mul_sub, abs_mul, abs_signNumber, one_mul]
  by_cases same : sign = negative
  · subst same
    rw [along, along]
    refine ⟨(near rival).1, fun tie differs => (near rival).2 tie ?_⟩
    rintro rfl
    exact differs rfl
  · have opposite : signNumber sign = -signNumber negative := by
      cases sign <;> cases negative <;> simp_all [signNumber]
    have across : |signNumber sign * format.value rival - signNumber negative * number| =
        format.value rival + number := by
      rw [opposite, neg_mul, ← neg_add', abs_neg, ← mul_add, abs_mul, abs_signNumber, one_mul,
        abs_of_nonneg (add_nonneg (format.value_nonneg rival) nonneg)]
    obtain ⟨least, even⟩ := near 0
    rw [format.value_zero, zero_sub, abs_neg, abs_of_nonneg nonneg] at least even
    rw [along, across]
    have rivalNonneg := format.value_nonneg rival
    refine ⟨by linarith, fun tie differs => even (by linarith) ?_⟩
    rintro rfl
    have zero : format.value rival = 0 := by
      rw [format.value_zero, zero_sub, abs_neg, abs_of_nonneg nonneg] at tie
      linarith
    exact differs (by rw [zero, format.value_zero, mul_zero, mul_zero])

theorem signed_mod_two (fraction : 0 < format.fractionBits) (negative : Bool) (magnitude : Nat) :
    format.signed negative magnitude % 2 = magnitude % 2 := by
  have even : format.signBit % 2 = 0 := by
    rw [signBit_eq, Nat.mul_comm, mul_power_mod_two fraction]
  unfold signed
  split <;> omega

theorem shows_round (negative : Bool) (significand : Nat) (exponent : Int) :
    format.Shows negative (format.nearest significand exponent)
      (format.decode (format.round negative significand exponent)) :=
  shows_signed negative ((nearest_le ..).trans_lt format.infinityBits_lt)

/-- A finite number is rounded to the nearest one of the format. -/
theorem isNearest_round (fraction : 0 < format.fractionBits) (negative : Bool)
    {significand : Nat} {exponent : Int}
    (below : format.nearest significand exponent < format.infinityBits) :
    format.IsNearest (format.round negative significand exponent)
      (signNumber negative * (significand * 2 ^ exponent)) := by
  obtain ⟨place, rounds, chosen⟩ := exists_rounds_nearest fraction significand exponent
  obtain rfl : format.nearest significand exponent = place := by omega
  refine ⟨_, by rw [(shows_round ..).number?_eq, if_pos below], ?_⟩
  intro other rival stands
  obtain ⟨sign, magnitude, rfl⟩ := exists_magnitude stands
  rw [round, signed_mod_two fraction]
  exact nearest_signed rounds (by positivity) negative sign magnitude

end BinaryFormat

end IrAssembly
