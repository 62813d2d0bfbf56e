import Climb.Number.Log
import Climb.Proofs.Number.Operations

/-! How far the computed logarithm of a whole number is from its binary logarithm. -/

namespace Climb

open Float.Model Float.Model.UnpackedFloat

section

variable {small : ℝ}

/-- The logarithm of a number a little above one is small. -/
theorem logb_one_add_le (positive : 0 ≤ small) : Real.logb 2 (1 + small) ≤ 2 * small := by
  have half : (1 / 2 : ℝ) < Real.log 2 := by
    have := Real.log_two_gt_d9
    linarith
  rw [Real.logb, div_le_iff₀ (by linarith)]
  -- The natural logarithm is even smaller, and two has one of more than a half.
  have bound := Real.log_le_sub_one_of_pos (by linarith : 0 < 1 + small)
  nlinarith

/-- The logarithm of a number a little below one is small. -/
theorem neg_le_logb_one_sub (positive : 0 ≤ small) (less : small ≤ 1 / 2) :
    -(4 * small) ≤ Real.logb 2 (1 - small) := by
  -- By the inverse, which is a little above one.
  have inverse : (1 - small)⁻¹ ≤ 1 + 2 * small := by
    rw [inv_le_iff_one_le_mul₀ (by linarith)]
    nlinarith
  have bound := logb_one_add_le (by linarith : 0 ≤ 2 * small)
  have above := Real.logb_le_logb_of_le one_lt_two (inv_pos.2 (by linarith)) inverse
  rw [Real.logb_inv] at above
  linarith

end

/-- One unit of the working precision makes little difference to a logarithm. -/
theorem logb_succ_le {value : Nat} (low : 2 ^ workingBits ≤ value) :
    Real.logb 2 ((value + 1) / 2 ^ workingBits) ≤
      Real.logb 2 (value / 2 ^ workingBits) + 1 / 2 ^ 190 := by
  have large : (2 ^ workingBits : ℝ) ≤ value := by exact_mod_cast low
  have positive : (0 : ℝ) < value := lt_of_lt_of_le (by positivity) large
  -- One unit more is a factor that is hardly more than one.
  have parts : ((value : ℝ) + 1) / 2 ^ workingBits = value / 2 ^ workingBits * (1 + 1 / value) := by
    field_simp
  have small := logb_one_add_le (by positivity : (0 : ℝ) ≤ 1 / value)
  have unit : 1 / (value : ℝ) ≤ 1 / 2 ^ workingBits :=
    one_div_le_one_div_of_le (by positivity) large
  have working : (2 : ℝ) * (1 / 2 ^ workingBits) ≤ 1 / 2 ^ 190 := by
    norm_num [workingBits]
  rw [parts, Real.logb_mul (by positivity) (by positivity)]
  linarith

/-- The bits of a logarithm fill the places behind the point at most. -/
theorem logFraction_lt (bits value : Nat) : logFraction bits value < 2 ^ bits := by
  -- The first bit has the weight of all the others together and one more.
  induction bits generalizing value with
  | zero => exact Nat.one_pos
  | succ bits ih =>
    have double : 2 ^ (bits + 1) = 2 ^ bits + 2 ^ bits := by ring
    have plain : twoPow bits = 2 ^ bits := rfl
    rw [logFraction, double, plain]
    split
    · exact Nat.add_lt_add_left (ih _) _
    · exact Nat.lt_add_right _ (ih _)

/-- Squaring doubles a logarithm, and rounding the square up does not make it smaller. -/
theorem logb_square_le {value square : Nat} (positive : 0 < value)
    (less : value * value < (square + 1) * 2 ^ workingBits) :
    2 * Real.logb 2 (value / 2 ^ workingBits) ≤ Real.logb 2 ((square + 1) / 2 ^ workingBits) := by
  have real : (0 : ℝ) < value := by exact_mod_cast positive
  have below : (value * value : ℝ) ≤ (square + 1) * 2 ^ workingBits := by exact_mod_cast less.le
  have twice : 2 * Real.logb 2 (value / 2 ^ workingBits) =
      Real.logb 2 (value / 2 ^ workingBits * (value / 2 ^ workingBits)) := by
    rw [Real.logb_mul (by positivity) (by positivity), two_mul]
  rw [twice]
  refine Real.logb_le_logb_of_le one_lt_two (by positivity) ?_
  rw [div_mul_div_comm, div_le_div_iff₀ (by positivity) (by positivity)]
  calc (value * value : ℝ) * 2 ^ workingBits ≤
      (square + 1) * 2 ^ workingBits * 2 ^ workingBits := by gcongr
    _ = (square + 1) * (2 ^ workingBits * 2 ^ workingBits) := by ring

/-- The square of a number from one up to two is from one up to four, also when rounded down. -/
theorem exists_square {value : Nat} (low : 2 ^ workingBits ≤ value)
    (high : value < 2 ^ (workingBits + 1)) : ∃ square, value * value / 2 ^ workingBits = square ∧
      value * value < (square + 1) * 2 ^ workingBits ∧ 2 ^ workingBits ≤ square ∧
      square < 2 * 2 ^ (workingBits + 1) := by
  refine ⟨_, rfl, ?_, ?_, ?_⟩
  · rw [← Nat.div_lt_iff_lt_mul (Nat.two_pow_pos _)]
    exact Nat.lt_succ_self _
  · rw [Nat.le_div_iff_mul_le (Nat.two_pow_pos _)]
    exact Nat.mul_le_mul low low
  · rw [Nat.div_lt_iff_lt_mul (Nat.two_pow_pos _)]
    calc value * value < 2 ^ (workingBits + 1) * 2 ^ (workingBits + 1) :=
        Nat.mul_lt_mul'' high high
      _ = 2 * 2 ^ (workingBits + 1) * 2 ^ workingBits := by ring

/-- Halving takes one from a logarithm, and rounding the half up does not make it smaller. -/
theorem logb_le_halved (square : Nat) :
    Real.logb 2 ((square + 1) / 2 ^ workingBits) ≤
      1 + Real.logb 2 (((square / 2 : Nat) + 1) / 2 ^ workingBits) := by
  -- Rounding the half down loses less than the one that is added to it.
  have below : (square : ℝ) + 1 ≤ 2 * ((square / 2 : Nat) + 1) := by
    exact_mod_cast (by omega : square + 1 ≤ 2 * (square / 2 + 1))
  have one := Real.logb_self_eq_one (one_lt_two : (1 : ℝ) < 2)
  nth_rewrite 2 [← one]
  rw [← Real.logb_mul two_ne_zero (by positivity), ← mul_div_assoc]
  exact Real.logb_le_logb_of_le one_lt_two (by positivity) (by gcongr)

/-- The bits of a logarithm are those of the exact one, up to one in the last place and a little. -/
theorem logFraction_spec (bits : Nat) {value : Nat} (low : 2 ^ workingBits ≤ value)
    (high : value < 2 ^ (workingBits + 1)) :
    2 ^ bits * Real.logb 2 (value / 2 ^ workingBits) ≤
      logFraction bits value + 1 + (2 ^ bits - 1) * (1 / 2 ^ 190) := by
  induction bits generalizing value with
  | zero =>
    -- With no bits left, the last place takes the whole logarithm of a number up to two.
    have inside : Real.logb 2 (value / 2 ^ workingBits) ≤ 1 := by
      have less : (value : ℝ) ≤ 2 ^ (workingBits + 1) := by exact_mod_cast high.le
      have positive : (0 : ℝ) < value :=
        lt_of_lt_of_le (by positivity : (0 : ℝ) < 2 ^ workingBits) (by exact_mod_cast low)
      rw [← Real.logb_self_eq_one one_lt_two]
      refine Real.logb_le_logb_of_le one_lt_two (by positivity) ?_
      rwa [div_le_iff₀ (by positivity), ← pow_succ']
    simpa [logFraction] using inside
  | succ bits ih =>
    have plain (places : Nat) : twoPow places = 2 ^ places := rfl
    have places : (2 : ℝ) ^ (bits + 1) = 2 * 2 ^ bits := by ring
    have grid : (0 : ℝ) < 2 ^ bits := by positivity
    obtain ⟨square, square_eq, less, least, most⟩ := exists_square low high
    -- A step loses one unit of the working precision, and the steps after it double that loss.
    have double := logb_square_le (Nat.lt_of_lt_of_le (Nat.two_pow_pos _) low) less
    rw [logFraction, plain, plain, plain, square_eq, places]
    split
    · -- The square is two at least, so one bit comes before the point and it is halved.
      rename_i reached
      have half := logb_le_halved square
      have next := logb_succ_le (by omega : 2 ^ workingBits ≤ square / 2)
      have rest := ih (by omega : 2 ^ workingBits ≤ square / 2) (by omega)
      push_cast
      nlinarith
    · rename_i missed
      have next := logb_succ_le least
      have rest := ih least (by omega)
      nlinarith

/-- Squaring doubles a logarithm, and rounding the square down does not make it larger. -/
theorem logb_square_ge {value square : Nat} (positive : 0 < value) (some : 0 < square)
    (more : square * 2 ^ workingBits ≤ value * value) :
    Real.logb 2 (square / 2 ^ workingBits) ≤ 2 * Real.logb 2 (value / 2 ^ workingBits) := by
  have real : (0 : ℝ) < value := by exact_mod_cast positive
  have above : (square * 2 ^ workingBits : ℝ) ≤ value * value := by exact_mod_cast more
  rw [two_mul, ← Real.logb_mul (by positivity) (by positivity)]
  refine Real.logb_le_logb_of_le one_lt_two (by positivity) ?_
  rw [div_mul_div_comm, div_le_div_iff₀ (by positivity) (by positivity)]
  calc (square : ℝ) * (2 ^ workingBits * 2 ^ workingBits) =
      square * 2 ^ workingBits * 2 ^ workingBits := by ring
    _ ≤ value * value * 2 ^ workingBits := by gcongr

/-- The bits of a logarithm are not beyond the exact one. -/
theorem logFraction_le (bits : Nat) {value : Nat} (low : 2 ^ workingBits ≤ value)
    (high : value < 2 ^ (workingBits + 1)) :
    logFraction bits value ≤ 2 ^ bits * Real.logb 2 (value / 2 ^ workingBits) := by
  induction bits generalizing value with
  | zero =>
    -- No bits stand for zero, and the logarithm of what is one at least is not below it.
    have one : (1 : ℝ) ≤ value / 2 ^ workingBits := by
      rw [one_le_div₀ (by positivity)]
      exact_mod_cast low
    simpa [logFraction] using Real.logb_nonneg one_lt_two one
  | succ bits ih =>
    have plain (places : Nat) : twoPow places = 2 ^ places := rfl
    have places : (2 : ℝ) ^ (bits + 1) = 2 ^ bits * 2 := pow_succ ..
    have grid : (0 : ℝ) < 2 ^ bits := by positivity
    obtain ⟨square, square_eq, -, least, most⟩ := exists_square low high
    -- All that is dropped on the way makes the logarithm of the square smaller.
    have double := logb_square_ge (Nat.lt_of_lt_of_le (Nat.two_pow_pos _) low)
      (Nat.lt_of_lt_of_le (Nat.two_pow_pos _) least) (square_eq ▸ Nat.div_mul_le_self _ _)
    rw [logFraction, plain, plain, plain, square_eq, places, mul_assoc]
    refine le_trans ?_ (mul_le_mul_of_nonneg_left double grid.le)
    split
    · rename_i reached
      have half : Real.logb 2 ((square / 2 : Nat) / 2 ^ workingBits) + 1 ≤
          Real.logb 2 (square / 2 ^ workingBits) := by
        have below : ((square / 2 : Nat) : ℝ) * 2 ≤ square := by
          exact_mod_cast Nat.div_mul_le_self square 2
        have some : (0 : ℝ) < (square / 2 : Nat) := by
          exact_mod_cast (by
            have := Nat.two_pow_pos workingBits
            omega : 0 < square / 2)
        rw [← Real.logb_self_eq_one (one_lt_two : (1 : ℝ) < 2),
          ← Real.logb_mul (by positivity) two_ne_zero, div_mul_eq_mul_div]
        exact Real.logb_le_logb_of_le one_lt_two (by positivity) (by gcongr)
      have rest := ih (by omega : 2 ^ workingBits ≤ square / 2) (by omega)
      push_cast
      nlinarith
    · exact ih least (by omega)

section

variable {mantissa : Nat} {exponent : Int}

/-- A logarithm in units is not beyond the exact one, and two in the last place below it at most. -/
theorem logUnits_spec (normal : IsNormal mantissa exponent) :
    (exponent + 52) * 2 ^ logBits ≤ logUnits mantissa exponent ∧
    logUnits mantissa exponent < (exponent + 53) * 2 ^ logBits ∧
    Real.logb 2 (valueOf mantissa exponent) - 1 / 2 ^ 109 ≤
      logUnits mantissa exponent / 2 ^ logBits ∧
    logUnits mantissa exponent / 2 ^ logBits ≤ Real.logb 2 (valueOf mantissa exponent) := by
  have plain (places : Nat) : twoPow places = 2 ^ places := rfl
  have filled := leastNormal_eq ▸ normal.filled
  have short := leastNormal_eq ▸ normal.short
  -- The mantissa is brought to the working precision, which is finer than its own.
  have value_eq : mantissa * 2 ^ workingBits / 2 ^ 52 = mantissa * 2 ^ 140 := by
    rw [workingBits, show 2 ^ 192 = 2 ^ 140 * 2 ^ 52 by norm_num, ← Nat.mul_assoc,
      Nat.mul_div_cancel _ (by norm_num)]
  have units : logUnits mantissa exponent =
      (exponent + 52) * 2 ^ logBits + logFraction logBits (mantissa * 2 ^ 140) := by
    simp only [logUnits, normal.log2_eq, plain, value_eq]
    push_cast
    rfl
  have low : 2 ^ workingBits ≤ mantissa * 2 ^ 140 := by
    rw [workingBits]
    omega
  have high : mantissa * 2 ^ 140 < 2 ^ (workingBits + 1) := by
    rw [workingBits]
    omega
  -- The fraction tells the bits behind the point, the place of the leading bit those before it.
  have spec := logFraction_spec logBits low high
  have least := logFraction_le logBits low high
  have below := logFraction_lt logBits (mantissa * 2 ^ 140)
  have some : (0 : ℝ) < mantissa := by exact_mod_cast normal.pos
  have parts : ((valueOf mantissa exponent : ℚ) : ℝ) =
      2 ^ (exponent + 52) * ((mantissa * 2 ^ 140 : Nat) / 2 ^ workingBits) := by
    rw [valueOf, workingBits, zpow_add₀ two_ne_zero]
    push_cast
    norm_num
    ring
  have grid : (0 : ℝ) < 2 ^ logBits := by positivity
  have log : Real.logb 2 (valueOf mantissa exponent) =
      exponent + 52 + Real.logb 2 ((mantissa * 2 ^ 140 : Nat) / 2 ^ workingBits) := by
    rw [parts, Real.logb_mul (by positivity) (by positivity), ← Real.rpow_intCast,
      Real.logb_rpow two_pos (by norm_num)]
    push_cast
    rfl
  rw [units, log]
  refine ⟨by omega, ?_, ?_, ?_⟩
  · have := (Nat.cast_lt (α := Int)).2 below
    push_cast at this
    linarith
  · have fine : ((2 : ℝ) ^ logBits - 1) * (1 / 2 ^ 190) ≤ 1 := by
      norm_num [logBits]
    have spare : (2 : ℝ) / 2 ^ logBits = 1 / 2 ^ 109 := by
      norm_num [logBits]
    rw [sub_le_iff_le_add, ← spare, ← add_div, le_div_iff₀ grid]
    push_cast at spec ⊢
    linarith
  · rw [div_le_iff₀ grid]
    push_cast at least ⊢
    linarith

/-- The logarithm of a number from two up is not much below the exact one. -/
theorem atLeast_logDouble (normal : IsNormal mantissa exponent) (two : 1 ≤ exponent + 52) :
    AtLeast ((Real.logb 2 (valueOf mantissa exponent) - 1 / 2 ^ 109) * (1 - 1 / 2 ^ 53))
      (logDouble mantissa exponent) := by
  obtain ⟨low, -, exact, -⟩ := logUnits_spec normal
  have grid : (0 : Int) < 2 ^ logBits := by positivity
  -- From two up the logarithm is one at least, and so no small number of units.
  have one : 2 ^ logBits ≤ logUnits mantissa exponent := by nlinarith
  obtain ⟨magnitude, units⟩ := Int.eq_ofNat_of_zero_le (grid.le.trans one)
  have sign : decide ((magnitude : Int) < 0) = false := decide_eq_false (by omega)
  simp only [logDouble, units, sign, Int.natAbs_natCast]
  rw [units] at exact one
  have reached : (1 : ℚ) ≤ magnitude / (2 ^ logBits : Nat) := by
    rw [one_le_div₀ (by positivity)]
    exact_mod_cast one
  refine (atLeast_nearestDouble (Nat.two_pow_pos _) reached).mono ?_
  push_cast at exact ⊢
  exact mul_le_mul_of_nonneg_right exact (by norm_num)

/-- The logarithm of a number from a half up to one is not much further from zero than the exact. -/
theorem unpacked_logDouble_half (normal : IsNormal mantissa (-53)) : ∃ magnitude scale some,
    unpacked (logDouble mantissa (-53)) = .finite .negative magnitude scale some ∧
      ((valueOf magnitude scale : ℚ) : ℝ) ≤
        (1 / 2 ^ 109 - Real.logb 2 (valueOf mantissa (-53))) * (1 + 1 / 2 ^ 53) := by
  obtain ⟨low, high, exact, -⟩ := logUnits_spec normal
  -- Below one the logarithm is not positive, and its units are fewer than those of one.
  obtain ⟨magnitude, units⟩ : ∃ magnitude : Nat, logUnits mantissa (-53) = -magnitude :=
    ⟨(logUnits mantissa (-53)).natAbs, by omega⟩
  rw [units] at low high exact
  have some : 0 < magnitude := by omega
  have most : magnitude ≤ 2 ^ logBits := by
    have : (magnitude : Int) ≤ 2 ^ logBits := by linarith
    exact_mod_cast this
  have sign : decide (-(magnitude : Int) < 0) = true := decide_eq_true (by omega)
  simp only [logDouble, units, sign, Int.natAbs_neg, Int.natAbs_natCast]
  have large : (2 : ℚ) ^ (-1000 : Int) ≤ magnitude / (2 ^ logBits : Nat) := by
    rw [le_div_iff₀ (by positivity)]
    have one : (1 : ℚ) ≤ magnitude := by exact_mod_cast some
    refine le_trans ?_ one
    rw [Nat.cast_pow, ← zpow_natCast, Nat.cast_ofNat, ← zpow_add₀ two_ne_zero]
    exact zpow_le_one_of_nonpos₀ one_le_two (by decide)
  have small : (magnitude : ℚ) / (2 ^ logBits : Nat) ≤ 1 := by
    rw [div_le_one₀ (by positivity)]
    exact_mod_cast most
  obtain ⟨rounded, scale, positive, parts, above⟩ :=
    unpacked_nearestDouble_negative (Nat.two_pow_pos _) large small
  refine ⟨rounded, scale, positive, parts, ?_⟩
  have real := (Rat.cast_le (K := ℝ)).2 above
  push_cast at real exact
  refine real.trans (mul_le_mul_of_nonneg_right ?_ (by norm_num))
  rw [neg_div] at exact
  linarith

/-- The logarithm of a normal double is that of its mantissa and exponent. -/
theorem logOfDouble_normal (normal : IsNormal mantissa exponent)
    (finite : magnitudeOf mantissa exponent < infinityBits) :
    logOfDouble (doubleOfMagnitude false (magnitudeOf mantissa exponent)) =
      logDouble mantissa exponent := by
  rw [logOfDouble, (normal.double finite).viewDouble_eq]

end

/-- Rounding a whole number changes its logarithm by little. -/
theorem logb_of_close {number rounded : ℝ} (positive : 0 < number)
    (close : number * (1 - 1 / 2 ^ 53) ≤ rounded) :
    Real.logb 2 number - 1 / 2 ^ 51 ≤ Real.logb 2 rounded := by
  -- A factor that is close to one adds little to a logarithm.
  have loss := neg_le_logb_one_sub (by positivity : (0 : ℝ) ≤ 1 / 2 ^ 53) (by norm_num)
  have above := Real.logb_le_logb_of_le one_lt_two
    (mul_pos positive (by norm_num : (0 : ℝ) < 1 - 1 / 2 ^ 53)) close
  rw [Real.logb_mul positive.ne' (by norm_num)] at above
  linarith

/-- A whole number that is not below zero is rounded without a sign. -/
theorem doubleOfInt?_natCast (value : Nat) :
    doubleOfInt? value = nearestDouble? false value 1 := by
  have sign : decide ((value : Int) < 0) = false := decide_eq_false (by omega)
  rw [doubleOfInt?, sign, Int.natAbs_natCast]

section

variable {value : Nat} (two : 2 ≤ value)

include two

/-- Two has the logarithm one, and no larger number has a smaller one. -/
theorem one_le_logb : 1 ≤ Real.logb 2 value := by
  have real : (2 : ℝ) ≤ value := by exact_mod_cast two
  rw [← Real.logb_self_eq_one (one_lt_two : (1 : ℝ) < 2)]
  exact Real.logb_le_logb_of_le one_lt_two two_pos real

/-- How a whole number from two up is rounded. -/
theorem nearestBits_whole : ∃ mantissa exponent, IsNormal mantissa exponent ∧
    nearestBits value 1 = magnitudeOf mantissa exponent ∧ 1 ≤ exponent + 52 ∧
    |valueOf mantissa exponent - value| ≤ (value : ℚ) / 2 ^ 53 := by
  have real : (2 : ℚ) ^ (1 : Int) ≤ value / (1 : Nat) := by
    rw [Nat.cast_one, div_one, zpow_one]
    exact_mod_cast two
  have large : (2 : ℚ) ^ (-1000 : Int) ≤ value / (1 : Nat) :=
    le_trans (zpow_le_zpow_right₀ one_le_two (by norm_num)) real
  obtain ⟨mantissa, exponent, normal, bits, close, powers⟩ := nearestBits_close Nat.one_pos large
  rw [Nat.cast_one, div_one] at close
  refine ⟨mantissa, exponent, normal, bits, ?_, close⟩
  -- Rounding does not fall below two, so the exponent is not below that of two.
  have reached := (powers 1 real).trans_lt (valueOf_log2 normal.pos exponent).2
  have := (zpow_lt_zpow_iff_right₀ (one_lt_two : (1 : ℚ) < 2)).1 reached
  rw [normal.log2_eq] at this
  push_cast at this
  omega

/-- The logarithm of a whole number that is rounded to a finite double. -/
theorem atLeast_logOfNat_finite {rounded : Float} (known : doubleOfInt? value = some rounded) :
    AtLeast (Real.logb 2 value * (1 - 1 / 2 ^ 50)) (logOfNat value) := by
  obtain ⟨mantissa, exponent, normal, bits, large, close⟩ := nearestBits_whole two
  have finite := known
  rw [doubleOfInt?_natCast, nearestDouble?, bits] at finite
  split at finite
  · rename_i below
    have log : logOfNat value = logDouble mantissa exponent := by
      rw [← logOfDouble_normal normal below, Option.some.inj finite]
      simp only [logOfNat, known]
    have lower : (value : ℚ) * (1 - 1 / 2 ^ 53) ≤ valueOf mantissa exponent := by
      linarith [(abs_le.1 close).1]
    have real := (Rat.cast_le (K := ℝ)).2 lower
    push_cast at real
    have near := logb_of_close (by positivity : (0 : ℝ) < value) real
    have one := one_le_logb two
    rw [log]
    -- The logarithm is one at least, so that an absolute loss is a relative one.
    refine (atLeast_logDouble normal large).mono ?_
    have less : Real.logb 2 value * (1 - 1 / 2 ^ 51 - 1 / 2 ^ 109) ≤
        Real.logb 2 (valueOf mantissa exponent) - 1 / 2 ^ 109 := by
      linarith
    refine le_trans ?_ (mul_le_mul_of_nonneg_right less (by norm_num))
    rw [mul_assoc]
    gcongr
    norm_num
  · cases finite

omit two in
/-- A fraction from a half up to one is rounded to one of these, or up to one. -/
theorem nearestBits_fraction {num den : Nat} (positive : 0 < den)
    (half : (2 : ℚ) ^ (-1 : Int) ≤ num / den) (one : (num / den : ℚ) < 1) :
    (∃ mantissa, IsNormal mantissa (-53) ∧ nearestBits num den = magnitudeOf mantissa (-53) ∧
      (num / den : ℚ) * (1 - 1 / 2 ^ 53) ≤ valueOf mantissa (-53)) ∨
    nearestBits num den = magnitudeOf (2 ^ 52) (-52) := by
  have large : (2 : ℚ) ^ (-1000 : Int) ≤ num / den :=
    le_trans (zpow_le_zpow_right₀ one_le_two (by norm_num)) half
  obtain ⟨mantissa, exponent, normal, bits, close, powers⟩ := nearestBits_close positive large
  obtain ⟨below, above⟩ := valueOf_log2 normal.pos exponent
  obtain ⟨lower, upper⟩ := abs_le.1 close
  rw [normal.log2_eq] at below above
  have least := (zpow_lt_zpow_iff_right₀ (one_lt_two : (1 : ℚ) < 2)).1
    ((powers (-1) half).trans_lt above)
  have most : ((52 : Nat) : Int) + exponent < 1 := by
    refine (zpow_lt_zpow_iff_right₀ (one_lt_two : (1 : ℚ) < 2)).1 (below.trans_lt ?_)
    norm_num
    linarith
  push_cast at least most
  rcases (by omega : exponent = -53 ∨ exponent = -52) with rfl | rfl
  · exact .inl ⟨mantissa, normal, bits, by linarith⟩
  · -- From one up there is no room for more than one itself.
    have short : (mantissa : ℚ) < 2 ^ 52 + 1 := by
      have : valueOf mantissa (-52) < 1 + 1 / 2 ^ 53 := by linarith
      rw [valueOf, zpow_neg, ← div_eq_mul_inv, div_lt_iff₀ (by positivity)] at this
      norm_num at this
      linarith
    have filled := leastNormal_eq ▸ normal.filled
    have less : mantissa < 2 ^ 52 + 1 := by exact_mod_cast short
    obtain rfl : mantissa = 2 ^ 52 := by omega
    exact .inr bits

omit two in
/-- The logarithm of a whole number lies between its length and the next one. -/
theorem logb_log2 {value : Nat} (positive : 0 < value) :
    (value.log2 : ℝ) ≤ Real.logb 2 value ∧ Real.logb 2 value ≤ value.log2 + 1 := by
  have real : (0 : ℝ) < value := by exact_mod_cast positive
  -- By the powers of two on both sides of the number.
  constructor
  · rw [Real.le_logb_iff_rpow_le one_lt_two real, Real.rpow_natCast]
    exact_mod_cast Nat.log2_self_le positive.ne'
  · have next : (value.log2 + 1 : ℝ) = (value.log2 + 1 : Nat) := by push_cast; rfl
    rw [Real.logb_le_iff_le_rpow one_lt_two real, next, Real.rpow_natCast]
    exact_mod_cast Nat.lt_log2_self.le

/-- A whole number beyond the doubles is long. -/
theorem log2_of_beyond (absent : doubleOfInt? value = none) : 1023 ≤ value.log2 := by
  obtain ⟨mantissa, exponent, normal, bits, large, close⟩ := nearestBits_whole two
  rw [doubleOfInt?_natCast, nearestDouble?, bits] at absent
  split at absent
  · cases absent
  · -- A normal mantissa is no double only if its exponent is too large.
    rename_i beyond
    have most : 972 ≤ exponent := by
      by_contra small
      have double : IsDouble mantissa exponent :=
        ⟨normal.short, normal.least, by omega, .inl normal.filled⟩
      exact beyond double.magnitude_lt
    have below := (valueOf_log2 normal.pos exponent).1
    rw [normal.log2_eq] at below
    have real : (2 : ℚ) ≤ value := by exact_mod_cast two
    have reached : (2 : ℚ) ^ (((1023 : Nat) : Int) + 1) ≤ value * 2 :=
      (zpow_le_zpow_right₀ one_le_two (by push_cast; omega)).trans
        (below.trans (by linarith [(abs_le.1 close).2]))
    rw [zpow_add_one₀ two_ne_zero, zpow_natCast] at reached
    refine (Nat.le_log2 (by omega)).2 ?_
    exact_mod_cast le_of_mul_le_mul_right reached two_pos

/-- The logarithm of a whole number beyond the doubles: an exponent, less what a fraction takes. -/
theorem logOfNat_beyond (absent : doubleOfInt? value = none) : ∃ exponent mantissa : Nat,
    IsNormal mantissa (-53) ∧ 1024 ≤ exponent ∧
    logOfNat value = logDouble mantissa (-53) + nearestDouble false exponent 1 ∧
    (exponent : ℝ) ≤ Real.logb 2 value + 2 ∧
    Real.logb 2 value - 1 / 2 ^ 51 ≤ exponent + Real.logb 2 (valueOf mantissa (-53)) := by
  have positive : 0 < value := by omega
  have long := log2_of_beyond two absent
  obtain ⟨low, high⟩ := logb_log2 positive
  have plain : twoPow (value.log2 + 1) = 2 ^ (value.log2 + 1) := rfl
  -- Divided by the power of two above it, the number is a fraction from a half up.
  have half : (2 : ℚ) ^ (-1 : Int) ≤ value / (2 ^ (value.log2 + 1) : Nat) := by
    rw [le_div_iff₀ (by positivity), Nat.cast_pow, ← zpow_natCast, Nat.cast_ofNat,
      ← zpow_add₀ two_ne_zero]
    push_cast
    rw [neg_add_cancel_comm_assoc, zpow_natCast]
    exact_mod_cast Nat.log2_self_le positive.ne'
  have one : (value : ℚ) / (2 ^ (value.log2 + 1) : Nat) < 1 := by
    rw [div_lt_one (by positivity)]
    exact_mod_cast Nat.lt_log2_self
  have log {mantissa : Nat} (normal : IsNormal mantissa (-53)) :
      logOfDouble (doubleOfMagnitude false (magnitudeOf mantissa (-53))) =
        logDouble mantissa (-53) :=
    logOfDouble_normal normal
      (IsDouble.magnitude_lt ⟨normal.short, normal.least, by decide, .inl normal.filled⟩)
  rcases nearestBits_fraction (Nat.two_pow_pos _) half one with
    ⟨mantissa, normal, bits, close⟩ | bits
  · -- The fraction stays below one when it is rounded.
    have carried : ¬ magnitudeOf mantissa (-53) / leastNormal = 0x3ff := by
      have filled := normal.filled
      have short := normal.short
      rw [magnitudeOf, leastExponent]
      rw [leastNormal_eq] at filled short ⊢
      omega
    refine ⟨value.log2 + 1, mantissa, normal, by omega, ?_, ?_, ?_⟩
    · simp only [logOfNat, absent, plain, bits, if_neg carried, log normal]
    · push_cast
      linarith
    · have real := (Rat.cast_le (K := ℝ)).2 close
      push_cast at real
      have near := logb_of_close (by positivity) real
      rw [Real.logb_div (by positivity) (by positivity), Real.logb_pow,
        Real.logb_self_eq_one one_lt_two] at near
      push_cast at near ⊢
      linarith
  · -- The fraction is rounded up to one, which is a half of the next power of two.
    have carried : magnitudeOf (2 ^ 52) (-52) / leastNormal = 0x3ff := by decide
    have normal : IsNormal (2 ^ 52) (-53) := by constructor <;> decide
    have fraction : nearestBits 1 2 = magnitudeOf (2 ^ 52) (-53) := by decide +kernel
    refine ⟨value.log2 + 2, 2 ^ 52, normal, by omega, ?_, ?_, ?_⟩
    · simp only [logOfNat, absent, plain, bits, if_pos carried, fraction, log normal]
    · push_cast
      linarith
    · have value_eq : ((valueOf (2 ^ 52) (-53) : ℚ) : ℝ) = 2⁻¹ := by
        norm_num [valueOf]
      rw [value_eq, Real.logb_inv, Real.logb_self_eq_one one_lt_two]
      push_cast
      linarith

/-- The logarithm of a whole number from two up is not much below the exact one. -/
theorem atLeast_logOfNat : AtLeast (Real.logb 2 value * (1 - 1 / 2 ^ 50)) (logOfNat value) := by
  -- A number beyond the doubles is taken as a fraction of a power of two.
  cases known : doubleOfInt? value with
  | some rounded => exact atLeast_logOfNat_finite two known
  | none =>
    obtain ⟨exponent, mantissa, normal, large, log, less, near⟩ := logOfNat_beyond two known
    obtain ⟨magnitude, scale, positive, parts, above⟩ := unpacked_logDouble_half normal
    have reached : (1024 : ℝ) ≤ exponent := by exact_mod_cast large
    have first : (1 : ℚ) ≤ exponent / (1 : Nat) := by
      rw [Nat.cast_one, div_one]
      exact_mod_cast (by omega : 1 ≤ exponent)
    have second := atLeast_nearestDouble Nat.one_pos first
    rw [Nat.cast_one, div_one] at second
    -- The fraction is a half at least, so it takes off no more than one.
    have below : -1 ≤ Real.logb 2 (valueOf mantissa (-53)) := by
      have half := (valueOf_log2 normal.pos (-53)).1
      rw [normal.log2_eq] at half
      have real := (Rat.cast_le (K := ℝ)).2 half
      have two_inv : ((2 ^ (((52 : Nat) : Int) + -53) : ℚ) : ℝ) = 2⁻¹ := by norm_num
      rw [two_inv] at real
      rw [← Real.logb_self_eq_one (one_lt_two : (1 : ℝ) < 2), ← Real.logb_inv]
      exact Real.logb_le_logb_of_le one_lt_two (by norm_num) real
    rw [log]
    refine (AtLeast.add parts second ?_).mono ?_
    · linarith
    · linarith

end

end Climb
