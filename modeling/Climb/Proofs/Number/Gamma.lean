import Climb.Number.Operators
import Climb.Proofs.Number.Enclosure
import Climb.Proofs.Number.Logarithm
import Climb.Proofs.Number.Shortest

/-! The estimated length of a factorial tells exactly which factorials are too large. -/

namespace Climb

open Float.Model Float.Model.UnpackedFloat

/-- A constant with few decimal places is rounded to a double close to it. -/
theorem within_doubleConstant (digits places : Nat) (low high : ℚ) (short : places ≤ 100)
    (least : low * 10 ^ places ≤ digits) (most : digits ≤ high * 10 ^ places)
    (moderate : high ≤ 2 ^ 100) :
    Within (lowered low) (raised high) (doubleConstant digits places) := by
  have grid : (0 : ℚ) < 10 ^ places := by positivity
  rw [← le_div_iff₀ grid, ← cast_tenPow] at least
  rw [← div_le_iff₀ grid, ← cast_tenPow] at most
  refine
    (approximates_nearestDouble digits (tenPow_pos places) ?_ (most.trans moderate) false).within
    least most
  -- Digits that are not all zero are not too small, as they are not too far behind the point.
  rcases Nat.eq_zero_or_pos digits with zero | some
  · exact .inl zero
  · have one : (1 : ℚ) ≤ digits := by exact_mod_cast some
    have far : (10 : ℚ) ^ places ≤ 2 ^ (400 : Int) :=
      calc (10 : ℚ) ^ places ≤ 16 ^ places := pow_le_pow_left₀ (by norm_num) (by norm_num) _
        _ ≤ 16 ^ 100 := pow_le_pow_right₀ (by norm_num) short
        _ = 2 ^ (400 : Int) := by
          rw [show (16 : ℚ) = 2 ^ (4 : Int) by norm_num, ← zpow_natCast, ← zpow_mul]
          rfl
    refine .inr ?_
    rw [cast_tenPow, le_div_iff₀ grid]
    calc (2 : ℚ) ^ (-1000 : Int) * 10 ^ places ≤ 2 ^ (-1000 : Int) * 2 ^ (400 : Int) := by gcongr
      _ = 2 ^ (-600 : Int) := (zpow_add₀ two_ne_zero _ _).symm
      _ ≤ 1 := zpow_le_one_of_nonpos₀ one_le_two (by decide)
      _ ≤ digits := one

section

variable {value : Float} (inside : Within 5 (2 ^ 17) value)

include inside

/-- Dividing a sum by a large number, and adding a coefficient, keeps sums bounded. -/
theorem within_scaledSum (coefficients : List (Nat × Nat))
    (bounded : ∀ coefficient ∈ coefficients,
      coefficient.2 ≤ 100 ∧ coefficient.1 ≤ 50000000000 * 10 ^ coefficient.2) :
    Within (-1) (2 ^ 37) (scaledSum (· / value) coefficients) := by
  -- Along the coefficients, for any sum within the bounds to begin with.
  have sums : ∀ sum, Within (-1) (2 ^ 37) sum → Within (-1) (2 ^ 37)
      (coefficients.foldl (fun sum coefficient =>
        sum / value + doubleConstant coefficient.1 coefficient.2) sum) := by
    induction coefficients with
    | nil => exact fun sum start => start
    | cons first rest ih =>
      intro sum start
      obtain ⟨⟨short, most⟩, others⟩ := List.forall_mem_cons.1 bounded
      refine ih others _ ?_
      -- The sum is divided by five at least before a coefficient is added, so it never grows past
      -- the bound.
      have quotient := start.div_of_nonpos inside (by norm_num) (by norm_num) (by norm_num)
        (by norm_num) (by norm_num)
      have constant := within_doubleConstant _ _ 0 50000000000 short (by simp)
        (by exact_mod_cast most) (by norm_num)
      refine (quotient.add constant ?_ ?_).mono ?_ ?_ <;> norm_num [lowered, raised]
  exact sums _ ((within_doubleConstant 0 0 0 0 (by decide) (by norm_num) (by norm_num)
    (by norm_num)).mono (by norm_num [lowered]) (by norm_num [raised]))

/-- A sum of coefficients, the last of them not small, is not small. -/
theorem within_scaledSum_concat (coefficients : List (Nat × Nat)) (last : Nat × Nat)
    (bounded : ∀ coefficient ∈ coefficients ++ [last],
      coefficient.2 ≤ 100 ∧ coefficient.1 ≤ 50000000000 * 10 ^ coefficient.2)
    (large : 10 ^ last.2 ≤ last.1) :
    Within (1 / 2) (2 ^ 37) (scaledSum (· / value) (coefficients ++ [last])) := by
  obtain ⟨first, others⟩ := List.forall_mem_append.1 bounded
  obtain ⟨short, most⟩ := others last (List.mem_singleton_self last)
  have start := within_scaledSum inside coefficients first
  -- The last coefficient is added last, and outweighs what the quotient may lose below zero.
  rw [scaledSum, List.foldl_concat, ← scaledSum]
  have quotient := start.div_of_nonpos inside (by norm_num) (by norm_num) (by norm_num)
    (by norm_num) (by norm_num)
  have constant := within_doubleConstant _ _ 1 50000000000 short
    (by rw [one_mul]; exact_mod_cast large) (by exact_mod_cast most) (by norm_num)
  refine (quotient.add constant ?_ ?_).mono ?_ ?_ <;> norm_num [lowered, raised]

end

/-- The quotient of the two polynomials is bounded at all numbers that are not small. -/
theorem within_lanczosSum {value : Float} (inside : Within (11 / 2) (2 ^ 17) value) :
    Within (1 / 2 ^ 39) (2 ^ 39) (lanczosSum value) := by
  have five := within_doubleConstant 5 0 5 5 (by decide) (by norm_num) (by norm_num) (by norm_num)
  -- Only numbers below five are put into the other sum.
  have large : ¬ value < doubleConstant 5 0 :=
    inside.not_lt five (by norm_num) (by norm_num [raised])
  have inside' : Within 5 (2 ^ 17) value := inside.mono (by norm_num) le_rfl
  have numerator := within_scaledSum_concat inside' lanczosNumerator.dropLast
    (25066282746310002701649081771338373386264310793408, 49) (by decide) (by decide)
  have denominator := within_scaledSum_concat inside' lanczosDenominator.dropLast
    (1, 0) (by decide) (by decide)
  rw [lanczosSum, if_neg large]
  refine (numerator.div denominator ?_ ?_ ?_).mono ?_ ?_ <;> norm_num [lowered, raised]

/-- A quotient of a signed whole number has its sign. -/
theorem signed_natAbs (whole : Int) (den : ℚ) :
    signed (signOf (decide (whole < 0))) (whole.natAbs / den) = whole / den := by
  -- The sign that is split off is the sign of the whole number.
  rcases lt_or_ge whole 0 with negative | positive
  · obtain ⟨magnitude, rfl⟩ : ∃ magnitude : Nat, whole = -magnitude := ⟨whole.natAbs, by omega⟩
    rw [decide_eq_true negative, Int.natAbs_neg, Int.natAbs_natCast, Int.cast_neg, neg_div,
      Int.cast_natCast]
    rfl
  · obtain ⟨magnitude, rfl⟩ := Int.eq_ofNat_of_zero_le positive
    rw [decide_eq_false (not_lt.2 positive), Int.natAbs_natCast, Int.cast_natCast]
    rfl

/-- The natural logarithm of two, as far as it is known. -/
def lnTwo : ℚ :=
  logTwo / 2 ^ logTwoBits

/-- How much the known logarithm of two is. -/
theorem lnTwo_bounds : 0.69314718 < lnTwo ∧ lnTwo < 0.69314719 := by
  rw [lnTwo, logTwo, logTwoBits]
  constructor <;> norm_num

/-- A double that stands for a number above zero has the parts of it. -/
theorem IsNumber.exists_normal {value : Float} {number : ℚ} (known : IsNumber value number)
    (large : 1 / 2 ^ 100 ≤ number) : ∃ mantissa exponent, IsNormal mantissa exponent ∧
      viewDouble value = .finite false mantissa exponent ∧
      number = valueOf mantissa exponent := by
  have positive : 0 < number := lt_of_lt_of_le (by norm_num) large
  cases known with
  | zero parts => exact absurd positive (lt_irrefl 0)
  | @finite sign mantissa exponent nonzero parts double =>
    cases sign with
    | negative =>
      have above : 0 ≤ valueOf mantissa exponent := by
        rw [valueOf]
        positivity
      exact absurd positive (not_lt.2 (neg_nonpos.2 above))
    | positive =>
      refine ⟨mantissa, exponent, double.canonical.normal (le_trans ?_ large),
        viewDouble_of_unpacked false parts, rfl⟩
      rw [show (1 / 2 ^ 100 : ℚ) = 2 ^ (-100 : Int) by norm_num]
      exact zpow_le_zpow_right₀ one_le_two (by decide)

/-- A natural logarithm is that of two, as often as the units of the binary logarithm say. -/
theorem approximates_naturalLog {value : Float} {mantissa : Nat} {exponent : Int}
    (view : viewDouble value = .finite false mantissa exponent)
    (moderate : |(logUnits mantissa exponent : ℚ) / 2 ^ logBits| ≤ 2 ^ 99) :
    Approximates (naturalLog value) (lnTwo * (logUnits mantissa exponent / 2 ^ logBits)) := by
  obtain ⟨least, most⟩ := lnTwo_bounds
  obtain ⟨scaled, at_scaled⟩ : ∃ scaled, logUnits mantissa exponent * logTwo = scaled := ⟨_, rfl⟩
  have log : naturalLog value = nearestDouble (decide (scaled < 0)) scaled.natAbs
      (twoPow (logBits + logTwoBits)) := by
    rw [naturalLog, view]
    simp only [at_scaled]
  -- Both logarithms are whole numbers of units, so their product is exact until it is rounded.
  have exact : (scaled : ℚ) / twoPow (logBits + logTwoBits) =
      lnTwo * (logUnits mantissa exponent / 2 ^ logBits) := by
    rw [← at_scaled, lnTwo, cast_twoPow, pow_add]
    push_cast
    field_simp
  have grid : (0 : ℚ) < twoPow (logBits + logTwoBits) := by
    exact_mod_cast twoPow_pos (logBits + logTwoBits)
  have magnitude : (scaled.natAbs : ℚ) / twoPow (logBits + logTwoBits) =
      lnTwo * |(logUnits mantissa exponent : ℚ) / 2 ^ logBits| := by
    rw [← abs_of_pos (by linarith : 0 < lnTwo), ← abs_mul, ← exact, abs_div, abs_of_pos grid,
      Nat.cast_natAbs, Int.cast_abs]
  rw [log, ← exact, ← signed_natAbs]
  refine approximates_nearestDouble _ (twoPow_pos _) ?_ ?_ _
  · -- Even a single unit is not too small to be rounded to a normal double.
    rcases Nat.eq_zero_or_pos scaled.natAbs with zero | some
    · exact .inl zero
    · have one : (1 : ℚ) ≤ scaled.natAbs := by exact_mod_cast some
      refine .inr ?_
      rw [le_div_iff₀ grid, cast_twoPow, ← zpow_natCast, ← zpow_add₀ two_ne_zero]
      exact (zpow_le_one_of_nonpos₀ one_le_two (by decide)).trans one
  · rw [magnitude]
    nlinarith [abs_nonneg ((logUnits mantissa exponent : ℚ) / 2 ^ logBits)]

/-- Bounds on a binary logarithm give bounds on the natural one. -/
theorem within_naturalLog {value : Float} {low high least most : ℚ}
    (inside : Within low high value) (positive : 1 / 2 ^ 100 ≤ low)
    (below : (least : ℝ) ≤ Real.logb 2 low) (above : Real.logb 2 high ≤ most)
    (moderate : -100 ≤ least) (moderate' : most ≤ 100) :
    Within (lowered (lnTwo * (least - 1 / 2 ^ 109))) (raised (lnTwo * most))
      (naturalLog value) := by
  obtain ⟨number, known, floor, ceiling⟩ := inside
  obtain ⟨mantissa, exponent, normal, view, rfl⟩ := known.exists_normal (positive.trans floor)
  obtain ⟨-, -, lower, upper⟩ := logUnits_spec normal
  have start : 0 < low := lt_of_lt_of_le (by norm_num) positive
  -- The units are as many as the binary logarithm has, which lies between those of the bounds.
  have first : least - 1 / 2 ^ 109 ≤ (logUnits mantissa exponent : ℚ) / 2 ^ logBits := by
    have more := Real.logb_le_logb_of_le one_lt_two (by exact_mod_cast start : (0 : ℝ) < low)
      (by exact_mod_cast floor : (low : ℝ) ≤ valueOf mantissa exponent)
    refine (Rat.cast_le (K := ℝ)).1 ?_
    push_cast
    linarith
  have second : (logUnits mantissa exponent : ℚ) / 2 ^ logBits ≤ most := by
    have more := Real.logb_le_logb_of_le one_lt_two
      (by exact_mod_cast start.trans_le floor : (0 : ℝ) < valueOf mantissa exponent)
      (by exact_mod_cast ceiling : (valueOf mantissa exponent : ℝ) ≤ high)
    refine (Rat.cast_le (K := ℝ)).1 ?_
    push_cast
    linarith
  have some : 0 < lnTwo := lt_trans (by norm_num) lnTwo_bounds.1
  refine (approximates_naturalLog view (abs_le.2 ⟨?_, ?_⟩)).within
    (mul_le_mul_of_nonneg_left first some.le) (mul_le_mul_of_nonneg_left second some.le)
  · norm_num at first ⊢
    linarith
  · norm_num
    linarith

/-- A power of two below a power of a number bounds the number's logarithm. -/
theorem le_logb_of_pow_le (base count bits : Nat) (number : ℚ) (some : 0 < count)
    (power : 2 ^ bits ≤ base ^ count) (more : base ≤ number) :
    (((bits / count : ℚ)) : ℝ) ≤ Real.logb 2 number := by
  have positive : 0 < base := by
    rcases Nat.eq_zero_or_pos base with rfl | positive
    · rw [Nat.zero_pow some] at power
      exact absurd power (Nat.not_le.2 (Nat.two_pow_pos bits))
    · exact positive
  have real : (0 : ℝ) < base := by exact_mod_cast positive
  -- Taking logarithms turns the power into a product, which is then divided by the count.
  have log : (bits : ℝ) ≤ count * Real.logb 2 base := by
    rw [← Real.logb_pow, Real.le_logb_iff_rpow_le one_lt_two (by positivity), Real.rpow_natCast]
    exact_mod_cast power
  push_cast
  rw [div_le_iff₀ (by exact_mod_cast some), mul_comm]
  exact log.trans (mul_le_mul_of_nonneg_left
    (Real.logb_le_logb_of_le one_lt_two real (by exact_mod_cast more)) (by positivity))

/-- A power of two above a power of a number bounds the number's logarithm. -/
theorem logb_le_of_le_pow (base count bits : Nat) (number : ℚ) (some : 0 < count)
    (power : base ^ count ≤ 2 ^ bits) (positive : 0 < number)
    (less : number ≤ base) : Real.logb 2 number ≤ ((bits / count : ℚ) : ℝ) := by
  have real : (0 : ℝ) < number := by exact_mod_cast positive
  have some' : (0 : ℝ) < base := real.trans_le (by exact_mod_cast less)
  have log : count * Real.logb 2 base ≤ bits := by
    rw [← Real.logb_pow, Real.logb_le_iff_le_rpow one_lt_two (by positivity), Real.rpow_natCast]
    exact_mod_cast power
  push_cast
  rw [le_div_iff₀ (by exact_mod_cast some), mul_comm]
  exact (mul_le_mul_of_nonneg_left
    (Real.logb_le_logb_of_le one_lt_two real (by exact_mod_cast less)) (by positivity)).trans log

/-- A whole number is rounded to a double close to it. -/
theorem within_nearestDouble {number : Nat} (low high : ℚ) (positive : 0 < number)
    (least : low ≤ number) (most : number ≤ high) (moderate : high ≤ 2 ^ 100) :
    Within (lowered low) (raised high) (nearestDouble false number 1) := by
  have one : (1 : ℚ) ≤ number := by exact_mod_cast positive
  have exact : signed (signOf false) (number / (1 : Nat)) = number := by
    rw [Nat.cast_one, div_one]
    rfl
  have near := approximates_nearestDouble number Nat.one_pos (.inr (le_trans
    (zpow_le_one_of_nonpos₀ one_le_two (by decide)) (by rwa [Nat.cast_one, div_one])))
    (by rw [Nat.cast_one, div_one]; exact most.trans moderate) false
  rw [exact] at near
  exact near.within least most

/-- The constants of the approximation. -/
theorem within_constants : Within 0.499 0.501 (doubleConstant 5 1) ∧
    Within 0.9999 1.0001 (doubleConstant 1 0) ∧ Within 6.0246 6.0247 lanczosShift := by
  refine ⟨?_, ?_, ?_⟩
  · exact (within_doubleConstant 5 1 (1 / 2) (1 / 2) (by decide) (by norm_num)
      (by norm_num) (by norm_num)).mono (by norm_num [lowered]) (by norm_num [raised])
  · exact (within_doubleConstant 1 0 1 1 (by decide) (by norm_num)
      (by norm_num) (by norm_num)).mono (by norm_num [lowered]) (by norm_num [raised])
  · exact (within_doubleConstant _ _ 6.02465 6.02469 (by decide) (by norm_num)
      (by norm_num) (by norm_num)).mono (by norm_num [lowered]) (by norm_num [raised])

section

variable {value : Float} {least most : ℚ} (inside : Within least most value)
  (small : 11 / 2 ≤ least) (large : most ≤ 2 ^ 17)

include inside small large

/-- The argument of the logarithm in the approximation. -/
theorem within_argument :
    Within (least + 5) (most + 6) (value + lanczosShift - doubleConstant 5 1) := by
  obtain ⟨half, -, shift⟩ := within_constants
  have wide : least ≤ most := inside.elim fun _ number => number.2.1.trans number.2.2
  have sum := (inside.add shift (by linarith) (by linarith)).coarse (by linarith) (by linarith)
    (by linarith)
  have argument := (sum.sub half (by linarith) (by linarith)).coarse (by linarith) (by linarith)
    (by linarith)
  exact argument.mono (by linarith) (by linarith)

/-- The main part of the approximation, where bounds on the logarithm in it are known. -/
theorem within_power {log : Float} {c d : ℚ} (known : Within c d log) (two : 2 ≤ c)
    (twelve : d ≤ 12) : Within ((least - 1) * (c - 1.001)) (most * (d - 0.999) + 0.1)
      ((value - doubleConstant 5 1) * (log - doubleConstant 1 0)) := by
  obtain ⟨half, one, -⟩ := within_constants
  have wide : least ≤ most := inside.elim fun _ number => number.2.1.trans number.2.2
  have wide' : c ≤ d := known.elim fun _ number => number.2.1.trans number.2.2
  have first : Within (least - 0.6) most (value - doubleConstant 5 1) :=
    ((inside.sub half (by linarith) (by linarith)).coarse (by linarith) (by linarith)
      (by linarith)).mono (by linarith) (by linarith)
  have second : Within (c - 1.001) (d - 0.999) (log - doubleConstant 1 0) :=
    ((known.sub one (by linarith) (by linarith)).coarse (by linarith) (by linarith)
      (by linarith)).mono (by linarith) (by linarith)
  -- The bounds stay moderate, so that rounding costs a fixed amount.
  have product : most * (d - 0.999) ≤ 2 ^ 17 * 12 := by nlinarith
  have power := (first.mul second (by linarith) (by linarith) (by linarith)).coarse (by nlinarith)
    (by nlinarith) (by linarith)
  exact power.mono (by nlinarith) (by linarith)

/-- The logarithm of the quotient is small, whatever the quotient is. -/
theorem within_naturalLog_lanczosSum :
    Within (-27.1) 27.1 (naturalLog (lanczosSum value)) := by
  have quotient := within_lanczosSum (inside.mono small large)
  -- The quotient lies between two powers of two, and so its logarithm between their exponents.
  have low : ((-39 : ℚ) : ℝ) ≤ Real.logb 2 (1 / 2 ^ 39 : ℚ) := by
    push_cast
    rw [one_div, Real.logb_inv, Real.logb_pow, Real.logb_self_eq_one one_lt_two]
    norm_num
  have high : Real.logb 2 (2 ^ 39 : ℚ) ≤ ((39 : ℚ) : ℝ) := by
    push_cast
    rw [Real.logb_pow, Real.logb_self_eq_one one_lt_two]
    norm_num
  obtain ⟨least, most⟩ := lnTwo_bounds
  exact ((within_naturalLog quotient (by norm_num) low high (by norm_num) (by norm_num)).coarse
    (by linarith) (by linarith) (by linarith)).mono (by linarith) (by linarith)

/-- The logarithm of the gamma function, where bounds on the logarithm in it are known. -/
theorem within_logGamma {number : Nat} {c d : ℚ} (two : 2 < number)
    (rounded : nearestDouble false number 1 = value)
    (known : Within c d (naturalLog (value + lanczosShift - doubleConstant 5 1)))
    (more : 2 ≤ c) (less : d ≤ 12) :
    Within ((least - 1) * (c - 1.001) - 34) (most * (d - 0.999) + 22) (logGamma number) := by
  obtain ⟨-, -, shift⟩ := within_constants
  have wide : least ≤ most := inside.elim fun _ number => number.2.1.trans number.2.2
  have wide' : c ≤ d := known.elim fun _ number => number.2.1.trans number.2.2
  have power := within_power inside small large known more less
  have rest := ((within_naturalLog_lanczosSum inside small large).sub shift (by norm_num)
    (by norm_num)).coarse (by norm_num) (by norm_num) (by norm_num)
  have product : most * (d - 0.999) ≤ 2 ^ 17 * 12 := by nlinarith
  have product' : 0 ≤ (least - 1) * (c - 1.001) := mul_nonneg (by linarith) (by linarith)
  have order : (least - 1) * (c - 1.001) ≤ most * (d - 0.999) := by nlinarith
  have sum := (rest.add power (by linarith) (by linarith)).coarse (by linarith) (by linarith)
    (by linarith)
  rw [logGamma, if_neg (Nat.not_le.2 two), rounded]
  exact sum.mono (by linarith) (by linarith)

end

/-- The logarithm of the gamma function between two numbers, by the binary logarithms near both. -/
theorem within_logGamma_between {number first last : Nat} {least most c d : ℚ}
    (six : 6 ≤ first) (reached : first ≤ number) (passed : number ≤ last) (limit : last < 2 ^ 17)
    (below : (least : ℝ) ≤ Real.logb 2 (first - 1 / 2 ^ 11 + 5 : ℚ))
    (above : Real.logb 2 (last + 1 / 2 ^ 11 + 6 : ℚ) ≤ most)
    (lower : c + 1 / 2000 ≤ 0.69314718 * least) (upper : 0.69314719 * most + 1 / 2000 ≤ d)
    (two : 2 ≤ c) (twelve : d ≤ 12) :
    Within ((first - 1 / 2 ^ 11 - 1) * (c - 1.001) - 34)
      ((last + 1 / 2 ^ 11) * (d - 0.999) + 22) (logGamma number) := by
  have six' : (6 : ℚ) ≤ first := by exact_mod_cast six
  have wide : (first : ℚ) ≤ last := by exact_mod_cast reached.trans passed
  have limit' : (last : ℚ) ≤ 2 ^ 17 - 1 := by
    rw [le_sub_iff_add_le]
    exact_mod_cast Nat.succ_le_of_lt limit
  have more : 2 < number := by omega
  have inside := (within_nearestDouble first last (Nat.zero_lt_of_lt more)
    (by exact_mod_cast reached) (by exact_mod_cast passed) (by linarith)).coarse (by linarith) wide
    (by linarith)
  have small : (11 / 2 : ℚ) ≤ first - 1 / 2 ^ 11 := by linarith
  have large : last + 1 / 2 ^ 11 ≤ (2 ^ 17 : ℚ) := by linarith
  have order : least ≤ most := by
    have start : (0 : ℚ) < first - 1 / 2 ^ 11 + 5 := by linarith
    have more := Real.logb_le_logb_of_le one_lt_two (by exact_mod_cast start)
      ((Rat.cast_le (K := ℝ)).2 (by linarith :
        (first - 1 / 2 ^ 11 + 5 : ℚ) ≤ last + 1 / 2 ^ 11 + 6))
    exact (Rat.cast_le (K := ℝ)).1 (below.trans (more.trans above))
  -- The known logarithm of two is close enough to pass from the binary logarithms to natural ones.
  obtain ⟨ln, ln'⟩ := lnTwo_bounds
  have floor : 0.69314718 * least ≤ lnTwo * least :=
    mul_le_mul_of_nonneg_right ln.le (by linarith)
  have ceiling : lnTwo * most ≤ 0.69314719 * most :=
    mul_le_mul_of_nonneg_right ln'.le (by linarith)
  have scaled : lnTwo * least ≤ lnTwo * most := mul_le_mul_of_nonneg_left order (by linarith)
  have log := ((within_naturalLog (within_argument inside small large) (by linarith) below above
    (by linarith) (by linarith)).coarse (by linarith) (by linarith) (by linarith))
  have known : Within c d _ := log.mono (by linarith) (by linarith)
  exact within_logGamma inside small large more rfl known two twelve

/-- The natural logarithm of two, as a double. -/
theorem within_naturalLog_two :
    Within 0.69314718 0.69314719 (naturalLog (nearestDouble false 2 1)) := by
  -- The one logarithm without a parameter is computed, and its double compared with the bounds.
  have view : viewDouble (naturalLog (nearestDouble false 2 1)) =
      .finite false 6243314768165359 (-53) := by decide +kernel
  have double : IsDouble 6243314768165359 (-53) := by constructor <;> decide
  refine ⟨_, .finite (unpacked_finite view (by decide)) double, ?_, ?_⟩ <;>
    norm_num [signOf, signed, valueOf]

namespace Number

/-- The size limit as a double. -/
theorem within_sizeLimit : Within 65535 65537 (nearestDouble false sizeLimit 1) :=
  (within_nearestDouble 65536 65536 (by decide) (by decide) (by decide)
    (by norm_num)).mono (by norm_num [lowered]) (by norm_num [raised])

/-- The estimate for a number from five up to a little below the limit stays below it. -/
theorem isFactorialTooLarge_of_le {number : Nat} (five : 5 ≤ number) (below : number ≤ 5904) :
    isFactorialTooLarge number = false := by
  -- The ends of the range in the argument of the logarithm, as powers of two.
  have low := le_logb_of_pow_le 8 1 3 ((6 : Nat) - 1 / 2 ^ 11 + 5) (by decide) (by decide)
    (by norm_num)
  have high := logb_le_of_le_pow 5912 100 1253 ((5905 : Nat) + 1 / 2 ^ 11 + 6) (by decide)
    (by decide +kernel) (by norm_num) (by norm_num)
  have gamma : Within (-100) 45420 (logGamma (number + 1)) :=
    (within_logGamma_between (c := 2) (d := 8.686) le_rfl (by omega) (by omega) (by norm_num) low
      high (by norm_num) (by norm_num) (by norm_num) (by norm_num)).mono (by norm_num) (by norm_num)
  have estimate := gamma.div_of_nonpos within_naturalLog_two (by norm_num) (by norm_num)
    (by norm_num) (by norm_num) (by norm_num)
  have less := within_sizeLimit.not_lt estimate (by norm_num) (by norm_num [raised])
  -- The number itself is below the limit as well, which is the other check.
  have limit : sizeLimit = 65536 := by decide
  simp only [isFactorialTooLarge, gt_iff_lt, less, decide_false, Bool.or_false,
    decide_eq_false_iff_not]
  omega

/-- The estimate for a number that is a little above the limit is above it. -/
theorem isFactorialTooLarge_of_ge {number : Nat} (above : 5917 ≤ number) :
    isFactorialTooLarge number = true := by
  have limit : sizeLimit = 65536 := by decide
  -- A number beyond the limit is refused before its gamma function is looked at.
  rcases Nat.lt_or_ge sizeLimit number with beyond | most
  · rw [isFactorialTooLarge, decide_eq_true beyond, Bool.true_or]
  · have low := le_logb_of_pow_le 5922 1000 12531 ((5918 : Nat) - 1 / 2 ^ 11 + 5) (by decide)
      (by decide +kernel) (by norm_num)
    have high := logb_le_of_le_pow 131072 1 17 ((65537 : Nat) + 1 / 2 ^ 11 + 6) (by decide)
      (by decide) (by norm_num) (by norm_num)
    have gamma : Within 45427 (2 ^ 20) (logGamma (number + 1)) :=
      (within_logGamma_between (c := 8.685) (d := 12) (by decide) (by omega) (by omega)
        (by norm_num) low high (by norm_num) (by norm_num) (by norm_num) (by norm_num)).mono
        (by norm_num) (by norm_num)
    have estimate := gamma.div within_naturalLog_two (by norm_num) (by norm_num) (by norm_num)
    have more := within_sizeLimit.lt estimate (by norm_num) (by norm_num [lowered])
    rw [isFactorialTooLarge, decide_eq_true more, Bool.or_true]

/-- The numbers whose factorials are refused are just those above `5910`. -/
theorem isFactorialTooLarge_iff (number : Nat) :
    isFactorialTooLarge number = true ↔ 5910 < number := by
  rcases Nat.lt_or_ge number 5 with tiny | five
  · -- Where the approximation is not used, or its other sum, the few values are computed.
    have checked : ∀ number < 5, isFactorialTooLarge number = false := by decide +kernel
    rw [checked number tiny]
    exact iff_of_false (by decide) (by omega)
  · rcases Nat.lt_or_ge 5904 number with large | small
    · rcases Nat.lt_or_ge number 5917 with close | above
      · -- Next to the limit the bounds on the estimate are too wide, so it is computed as well.
        have checked : ∀ more < 12, (isFactorialTooLarge (5905 + more) = true ↔
            5910 < 5905 + more) := by decide +kernel
        obtain ⟨more, rfl⟩ := Nat.exists_eq_add_of_lt large
        have := checked more (by omega)
        rwa [show 5905 + more = 5904 + more + 1 by omega] at this
      · exact iff_of_true (isFactorialTooLarge_of_ge above) (by omega)
    · rw [isFactorialTooLarge_of_le five small]
      exact iff_of_false (by decide) (by omega)

/-- The factorials that are not refused are computed. -/
theorem applyAfter_factorial (number : Nat) (within : number ≤ 5910) :
    applyAfter (some "!") (.int number) = .ok (.int (factorial number)) := by
  have small : isFactorialTooLarge number = false := Bool.eq_false_iff.2 fun refused =>
    absurd ((isFactorialTooLarge_iff number).1 refused) (Nat.not_lt.2 within)
  have taken : applyAfter (some "!") (.int number) = factorialOf number := rfl
  rw [taken, factorialOf, if_neg (by omega), Int.toNat_natCast, small]
  rfl

end Number

end Climb
