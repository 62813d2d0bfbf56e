import Mathlib
import Climb.Number.Shortest
import Climb.Proofs.Number.Double

/-! Rounding to the nearest double, measured by the exact values of quotients. -/

namespace Climb

/-- The number that a numerator and a denominator stand for. -/
def ratio (quotient : Nat × Nat) : ℚ :=
  quotient.1 / quotient.2

/-- The number that a mantissa and an exponent stand for. -/
def valueOf (mantissa : Nat) (exponent : Int) : ℚ :=
  mantissa * 2 ^ exponent

/-- A double lies between two powers of two that its length tells. -/
theorem valueOf_log2 {mantissa : Nat} (nonzero : 0 < mantissa) (exponent : Int) :
    (2 : ℚ) ^ (mantissa.log2 + exponent) ≤ valueOf mantissa exponent ∧
      valueOf mantissa exponent < 2 ^ (mantissa.log2 + exponent + 1) := by
  -- The length is that of the mantissa, and the exponent moves both bounds.
  have low : (2 : ℚ) ^ (mantissa.log2 : Int) ≤ mantissa := by
    exact_mod_cast Nat.log2_self_le nonzero.ne'
  have high : (mantissa : ℚ) < 2 ^ ((mantissa.log2 : Int) + 1) := by
    exact_mod_cast Nat.lt_log2_self
  rw [valueOf, add_right_comm, zpow_add₀ (by norm_num), zpow_add₀ (by norm_num)]
  constructor <;> gcongr

/-- Powers of two are the usual ones. -/
@[simp] theorem cast_twoPow (exponent : Nat) : (twoPow exponent : ℚ) = 2 ^ exponent := by
  simp [twoPow]

/-- A power of two is positive. -/
theorem twoPow_pos (exponent : Nat) : 0 < twoPow exponent :=
  Nat.two_pow_pos exponent

/-- A quotient is at least one if its numerator is at least its denominator. -/
theorem one_le_ratio {quotient : Nat × Nat} (positive : 0 < quotient.2) :
    1 ≤ ratio quotient ↔ quotient.2 ≤ quotient.1 := by
  rw [ratio, one_le_div₀ (by exact_mod_cast positive), Nat.cast_le]

/-- Quotients are compared by the numbers that they stand for. -/
theorem quotientLe_iff {left right : Nat × Nat} (first : 0 < left.2) (second : 0 < right.2) :
    quotientLe left right = true ↔ ratio left ≤ ratio right := by
  rw [ratio, ratio, div_le_div_iff₀ (by exact_mod_cast first) (by exact_mod_cast second),
    quotientLe, decide_eq_true_iff]
  norm_cast

section

variable (num : Nat) {den : Nat} (power : Int)

/-- Scaling multiplies by a power of two. -/
theorem ratio_scaleQuotient (den : Nat) :
    ratio (scaleQuotient num den power) = num / den * 2 ^ power := by
  unfold scaleQuotient
  -- A negative power goes into the denominator, so that both parts stay whole.
  split
  · rename_i below
    have steps : power = -((-power).toNat : Int) := by omega
    rw [steps, zpow_neg, zpow_natCast, ← steps, ratio, Nat.cast_mul, cast_twoPow, ← div_div,
      div_eq_mul_inv (num / den : ℚ)]
  · rename_i above
    have steps : power = (power.toNat : Int) := by omega
    rw [steps, zpow_natCast, ← steps, ratio, Nat.cast_mul, cast_twoPow, mul_div_right_comm]

/-- Scaling keeps a denominator positive. -/
theorem scaleQuotient_pos (positive : 0 < den) : 0 < (scaleQuotient num den power).2 := by
  unfold scaleQuotient
  split
  · exact Nat.mul_pos positive (twoPow_pos _)
  · exact positive

end

/-- The binary logarithm of a quotient is the exponent of the power of two below it. -/
theorem quotientLog_spec {num den : Nat} (nonzero : 0 < num) (positive : 0 < den) :
    (2 : ℚ) ^ quotientLog num den ≤ num / den ∧
      (num / den : ℚ) < 2 ^ (quotientLog num den + 1) := by
  have real : (0 : ℚ) < den := by exact_mod_cast positive
  -- Both parts are between the powers of two that their lengths tell.
  have numLow : (2 : ℚ) ^ (num.log2 : Int) ≤ num := by
    exact_mod_cast Nat.log2_self_le nonzero.ne'
  have numHigh : (num : ℚ) < 2 ^ ((num.log2 : Int) + 1) := by
    exact_mod_cast Nat.lt_log2_self
  have denLow : (2 : ℚ) ^ (den.log2 : Int) ≤ den := by
    exact_mod_cast Nat.log2_self_le positive.ne'
  have denHigh : (den : ℚ) < 2 ^ ((den.log2 : Int) + 1) := by
    exact_mod_cast Nat.lt_log2_self
  unfold quotientLog
  simp only
  -- The difference of the lengths is right or one too large, which one comparison tells.
  generalize guessed : (num.log2 : Int) - den.log2 = guess
  have scaled : (scaleQuotient num den (-guess)).2 ≤ (scaleQuotient num den (-guess)).1 ↔
      (2 : ℚ) ^ guess ≤ num / den := by
    rw [← one_le_ratio (scaleQuotient_pos num (-guess) positive), ratio_scaleQuotient, zpow_neg,
      ← div_eq_mul_inv, one_le_div₀ (by positivity)]
  split
  · rename_i reached
    refine ⟨scaled.1 reached, ?_⟩
    rw [div_lt_iff₀ real]
    calc (num : ℚ) < 2 ^ ((num.log2 : Int) + 1) := numHigh
      _ = 2 ^ (guess + 1) * 2 ^ (den.log2 : Int) := by
          rw [← zpow_add₀ (by norm_num)]
          congr 1
          omega
      _ ≤ 2 ^ (guess + 1) * den := by gcongr
  · rename_i missed
    rw [sub_add_cancel]
    refine ⟨?_, not_le.1 fun reached => missed (scaled.2 reached)⟩
    rw [le_div_iff₀ real]
    calc (2 : ℚ) ^ (guess - 1) * den ≤ 2 ^ (guess - 1) * 2 ^ ((den.log2 : Int) + 1) := by gcongr
      _ = 2 ^ (num.log2 : Int) := by
          rw [← zpow_add₀ (by norm_num)]
          congr 1
          omega
      _ ≤ num := numLow

/--
Rounding to a whole number gives the one that is at most a half away, where the middle between two
goes to the even one.
-/
theorem roundHalfEven_eq {num den whole : Nat} (positive : 0 < den)
    (low : (whole : ℚ) - 1 / 2 ≤ num / den) (high : (num / den : ℚ) ≤ whole + 1 / 2)
    (odd : whole % 2 = 1 → (whole : ℚ) - 1 / 2 < num / den ∧ (num / den : ℚ) < whole + 1 / 2) :
    roundHalfEven num den = whole := by
  have real : (0 : ℚ) < den := by exact_mod_cast positive
  rw [le_div_iff₀ real] at low
  rw [div_le_iff₀ real] at high
  rw [lt_div_iff₀ real, div_lt_iff₀ real] at odd
  -- Without the halves everything is about whole numbers.
  have low' : 2 * (den * whole) ≤ 2 * num + den := by
    have : (2 * (den * whole) : ℚ) ≤ 2 * num + den := by linarith
    exact_mod_cast this
  have high' : 2 * num ≤ 2 * (den * whole) + den := by
    have : (2 * num : ℚ) ≤ 2 * (den * whole) + den := by linarith
    exact_mod_cast this
  have odd' : whole % 2 = 1 →
      2 * (den * whole) < 2 * num + den ∧ 2 * num < 2 * (den * whole) + den := by
    intro one
    have inside := odd one
    have first : (2 * (den * whole) : ℚ) < 2 * num + den := by linarith
    have second : (2 * num : ℚ) < 2 * (den * whole) + den := by linarith
    exact ⟨by exact_mod_cast first, by exact_mod_cast second⟩
  have parts := Nat.div_add_mod num den
  have rest := Nat.mod_lt num positive
  unfold roundHalfEven
  simp only
  generalize num / den = floor at parts ⊢
  generalize num % den = remainder at parts rest ⊢
  -- The whole number is one of the two between which the quotient lies.
  have upper : whole ≤ floor + 1 := by
    by_contra beyond
    have step := Nat.mul_le_mul_left den (show floor + 2 ≤ whole by omega)
    rw [Nat.mul_add] at step
    omega
  have lower : floor ≤ whole := by
    by_contra below
    have step := Nat.mul_le_mul_left den (show whole + 1 ≤ floor by omega)
    rw [Nat.mul_add] at step
    omega
  -- Which of the two it is, twice the remainder tells, and in the middle the last bit.
  rcases Nat.eq_or_lt_of_le lower with rfl | above
  · exact if_neg (by omega)
  · obtain rfl : whole = floor + 1 := by omega
    rw [Nat.mul_add] at low' odd'
    exact if_pos (by omega)

/-- Whether a number lies within half a step of a double, an end only if the mantissa is even. -/
structure Near (mantissa : Nat) (exponent : Int) (number : ℚ) : Prop where
  above : number ≤ (mantissa + 1 / 2) * 2 ^ exponent
  below :
    (mantissa - (if mantissa = leastNormal ∧ leastExponent < exponent then 1 / 4 else 1 / 2)) *
      2 ^ exponent ≤ number
  odd : mantissa % 2 = 1 → number < (mantissa + 1 / 2) * 2 ^ exponent ∧
    (mantissa - 1 / 2) * 2 ^ exponent < number

section

variable {mantissa num den : Nat} {exponent : Int}

/-- A quotient is brought to the exponent that its length calls for, and rounded there. -/
theorem nearestBits_scaled (nonzero : 0 < num) (positive : 0 < den)
    (scale : max (quotientLog num den - 52) leastExponent = exponent) :
    ∃ scaledNum scaledDen : Nat, 0 < scaledDen ∧
      (scaledNum / scaledDen : ℚ) = num / den / 2 ^ exponent ∧
      nearestBits num den = magnitudeOf (roundHalfEven scaledNum scaledDen) exponent := by
  refine ⟨(scaleQuotient num den (-exponent)).1, _, scaleQuotient_pos num (-exponent) positive,
    ?_, ?_⟩
  · rw [← ratio, ratio_scaleQuotient, zpow_neg, div_eq_mul_inv (num / den : ℚ)]
  · rw [nearestBits, if_neg nonzero.ne', scale, magnitudeOf]

/-- The bits of a rounded quotient, when the exponent that it is rounded with is known. -/
theorem nearestBits_eq {whole : Nat} (nonzero : 0 < num) (positive : 0 < den)
    (scale : max (quotientLog num den - 52) leastExponent = exponent)
    (low : ((whole : ℚ) - 1 / 2) * 2 ^ exponent ≤ num / den)
    (high : (num / den : ℚ) ≤ (whole + 1 / 2) * 2 ^ exponent)
    (odd : whole % 2 = 1 → ((whole : ℚ) - 1 / 2) * 2 ^ exponent < num / den ∧
      (num / den : ℚ) < (whole + 1 / 2) * 2 ^ exponent) :
    nearestBits num den = magnitudeOf whole exponent := by
  have step : (0 : ℚ) < 2 ^ exponent := by positivity
  obtain ⟨scaledNum, scaledDen, some, scaled, bits⟩ := nearestBits_scaled nonzero positive scale
  -- Dividing by the step makes it a question about whole numbers.
  have rounded : roundHalfEven scaledNum scaledDen = whole := by
    apply roundHalfEven_eq some
    · rwa [scaled, le_div_iff₀ step]
    · rwa [scaled, div_le_iff₀ step]
    · rw [scaled, lt_div_iff₀ step, div_lt_iff₀ step]
      exact odd
  rw [bits, rounded]

/-- A number that is less than half a shorter step below a power of two is rounded to it. -/
theorem nearestBits_below_power (number : 0 < num) (positive : 0 < den)
    (shorter : leastExponent < exponent)
    (more : (2 ^ 53 - 1 / 2 : ℚ) * 2 ^ (exponent - 1) ≤ num / den)
    (less : (num / den : ℚ) < 2 ^ 53 * 2 ^ (exponent - 1)) :
    nearestBits num den = magnitudeOf leastNormal exponent := by
  obtain ⟨floor, ceiling⟩ := quotientLog_spec number positive
  -- The number is in the binade below, by the length of its quotient.
  have log : quotientLog num den = exponent + 51 := by
    have first : exponent - 1 + 52 < quotientLog num den + 1 := by
      rw [← zpow_lt_zpow_iff_right₀ (one_lt_two : (1 : ℚ) < 2)]
      refine lt_of_le_of_lt (le_trans ?_ more) ceiling
      rw [zpow_add₀ (by norm_num), mul_comm]
      gcongr
      norm_num
    have second : quotientLog num den < exponent - 1 + 53 := by
      rw [← zpow_lt_zpow_iff_right₀ (one_lt_two : (1 : ℚ) < 2), zpow_add₀ (by norm_num), mul_comm]
      exact_mod_cast lt_of_le_of_lt floor less
    omega
  -- It is rounded in the binade below, and the mantissa is carried into the next one.
  have carried : magnitudeOf leastNormal exponent = magnitudeOf (2 ^ 53) (exponent - 1) := by
    simp only [magnitudeOf, leastNormal_eq, leastExponent] at shorter ⊢
    omega
  rw [carried]
  refine nearestBits_eq number positive ?_ (by exact_mod_cast more) (less.le.trans ?_) (by norm_num)
  · rw [log, max_eq_left (by omega)]
    omega
  · gcongr
    norm_num

/-- Only a power of two is near to numbers that are below the shortest mantissa of full length. -/
theorem Near.eq_leastNormal {number : ℚ} (near : Near mantissa exponent number)
    (filled : leastNormal ≤ mantissa) (missed : number < 2 ^ (exponent + 52)) :
    mantissa = leastNormal := by
  by_contra other
  -- Any longer mantissa has its neighbours at the full step, which do not reach so far down.
  have beyond : leastNormal + 1 ≤ mantissa := by omega
  rw [leastNormal_eq] at beyond
  have more : (2 ^ 52 + 1 : ℚ) ≤ mantissa := by exact_mod_cast beyond
  refine absurd (missed.trans_le ?_) (not_lt.2 near.below)
  rw [zpow_add₀ (by norm_num), mul_comm]
  gcongr
  split <;> norm_num <;> linarith

/-- A number near to a double is rounded to it. -/
theorem nearestBits_of_near (double : IsDouble mantissa exponent) (nonzero : 0 < mantissa)
    (positive : 0 < den) (near : Near mantissa exponent (num / den)) :
    nearestBits num den = magnitudeOf mantissa exponent := by
  obtain ⟨short, least, most, filled⟩ := double
  have step : (0 : ℚ) < 2 ^ exponent := by positivity
  have one : (1 : ℚ) ≤ mantissa := by exact_mod_cast nonzero
  -- The shorter step below a power of two lies within the longer one.
  have low : ((mantissa : ℚ) - 1 / 2) * 2 ^ exponent ≤ num / den := by
    refine le_trans ?_ near.below
    gcongr
    split <;> norm_num
  have number : 0 < num := by
    by_contra zero
    obtain rfl : num = 0 := by omega
    rw [Nat.cast_zero, zero_div] at low
    have : 0 < ((mantissa : ℚ) - 1 / 2) * 2 ^ exponent := mul_pos (by linarith) step
    linarith
  obtain ⟨floor, ceiling⟩ := quotientLog_spec number positive
  -- The mantissa has at most fifty-three bits, and so has what is rounded to it.
  have upper : quotientLog num den < exponent + 53 := by
    rw [← zpow_lt_zpow_iff_right₀ (one_lt_two : (1 : ℚ) < 2)]
    refine lt_of_le_of_lt (floor.trans near.above) ?_
    rw [zpow_add₀ (by norm_num), mul_comm]
    gcongr
    rw [leastNormal_eq] at short
    have : (mantissa + 1 : ℚ) ≤ 2 ^ 53 := by exact_mod_cast (by omega : mantissa + 1 ≤ 2 ^ 53)
    exact_mod_cast (by linarith : (mantissa + 1 / 2 : ℚ) < 2 ^ 53)
  -- Is the number rounded with the step of the double, or with the shorter one below it?
  by_cases reached : (2 : ℚ) ^ (exponent + 52) ≤ num / den ∨ exponent = leastExponent
  · refine nearestBits_eq number positive ?_ low near.above fun one => (near.odd one).symm
    rcases reached with reached | rfl
    · have lower : exponent + 52 < quotientLog num den + 1 := by
        rw [← zpow_lt_zpow_iff_right₀ (one_lt_two : (1 : ℚ) < 2)]
        exact lt_of_le_of_lt reached ceiling
      rw [max_eq_left (by omega)]
      omega
    · exact max_eq_right (by omega)
  · obtain ⟨missed, normal⟩ := not_or.1 reached
    -- What is below the full length is rounded with a shorter step.
    have half : (2 : ℚ) ^ exponent = 2 * 2 ^ (exponent - 1) := by
      rw [← zpow_one_add₀ (by norm_num)]
      congr 1
      omega
    have plain : (leastNormal : ℚ) = 2 ^ 52 := by
      rw [leastNormal_eq]
      norm_num
    have shorter : leastExponent < exponent := lt_of_le_of_ne least (Ne.symm normal)
    obtain rfl : mantissa = leastNormal :=
      near.eq_leastNormal (filled.resolve_right normal) (not_le.1 missed)
    have below := near.below
    rw [if_pos ⟨rfl, shorter⟩, plain, half] at below
    refine nearestBits_below_power number positive shorter (by linarith)
      (lt_of_lt_of_eq (not_le.1 missed) ?_)
    rw [zpow_add₀ (by norm_num), half]
    norm_num
    ring

end

/-- Rounding to a whole number changes a quotient by a half at most. -/
theorem roundHalfEven_close (num : Nat) {den : Nat} (positive : 0 < den) :
    |(roundHalfEven num den : ℚ) - num / den| ≤ 1 / 2 := by
  have real : (0 : ℚ) < den := by exact_mod_cast positive
  have parts : (num : ℚ) = den * (num / den : Nat) + (num % den : Nat) := by
    exact_mod_cast (Nat.div_add_mod num den).symm
  have rest : ((num % den : Nat) : ℚ) < den := by exact_mod_cast Nat.mod_lt num positive
  have quotient : (num / den : ℚ) = (num / den : Nat) + (num % den : Nat) / den := by
    rw [parts]
    field_simp
  unfold roundHalfEven
  simp only
  rw [quotient, abs_le]
  -- It goes up where the rest is a half at least, and down where it is a half at most.
  split
  · rename_i upper
    have half : (den : ℚ) ≤ 2 * (num % den : Nat) := by
      exact_mod_cast upper.elim le_of_lt fun tie => tie.1.ge
    have low : (1 / 2 : ℚ) ≤ (num % den : Nat) / den := by
      rw [le_div_iff₀ real]
      linarith
    have high : ((num % den : Nat) : ℚ) / den < 1 := (div_lt_one real).2 rest
    push_cast
    constructor <;> linarith
  · rename_i lower
    have half : 2 * ((num % den : Nat) : ℚ) ≤ den := by
      exact_mod_cast not_lt.1 fun less => lower (.inl less)
    have high : ((num % den : Nat) : ℚ) / den ≤ 1 / 2 := by
      rw [div_le_iff₀ real]
      linarith
    have low : (0 : ℚ) ≤ (num % den : Nat) / den := by positivity
    constructor <;> linarith

/-- A mantissa that has been rounded up to a power of two is carried into the next binade. -/
theorem exists_normal {whole : Nat} {exponent : Int} (least : 2 ^ 52 ≤ whole)
    (most : whole ≤ 2 ^ 53) (normal : leastExponent ≤ exponent) :
    ∃ mantissa scale, IsNormal mantissa scale ∧
      magnitudeOf mantissa scale = magnitudeOf whole exponent ∧
      valueOf mantissa scale = valueOf whole exponent := by
  -- Only the power of two itself is too long, and a larger exponent makes up for the zero dropped.
  rcases Nat.lt_or_eq_of_le most with short | rfl
  · refine ⟨whole, exponent, ⟨?_, ?_, normal⟩, rfl, rfl⟩ <;> rw [leastNormal_eq] <;> omega
  · refine ⟨2 ^ 52, exponent + 1, ⟨?_, ?_, by omega⟩, ?_, ?_⟩
    · rw [leastNormal_eq]
    · rw [leastNormal_eq]
      norm_num
    · simp only [magnitudeOf, leastNormal_eq, leastExponent] at normal ⊢
      omega
    · rw [valueOf, valueOf, zpow_add₀ (by norm_num)]
      push_cast
      ring

/--
A quotient whose mantissa has its full length is rounded to one of that length, or to the power of
two above. The result is at most half a step away.
-/
theorem nearestBits_full {num den : Nat} {exponent : Int} (nonzero : 0 < num) (positive : 0 < den)
    (scale : max (quotientLog num den - 52) leastExponent = exponent)
    (low : 2 ^ 52 * 2 ^ exponent ≤ (num / den : ℚ))
    (high : (num / den : ℚ) < 2 ^ 53 * 2 ^ exponent) :
    ∃ whole, nearestBits num den = magnitudeOf whole exponent ∧ 2 ^ 52 ≤ whole ∧ whole ≤ 2 ^ 53 ∧
      |whole * 2 ^ exponent - (num / den : ℚ)| ≤ 2 ^ exponent / 2 := by
  have step : (0 : ℚ) < 2 ^ exponent := by positivity
  obtain ⟨scaledNum, scaledDen, some, scaled, bits⟩ := nearestBits_scaled nonzero positive scale
  have close := roundHalfEven_close scaledNum some
  rw [scaled] at close
  generalize roundHalfEven scaledNum scaledDen = whole at close bits
  obtain ⟨below, above⟩ := abs_le.1 close
  rw [neg_le_sub_iff_le_add, div_le_iff₀ step] at below
  rw [sub_le_iff_le_add, ← sub_le_iff_le_add', le_div_iff₀ step] at above
  -- The powers of two at both ends are whole, so that rounding does not pass them.
  refine ⟨whole, bits, ?_, ?_, ?_⟩
  · have : (2 ^ 52 : ℚ) < whole + 1 := by
      have := le_of_mul_le_mul_right (low.trans below) step
      linarith
    exact Nat.le_of_lt_succ (by exact_mod_cast this)
  · have : (whole : ℚ) < 2 ^ 53 + 1 := by
      have := lt_of_mul_lt_mul_right (above.trans_lt high) step.le
      linarith
    exact Nat.le_of_lt_succ (by exact_mod_cast this)
  · rw [abs_le]
    constructor <;> linarith

/--
A quotient that is not too small is rounded to a normal mantissa. The result differs from it by the
smallest part of the mantissa at most, and does not fall below a power of two that it reaches.
-/
theorem nearestBits_close {num den : Nat} (positive : 0 < den)
    (large : (2 : ℚ) ^ (-1000 : Int) ≤ num / den) :
    ∃ mantissa exponent, IsNormal mantissa exponent ∧
      nearestBits num den = magnitudeOf mantissa exponent ∧
      |valueOf mantissa exponent - num / den| ≤ num / den / 2 ^ 53 ∧
      ∀ power : Int, (2 : ℚ) ^ power ≤ num / den → 2 ^ power ≤ valueOf mantissa exponent := by
  have some : 0 < num := by
    refine Nat.pos_of_ne_zero fun zero => ?_
    rw [zero, Nat.cast_zero, zero_div] at large
    exact absurd large (not_le.2 (by positivity))
  obtain ⟨floor, ceiling⟩ := quotientLog_spec some positive
  have low : -1000 < quotientLog num den + 1 :=
    (zpow_lt_zpow_iff_right₀ (one_lt_two : (1 : ℚ) < 2)).1 (large.trans_lt ceiling)
  obtain ⟨exponent, log⟩ : ∃ exponent, quotientLog num den = exponent + 52 :=
    ⟨quotientLog num den - 52, by omega⟩
  rw [log] at floor ceiling low
  have normal : leastExponent ≤ exponent := by
    rw [leastExponent]
    omega
  -- The exponent leaves fifty-two places for the mantissa.
  have split (places : Nat) : (2 : ℚ) ^ (exponent + places) = 2 ^ places * 2 ^ exponent := by
    rw [zpow_add₀ (by norm_num), zpow_natCast, mul_comm]
  have floor' : (2 ^ 52 : ℚ) * 2 ^ exponent ≤ num / den := (split 52).ge.trans floor
  have ceiling' : (num / den : ℚ) < 2 ^ 53 * 2 ^ exponent :=
    ceiling.trans_eq ((congrArg _ (by omega)).trans (split 53))
  obtain ⟨whole, bits, least, most, close⟩ :=
    nearestBits_full some positive (by rw [log]; omega) floor' ceiling'
  obtain ⟨mantissa, scale, filled, magnitude, value⟩ := exists_normal least most normal
  refine ⟨mantissa, scale, filled, bits.trans magnitude.symm, ?_, fun power reached => ?_⟩
  · rw [value, valueOf]
    exact close.trans (by linarith)
  · -- A power of two below the quotient is at most that at the start of its binade.
    have inside : power < exponent + 53 :=
      (zpow_lt_zpow_iff_right₀ (one_lt_two : (1 : ℚ) < 2)).1
        (reached.trans_lt (ceiling'.trans_eq (split 53).symm))
    calc (2 : ℚ) ^ power ≤ 2 ^ (exponent + (52 : Nat)) :=
        zpow_le_zpow_right₀ one_le_two (by push_cast; omega)
      _ = 2 ^ 52 * 2 ^ exponent := split 52
      _ ≤ valueOf mantissa scale := by
        rw [value, valueOf]
        gcongr
        exact_mod_cast least

end Climb
