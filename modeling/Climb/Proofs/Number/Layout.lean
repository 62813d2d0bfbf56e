import Climb.Proofs.Number.DoubleText

/-! Which doubles are written in digits and a point alone. -/

namespace Climb

/-- A double that is written in digits alone: it is finite, and zero or not close to zero. -/
def IsPositional (value : Float) : Prop :=
  ∃ negative mantissa exponent, viewDouble value = .finite negative mantissa exponent ∧
    (mantissa = 0 ∨ 1 / 10000 ≤ valueOf mantissa exponent)

/-- The exact value of a number, unless it is infinite or no number at all. -/
def Number.rational? : Number → Option ℚ
  | int value => some value
  | float value =>
    match viewDouble value with
    | .finite negative mantissa exponent =>
      some (if negative then -valueOf mantissa exponent else valueOf mantissa exponent)
    | _ => none
  | bool value => some (if value then 1 else 0)

/-- A double that is a whole number has exactly that value. -/
theorem rational?_wholeValue {value : Float} {whole : Int}
    (known : wholeValue? value = some whole) :
    (Number.float value).rational? = some (whole : ℚ) := by
  unfold wholeValue? at known
  split at known
  · rename_i negative mantissa exponent view
    have value_eq := valueOf_eq_ratio mantissa exponent
    have positive := scaleQuotient_pos mantissa exponent Nat.one_pos
    simp only at known
    split at known
    · rename_i divides
      cases known
      -- The quotient is whole where the division leaves nothing, and then it is the value.
      have quotient : valueOf mantissa exponent =
          ((scaleQuotient mantissa 1 exponent).1 /
            (scaleQuotient mantissa 1 exponent).2 : Nat) := by
        rw [value_eq, ratio, Nat.cast_div (Nat.dvd_of_mod_eq_zero divides)
          (by exact_mod_cast positive.ne')]
      generalize (scaleQuotient mantissa 1 exponent).1 / (scaleQuotient mantissa 1 exponent).2 =
        magnitude at quotient ⊢
      simp only [Number.rational?, view, quotient]
      cases negative <;> simp
    · cases known
  · cases known

/-- A double that is not below zero is no whole number below zero. -/
theorem wholeValue?_nonneg {value : Float} {whole : Int} {mantissa : Nat} {exponent : Int}
    (view : viewDouble value = .finite false mantissa exponent)
    (known : wholeValue? value = some whole) : 0 ≤ whole := by
  -- The sign is compared among the values, where the whole number and the double are one.
  have exact := rational?_wholeValue known
  simp only [Number.rational?, view, Bool.false_eq_true, if_false, Option.some.injEq] at exact
  have : (0 : ℚ) ≤ whole := by
    rw [← exact, valueOf]
    positivity
  exact_mod_cast this

/-- A double that is no whole number has digits behind its binary point. -/
theorem exponent_lt_of_wholeValue? {value : Float} {negative : Bool} {mantissa : Nat}
    {exponent : Int} (view : viewDouble value = .finite negative mantissa exponent)
    (none : wholeValue? value = none) : exponent < 0 ∧ 0 < mantissa := by
  simp only [wholeValue?, view] at none
  split at none
  · cases none
  · rename_i rest
    -- The division leaves something, which neither an exponent from zero up nor a mantissa of zero
    -- does.
    constructor
    · by_contra above
      rw [scaleQuotient, if_neg above, Nat.mod_one] at rest
      exact rest rfl
    · refine Nat.pos_of_ne_zero fun zero => rest ?_
      subst zero
      unfold scaleQuotient
      split <;> simp

section

variable {mantissa : Nat} {exponent : Int}

/-- The point of digits is the place of their first digit. -/
theorem Digits.point_spec {digits : Digits} (positive : 0 < digits.value) :
    (10 : ℚ) ^ (digits.point - 1) ≤ digits.value ∧ digits.value < 10 ^ digits.point := by
  have nonzero : 0 < digits.whole := by
    refine Nat.pos_of_ne_zero fun zero => ?_
    rw [Digits.value, zero, Nat.cast_zero, zero_mul] at positive
    exact lt_irrefl _ positive
  -- The digits begin with one that is not zero, so their count tells the power of ten below them.
  obtain ⟨least, most⟩ := decimalChars_length nonzero
  have some := List.length_pos_iff.2 (decimalChars_ne_nil digits.whole)
  generalize length_eq : (decimalChars digits.whole).length = length at *
  have grid : (0 : ℚ) < 10 ^ (digits.point - length) := by positivity
  have low : (10 : ℚ) ^ (digits.point - 1) =
      (10 ^ (length - 1) : Nat) * 10 ^ (digits.point - length) := by
    rw [Nat.cast_pow, ← zpow_natCast, Nat.cast_ofNat, ← zpow_add₀ (by norm_num)]
    congr 1
    omega
  have high : (10 : ℚ) ^ digits.point = (10 ^ length : Nat) * 10 ^ (digits.point - length) := by
    rw [Nat.cast_pow, ← zpow_natCast, Nat.cast_ofNat, ← zpow_add₀ (by norm_num)]
    congr 1
    omega
  -- On the grid of the last digit both bounds are whole numbers.
  rw [low, high, Digits.value, length_eq]
  exact ⟨by gcongr, by gcongr⟩

/-- The shortest digits of a positive double stand for a positive number. -/
theorem shortestDigits_pos (double : IsDouble mantissa exponent) (nonzero : 0 < mantissa) :
    0 < (shortestDigits mantissa exponent).value := by
  -- Digits near to a double are not below the power of ten under it.
  obtain ⟨-, low, -⟩ := shortestDigits_spec double nonzero
  exact lt_of_lt_of_le (by positivity) low

/-- A double with digits behind its binary point is too small for a large exponent. -/
theorem point_le_of_fraction (double : IsDouble mantissa exponent) (nonzero : 0 < mantissa)
    (fraction : exponent < 0) : (shortestDigits mantissa exponent).point ≤ 16 := by
  obtain ⟨low, -⟩ := (shortestDigits_pos double nonzero |> Digits.point_spec)
  obtain ⟨near, -⟩ := shortestDigits_spec double nonzero
  have short : (mantissa + 1 : ℚ) ≤ 2 ^ 53 := by
    exact_mod_cast lt_of_lt_of_eq double.short (by rw [leastNormal_eq]; norm_num)
  -- Digits behind the binary point halve the mantissa at least, and 2 ^ 52 has sixteen digits.
  have less : (10 : ℚ) ^ ((shortestDigits mantissa exponent).point - 1) < 10 ^ (16 : Int) := calc
    _ ≤ (mantissa + 1 / 2 : ℚ) * 2 ^ exponent := low.trans near.above
    _ ≤ 2 ^ 53 * 2 ^ (-1 : Int) :=
      mul_le_mul (by linarith) (zpow_le_zpow_right₀ one_le_two (by omega)) (by positivity)
        (by positivity)
    _ < 10 ^ (16 : Int) := by norm_num
  have := (zpow_lt_zpow_iff_right₀ (by norm_num)).1 less
  omega

/-- A double from a ten-thousandth up has at most three zeros behind the point. -/
theorem point_gt_of_large (double : IsDouble mantissa exponent) (nonzero : 0 < mantissa)
    (large : 1 / 10000 ≤ valueOf mantissa exponent) :
    -4 < (shortestDigits mantissa exponent).point := by
  have plain : (1 / 10000 : ℚ) = 10 ^ (-4 : Int) := by norm_num
  obtain ⟨-, inside⟩ := decimalPoint_spec double nonzero
  obtain ⟨-, low, -⟩ := shortestDigits_spec double nonzero
  obtain ⟨-, high⟩ := (shortestDigits_pos double nonzero |> Digits.point_spec)
  rw [plain] at large
  -- The number is between two powers of ten, and so are its digits: the exponents compare alike.
  have first := (zpow_lt_zpow_iff_right₀ (by norm_num)).1 (large.trans_lt inside)
  have second := (zpow_lt_zpow_iff_right₀ (by norm_num)).1 (low.trans_lt high)
  omega

/-- A double below a ten-thousandth has four zeros behind the point at least. -/
theorem point_le_of_small (double : IsDouble mantissa exponent) (nonzero : 0 < mantissa)
    (small : valueOf mantissa exponent < 1 / 10000) :
    (shortestDigits mantissa exponent).point ≤ -4 := by
  have plain : (1 / 10000 : ℚ) = 10 ^ (-4 : Int) := by norm_num
  obtain ⟨reached, -⟩ := decimalPoint_spec double nonzero
  obtain ⟨near, -, high⟩ := shortestDigits_spec double nonzero
  obtain ⟨low, -⟩ := shortestDigits_pos double nonzero |> Digits.point_spec
  have first := (zpow_lt_zpow_iff_right₀ (by norm_num)).1 (reached.trans_lt (plain ▸ small))
  -- The digits may reach the next power of ten, so this alone is not enough.
  have most : (shortestDigits mantissa exponent).value ≤ 1 / 10000 := by
    rw [plain]
    exact high.trans (zpow_le_zpow_right₀ (by norm_num) (by omega))
  -- The double next to a ten-thousandth is not below it, so the digits of no smaller one reach it.
  have less : (shortestDigits mantissa exponent).value < 1 / 10000 := by
    refine lt_of_le_of_ne most fun same => ?_
    rw [same] at near
    have rounded := nearestBits_of_near double nonzero (by decide : 0 < 10000)
      (by exact_mod_cast near : Near mantissa exponent ((1 : Nat) / (10000 : Nat)))
    have known : nearestBits 1 10000 = magnitudeOf 7378697629483821 (-66) := by decide +kernel
    have other : IsDouble 7378697629483821 (-66) := by
      constructor <;> decide
    have bits := double.viewBits_eq false
    rw [← rounded, known, other.viewBits_eq] at bits
    obtain ⟨-, rfl, rfl⟩ := DoubleView.finite.inj bits
    refine absurd small (not_lt.2 ?_)
    norm_num [valueOf]
  have second := (zpow_lt_zpow_iff_right₀ (by norm_num)).1 (low.trans_lt (plain ▸ less))
  omega

/-- A decimal is read as a finite double of its sign, or as infinity. -/
theorem viewDouble_decimalDouble (negative : Bool) (digits : Nat) (power : Int) :
    viewDouble (decimalDouble negative digits power) = .infinite negative ∨
      ∃ mantissa exponent, viewDouble (decimalDouble negative digits power) =
        .finite negative mantissa exponent := by
  have given (magnitude : Nat) (inside : magnitude ≤ infinityBits) :
      viewDouble (doubleOfMagnitude negative magnitude) = .infinite negative ∨
        ∃ mantissa exponent, viewDouble (doubleOfMagnitude negative magnitude) =
          .finite negative mantissa exponent := by
    rcases Nat.eq_or_lt_of_le inside with rfl | finite
    · exact .inl (viewDouble_infinity negative)
    · obtain ⟨mantissa, exponent, double, rfl⟩ := exists_double finite
      exact .inr ⟨mantissa, exponent, double.viewDouble_eq⟩
  -- Zero, out of range, or rounded: each is a magnitude up to infinity.
  unfold decimalDouble
  simp only
  split
  · exact given 0 (Nat.zero_le _)
  · split
    · exact given infinityBits le_rfl
    · exact given _ (Nat.min_le_right _ _)

end

end Climb
