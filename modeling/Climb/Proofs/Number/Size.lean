import Climb.Proofs.Number.Gamma

/-! How large a whole number a power or a factorial can be. -/

namespace Climb

open Float.Model Float.Model.UnpackedFloat

namespace Number

/-- A positive whole number is rounded to a double that is not much below it. -/
theorem atLeast_toDouble {number : Number} {whole : Nat} {rounded : Float} (positive : 0 < whole)
    (known : number.whole? = some (whole : Int)) (result : number.toDouble = .ok rounded) :
    AtLeast (whole * (1 - 1 / 2 ^ 53)) rounded := by
  have one : (1 : ℚ) ≤ whole / (1 : Nat) := by
    rw [Nat.cast_one, div_one]
    exact_mod_cast positive
  have nearest := atLeast_nearestDouble Nat.one_pos one
  rw [Nat.cast_one, div_one] at nearest
  -- A double counts as no whole number, however whole its value is.
  cases number with
  | int value =>
    obtain rfl : value = whole := Option.some.inj known
    rw [toDouble, doubleOfInt?_natCast] at result
    split at result
    · rename_i double found
      rw [← Except.ok.inj result, eq_of_nearestDouble? found]
      exact nearest
    · cases result
  | float value => cases known
  | bool value =>
    -- Only truth counts as a positive number, and that is one.
    cases value with
    | false => exact absurd (Option.some.inj known) (by simp; omega)
    | true =>
      obtain rfl : whole = 1 := by
        have : (1 : Int) = whole := Option.some.inj known
        omega
      have exact : nearestDouble false 1 1 = rounded := Except.ok.inj result
      rwa [exact] at nearest

/-- The size limit as a number. -/
theorem cast_sizeLimit : (sizeLimit : ℝ) = 65536 := by
  have value : sizeLimit = 65536 := by decide
  rw [value, Nat.cast_ofNat]

/-- The parts of the size limit as a double. -/
theorem unpacked_sizeLimit : unpacked (nearestDouble false sizeLimit 1) =
    .finite .positive (2 ^ 52) (-36) (Nat.two_pow_pos 52) := by
  -- A power of two, so that nothing is lost in rounding it.
  have double : IsDouble (2 ^ 52) (-36) := by constructor <;> decide
  have magnitude : min (nearestBits sizeLimit 1) infinityBits = magnitudeOf (2 ^ 52) (-36) := by
    decide +kernel
  rw [nearestDouble, magnitude]
  exact unpacked_finite double.viewDouble_eq _

/-- A power that is not refused has a logarithm that is hardly over the size limit. -/
theorem logb_of_checked {base exponent : Number} {wholeBase : Int} {count : Nat}
    (checked : checkPowerSize base exponent = .ok ()) (first : base.whole? = some wholeBase)
    (second : exponent.whole? = some (count : Int)) (two : 1 < wholeBase.natAbs)
    (positive : 0 < count) :
    count * Real.logb 2 wholeBase.natAbs * (1 - 1 / 2 ^ 49) ≤ sizeLimit := by
  -- Were it more than that, the estimate would be above the limit as well, and the power refused.
  by_contra more
  rw [not_le] at more
  have limit := cast_sizeLimit
  have factor : (0 : ℝ) < count := by exact_mod_cast positive
  have one := one_le_logb two
  simp only [checkPowerSize, first, second] at checked
  rw [if_pos ⟨by exact_mod_cast positive, two⟩] at checked
  cases result : exponent.toDouble with
  | error failure =>
    rw [result] at checked
    cases checked
  | ok rounded =>
    -- Exponent, logarithm and product are rounded, each by a small part of it at most.
    have estimate := (atLeast_toDouble positive second result).mul (atLeast_logOfNat two)
      (mul_pos factor (by norm_num)) (mul_pos (by linarith) (by norm_num)) (by linarith)
    have greater : nearestDouble false sizeLimit 1 < rounded * logOfNat wholeBase.natAbs := by
      refine estimate.gt unpacked_sizeLimit (by constructor <;> decide) ?_
      have exact : ((valueOf (2 ^ 52) (-36) : ℚ) : ℝ) = 65536 := by
        norm_num [valueOf]
      rw [exact, ← limit]
      linarith
    rw [result] at checked
    change (if rounded * logOfNat wholeBase.natAbs > nearestDouble false sizeLimit 1 then _
      else _) = Except.ok () at checked
    rw [if_pos greater] at checked
    cases checked

/-- Powers are the usual ones, though bases that never grow are kept apart. -/
theorem powInt_eq (base : Int) (exponent : Nat) : powInt base exponent = base ^ exponent := by
  unfold powInt
  split
  · rename_i small
    rcases Nat.eq_zero_or_pos exponent with rfl | positive
    · rw [if_pos rfl, pow_zero]
    rw [if_neg positive.ne']
    -- A base that never grows is zero, one or the negative of one.
    rcases (by omega : base = 0 ∨ base = 1 ∨ base = -1) with rfl | rfl | rfl
    · rw [zero_pow positive.ne', mul_zero, ite_self]
    · rw [one_pow, mul_one, ite_self]
    · split
      · rename_i even
        rw [(Nat.even_iff.mpr even).neg_one_pow, neg_mul_neg, mul_one]
      · rename_i odd
        rw [(Nat.odd_iff.mpr (Nat.mod_two_ne_zero.mp odd)).neg_one_pow]
  · have magnitude : ((Nat.pow base.natAbs exponent : Nat) : Int) = |base| ^ exponent := by
      rw [Int.abs_eq_natAbs]
      exact Nat.cast_pow base.natAbs exponent
    simp only [magnitude]
    split
    · rename_i reversed
      rw [abs_of_neg reversed.1, (Nat.odd_iff.mpr reversed.2).neg_pow, neg_neg]
    · rename_i kept
      rcases Int.lt_or_le base 0 with negative | positive
      · have even : Even exponent := Nat.even_iff.mpr (by omega)
        rw [even.pow_abs]
      · rw [abs_of_nonneg positive]

/-- A power whose logarithm is hardly over the size limit is hardly over its power of two. -/
theorem pow_le_of_logb {base exponent : Nat} (positive : 0 < base)
    (short : exponent * Real.logb 2 base * (1 - 1 / 2 ^ 49) ≤ sizeLimit) :
    base ^ exponent * 2 ^ 32 ≤ 2 ^ sizeLimit * (2 ^ 32 + 1) := by
  -- What rounding can hide is one part in 2 ^ 49 of a logarithm of about 65536.
  have length : exponent * Real.logb 2 base ≤ sizeLimit + 1 / 2 ^ 32 := by
    rw [cast_sizeLimit] at short ⊢
    linarith
  have power : (base : ℝ) ^ exponent = 2 ^ (exponent * Real.logb 2 base) := by
    rw [mul_comm, Real.rpow_mul (by norm_num), Real.rpow_logb (by norm_num) (by norm_num)
      (by exact_mod_cast positive), Real.rpow_natCast]
  -- A root of two is at most one and as many parts of one, by Bernoulli's inequality.
  have root : (2 : ℝ) ^ ((1 : ℝ) / 2 ^ 32) ≤ 1 + 1 / 2 ^ 32 := by
    have bernoulli := rpow_one_add_le_one_add_mul_self (s := 1) (by norm_num)
      (p := (1 : ℝ) / 2 ^ 32) (by norm_num) (by norm_num)
    rwa [one_add_one_eq_two, mul_one] at bernoulli
  have real : (base : ℝ) ^ exponent ≤ 2 ^ sizeLimit * (1 + 1 / 2 ^ 32) :=
    calc (base : ℝ) ^ exponent = 2 ^ (exponent * Real.logb 2 base) := power
      _ ≤ 2 ^ ((sizeLimit : ℝ) + 1 / 2 ^ 32) :=
        Real.rpow_le_rpow_of_exponent_le (by norm_num) length
      _ = 2 ^ sizeLimit * 2 ^ ((1 : ℝ) / 2 ^ 32) := by
        rw [Real.rpow_add (by norm_num), Real.rpow_natCast]
      _ ≤ 2 ^ sizeLimit * (1 + 1 / 2 ^ 32) := mul_le_mul_of_nonneg_left root (by positivity)
  have scaled : (base : ℝ) ^ exponent * 2 ^ 32 ≤ 2 ^ sizeLimit * (2 ^ 32 + 1) :=
    calc (base : ℝ) ^ exponent * 2 ^ 32 ≤ 2 ^ sizeLimit * (1 + 1 / 2 ^ 32) * 2 ^ 32 :=
          mul_le_mul_of_nonneg_right real (by positivity)
      _ = 2 ^ sizeLimit * (2 ^ 32 + 1) := by ring
  exact_mod_cast scaled

/-- A power in doubles is never a whole number. -/
theorem powRounded_ne_int {base exponent : Number} {value : Int} :
    powRounded base exponent ≠ .ok (.int value) := by
  unfold powRounded
  repeat' split
  all_goals rintro ⟨⟩

/-- A power that is no refused one of two whole numbers is their exact power. -/
theorem pow_ok_iff {base exponent : Number} {value : Int} :
    pow base exponent = .ok (.int value) ↔
      checkPowerSize base exponent = .ok () ∧ ∃ (wholeBase : Int) (count : Nat),
        base.whole? = some wholeBase ∧ exponent.whole? = some (count : Int) ∧
        value = wholeBase ^ count := by
  unfold pow
  constructor
  · intro answered
    cases checked : checkPowerSize base exponent with
    | error failure =>
      rw [checked] at answered
      cases answered
    | ok passed =>
      refine ⟨rfl, ?_⟩
      rw [checked] at answered
      -- Only two whole operands, the exponent not below zero, have a power that is no double.
      cases first : base.whole? with
      | none =>
        rw [first] at answered
        exact absurd answered powRounded_ne_int
      | some wholeBase =>
        cases second : exponent.whole? with
        | none =>
          rw [first, second] at answered
          exact absurd answered powRounded_ne_int
        | some wholeExponent =>
          rw [first, second] at answered
          change (if 0 ≤ wholeExponent then Except.ok (int (powInt wholeBase wholeExponent.toNat))
            else powRounded base exponent) = _ at answered
          split at answered
          · rename_i enough
            refine ⟨wholeBase, wholeExponent.toNat, rfl, ?_, ?_⟩
            · rw [Int.toNat_of_nonneg enough]
            · rw [← powInt_eq]
              exact (Number.int.inj (Except.ok.inj answered)).symm
          · exact absurd answered powRounded_ne_int
  · rintro ⟨checked, wholeBase, count, first, second, rfl⟩
    rw [checked, first, second, ← powInt_eq]
    rfl

/--
A magnitude in the narrow band over the size limit: it is at least the limit's power of two, and
more than that by at most one part in `2 ^ 32`.
-/
def HardlyBeyond (magnitude : Nat) : Prop :=
  2 ^ sizeLimit ≤ magnitude ∧ magnitude * 2 ^ 32 ≤ 2 ^ sizeLimit * (2 ^ 32 + 1)

/-- Such a magnitude has just one bit more than the size limit. -/
theorem HardlyBeyond.lt {magnitude : Nat} (hardly : HardlyBeyond magnitude) :
    magnitude < 2 ^ (sizeLimit + 1) := by
  have positive : 0 < 2 ^ sizeLimit := Nat.two_pow_pos sizeLimit
  have narrow := hardly.2
  rw [Nat.pow_succ]
  generalize 2 ^ sizeLimit = bound at *
  omega

/-- A power that is not refused is within the size limit or hardly beyond it. -/
theorem pow_of_checked {base exponent : Number} {wholeBase : Int} {count : Nat}
    (checked : checkPowerSize base exponent = .ok ()) (first : base.whole? = some wholeBase)
    (second : exponent.whole? = some (count : Int)) :
    wholeBase.natAbs ^ count < 2 ^ sizeLimit ∨ HardlyBeyond (wholeBase.natAbs ^ count) := by
  -- Without a factor, or with factors that never grow, the power is one at most.
  have more : 1 < 2 ^ sizeLimit := Nat.one_lt_two_pow (by decide)
  rcases Nat.eq_zero_or_pos count with rfl | positive
  · exact .inl (by rwa [pow_zero])
  rcases Nat.lt_or_ge 1 wholeBase.natAbs with two | small
  · have narrow := pow_le_of_logb (by omega) (logb_of_checked checked first second two positive)
    rcases Nat.lt_or_ge (wholeBase.natAbs ^ count) (2 ^ sizeLimit) with within | beyond
    · exact .inl within
    · exact .inr ⟨beyond, narrow⟩
  · exact .inl (lt_of_le_of_lt (pow_le_one₀ (Nat.zero_le _) small) more)

/-- The factorials here are the usual ones. -/
theorem factorial_eq (number : Nat) : factorial number = number.factorial := by
  induction number with
  | zero => rfl
  | succ number ih => rw [factorial, ih, Nat.factorial_succ]

/-- The numbers up to `5910` are just those whose factorial has at most the limit's bits. -/
theorem factorial_lt_iff {number : Nat} : factorial number < 2 ^ sizeLimit ↔ number ≤ 5910 := by
  -- Factorials never fall, so the ones next to the limit decide about all others.
  have monotone {less more : Nat} (le : less ≤ more) : factorial less ≤ factorial more := by
    rw [factorial_eq, factorial_eq]
    exact Nat.factorial_le le
  constructor
  · intro fits
    by_contra beyond
    have first : 2 ^ sizeLimit ≤ factorial 5911 := by decide +kernel
    exact absurd (first.trans (monotone (by omega))) (Nat.not_le.mpr fits)
  · intro within
    have last : factorial 5910 < 2 ^ sizeLimit := by decide +kernel
    exact lt_of_le_of_lt (monotone within) last

/-- The estimate refuses just the factorials that have more bits than the size limit. -/
theorem isFactorialTooLarge_iff_length (number : Nat) :
    isFactorialTooLarge number = true ↔ ¬ factorial number < 2 ^ sizeLimit := by
  rw [isFactorialTooLarge_iff, factorial_lt_iff, Nat.not_le]

/-- The factorial of a number is given if the number is not negative and the factorial fits. -/
theorem factorialOf_ok_iff {given value : Int} : factorialOf given = .ok (.int value) ↔
    0 ≤ given ∧ value = factorial given.toNat ∧ value.natAbs < 2 ^ sizeLimit := by
  have length := isFactorialTooLarge_iff_length given.toNat
  unfold factorialOf
  constructor
  · intro answered
    split at answered
    · cases answered
    split at answered
    · cases answered
    rename_i enough within
    obtain rfl : (factorial given.toNat : Int) = value := Number.int.inj (Except.ok.inj answered)
    refine ⟨by omega, rfl, ?_⟩
    rw [Int.natAbs_natCast]
    exact not_not.mp fun beyond => within (length.mpr beyond)
  · rintro ⟨enough, rfl, fits⟩
    rw [Int.natAbs_natCast] at fits
    rw [if_neg (by omega), if_neg fun refused => length.mp refused fits]

/--
Whole results keep the size limit, but for powers in the narrow band over it.

A whole power is the exact one of two whole operands. It has no more bits than the size limit just
if that power is not hardly beyond the limit, and in any case has at most one bit more: the length
is estimated in doubles, and an estimate that is the limit itself passes. Factorials keep the limit.
-/
theorem whole_results_keep_the_size_limit_unless_hardly_beyond
    (base exponent operand : Number) (value : Int) :
    (applyBetween (some "^") base exponent = .ok (.int value) →
      ∃ (wholeBase : Int) (count : Nat),
        base.whole? = some wholeBase ∧ exponent.whole? = some (count : Int) ∧
        value = wholeBase ^ count ∧ value.natAbs < 2 ^ (sizeLimit + 1) ∧
        (value.natAbs < 2 ^ sizeLimit ↔ ¬ HardlyBeyond (wholeBase.natAbs ^ count))) ∧
    (applyAfter (some "!") operand = .ok (.int value) → value.natAbs < 2 ^ sizeLimit) := by
  constructor
  · intro answered
    obtain ⟨checked, wholeBase, count, first, second, rfl⟩ := pow_ok_iff.mp answered
    refine ⟨wholeBase, count, first, second, rfl, ?_⟩
    rw [Int.natAbs_pow]
    rcases pow_of_checked checked first second with within | beyond
    · have above : 2 ^ sizeLimit < 2 ^ (sizeLimit + 1) := Nat.pow_lt_pow_succ Nat.one_lt_two
      exact ⟨within.trans above, fun _ hardly => absurd within (Nat.not_lt.mpr hardly.1),
        fun _ => within⟩
    · exact ⟨beyond.lt, fun within => absurd within (Nat.not_lt.mpr beyond.1),
        fun apart => absurd beyond apart⟩
  · intro answered
    change operand.requireInt "!" >>= factorialOf = _ at answered
    cases read : operand.requireInt "!" with
    | error failure =>
      rw [read] at answered
      cases answered
    | ok given =>
      rw [read] at answered
      exact (factorialOf_ok_iff.mp answered).2.2

/-- The thousandth power of two and the factorial of a thousand are given, and keep the limit. -/
theorem power_and_factorial_of_a_thousand :
    applyBetween (some "^") (.int 2) (.int 1000) = .ok (.int (2 ^ 1000)) ∧
      applyAfter (some "!") (.int 1000) = .ok (.int (factorial 1000)) ∧
      ¬ HardlyBeyond ((2 : Int).natAbs ^ 1000) ∧ ((2 : Int) ^ 1000).natAbs < 2 ^ sizeLimit ∧
      (factorial 1000 : Int).natAbs < 2 ^ sizeLimit := by
  have power : applyBetween (some "^") (.int 2) (.int 1000) = .ok (.int (2 ^ 1000)) :=
    pow_ok_iff.mpr ⟨rfl, 2, 1000, rfl, rfl, rfl⟩
  have product : applyAfter (some "!") (.int 1000) = .ok (.int (factorial 1000)) :=
    applyAfter_factorial 1000 (by decide)
  have apart : ¬ HardlyBeyond ((2 : Int).natAbs ^ 1000) := by
    unfold HardlyBeyond
    decide +kernel
  obtain ⟨wholeBase, count, first, second, -, -, condition⟩ :=
    (whole_results_keep_the_size_limit_unless_hardly_beyond _ _ (.int 1000) _).1 power
  obtain rfl : (2 : Int) = wholeBase := Option.some.inj first
  obtain rfl : 1000 = count := by
    have : (1000 : Int) = count := Option.some.inj second
    omega
  exact ⟨power, product, apart, condition.mpr apart,
    (whole_results_keep_the_size_limit_unless_hardly_beyond (.int 2) (.int 2) _ _).2 product⟩

/-- Two to the size limit itself is computed, though it has one bit too many. -/
theorem two_to_the_size_limit_passes :
    applyBetween (some "^") (.int 2) (.int 65536) = .ok (.int (2 ^ 65536)) ∧
      ¬ ((2 : Int) ^ 65536).natAbs < 2 ^ sizeLimit :=
  ⟨pow_ok_iff.mpr ⟨rfl, 2, 65536, rfl, rfl, rfl⟩, by decide +kernel⟩

end Number

end Climb
