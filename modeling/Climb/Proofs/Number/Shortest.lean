import Climb.Proofs.Number.Rounding
import Climb.Proofs.Number.Writing

/-! The shortest digits of a double read back as it. -/

namespace Climb

/-- Powers of ten are the usual ones. -/
@[simp] theorem cast_tenPow (exponent : Nat) : (tenPow exponent : ℚ) = 10 ^ exponent := by
  simp [tenPow]

/-- A power of ten is positive. -/
theorem tenPow_pos (exponent : Nat) : 0 < tenPow exponent :=
  Nat.pow_pos (by decide)

section

variable (whole : Nat) (power : Int)

/-- A decimal stands for its digits times a power of ten. -/
theorem ratio_decimalQuotient : ratio (decimalQuotient whole power) = whole * 10 ^ power := by
  unfold decimalQuotient
  -- A negative power is kept in the denominator, so that both parts stay whole.
  split
  · rename_i below
    have places : power = -((-power).toNat : Int) := by omega
    rw [places, zpow_neg, zpow_natCast, ← places, ratio, cast_tenPow, div_eq_mul_inv]
  · rename_i above
    have places : power = (power.toNat : Int) := by omega
    rw [places, zpow_natCast, ← places, ratio, Nat.cast_mul, cast_tenPow, Nat.cast_one, div_one]

/-- The denominator of a decimal is positive. -/
theorem decimalQuotient_pos : 0 < (decimalQuotient whole power).2 := by
  unfold decimalQuotient
  split
  · exact tenPow_pos _
  · exact Nat.one_pos

end

section

variable {mantissa : Nat} {exponent : Int}

/-- A quotient in quarters of a step. -/
theorem ratio_quarters (quarters : Nat) (exponent : Int) :
    ratio (scaleQuotient quarters 4 exponent) = quarters / 4 * 2 ^ exponent := by
  -- The search compares in quarters, as the shorter step below a power of two ends at a quarter.
  rw [ratio_scaleQuotient]
  norm_num

/-- A decimal reads back as a double if it is near to it. -/
theorem readsBack_iff (nonzero : 0 < mantissa) (whole : Nat) (power : Int) :
    readsBack mantissa exponent whole power = true ↔
      Near mantissa exponent (whole * 10 ^ power) := by
  have decimal := decimalQuotient_pos whole power
  have scaled (num : Nat) : 0 < (scaleQuotient num 4 exponent).2 :=
    scaleQuotient_pos num exponent (by decide)
  -- The ends of the interval, in quarters of a step.
  have top : ((4 * mantissa + 2 : Nat) / 4 : ℚ) = mantissa + 1 / 2 := by
    push_cast
    ring
  have bottom : ((4 * mantissa - 2 : Nat) / 4 : ℚ) = mantissa - 1 / 2 := by
    rw [Nat.cast_sub (by omega)]
    push_cast
    ring
  have shorter : ((4 * mantissa - 1 : Nat) / 4 : ℚ) = mantissa - 1 / 4 := by
    rw [Nat.cast_sub (by omega)]
    push_cast
    ring
  unfold readsBack
  -- An even mantissa takes the ends of its interval as well, an odd one neither of them.
  by_cases even : mantissa % 2 = 0
  · simp only [if_pos even, Bool.and_eq_true]
    rw [quotientLe_iff (scaled _) decimal, quotientLe_iff decimal (scaled _), ratio_quarters,
      ratio_quarters, ratio_decimalQuotient, top]
    constructor
    · rintro ⟨below, above⟩
      refine ⟨above, ?_, fun odd => by omega⟩
      split at below
      · rwa [if_pos ‹_›, ← shorter]
      · rwa [if_neg ‹_›, ← bottom]
    · rintro ⟨above, below, -⟩
      refine ⟨?_, above⟩
      split
      · rwa [if_pos ‹_›, ← shorter] at below
      · rwa [if_neg ‹_›, ← bottom] at below
  · -- A power of two is even, so the step below an odd mantissa is never the shorter one.
    have normal : ¬(mantissa = leastNormal ∧ leastExponent < exponent) := by
      rintro ⟨rfl, -⟩
      exact even (by decide)
    simp only [if_neg even, if_neg normal, Bool.and_eq_true, Bool.not_eq_true', ← Bool.not_eq_true]
    rw [quotientLe_iff decimal (scaled _), quotientLe_iff (scaled _) decimal, ratio_quarters,
      ratio_quarters, ratio_decimalQuotient, top, bottom, not_le, not_le]
    constructor
    · rintro ⟨below, above⟩
      exact ⟨above.le, by rw [if_neg normal]; exact below.le, fun _ => ⟨above, below⟩⟩
    · rintro ⟨-, -, odd⟩
      exact (odd (by omega)).symm

/-- The value of a double as a quotient. -/
theorem valueOf_eq_ratio (mantissa : Nat) (exponent : Int) :
    valueOf mantissa exponent = ratio (scaleQuotient mantissa 1 exponent) := by
  rw [ratio_scaleQuotient, valueOf, Nat.cast_one, div_one]

/-- The neighbours of a double on a decimal grid are on both sides of it. -/
theorem decimalFloor_spec (mantissa : Nat) (exponent power : Int) :
    decimalFloor mantissa exponent power * 10 ^ power ≤ valueOf mantissa exponent ∧
      valueOf mantissa exponent < (decimalFloor mantissa exponent power + 1) * 10 ^ power := by
  have grid : (0 : ℚ) < 10 ^ power := by positivity
  -- Either power of ten leaves one quotient of natural numbers, whose floor is the one computed.
  obtain ⟨num, den, positive, floor, exact⟩ : ∃ num den : Nat, 0 < den ∧
      decimalFloor mantissa exponent power = num / den ∧
      (num / den : ℚ) = valueOf mantissa exponent / 10 ^ power := by
    have scaled := scaleQuotient_pos mantissa exponent Nat.one_pos
    rw [valueOf_eq_ratio]
    unfold decimalFloor ratio
    generalize scaleQuotient mantissa 1 exponent = quotient at scaled ⊢
    simp only
    split
    · rename_i below
      refine ⟨_, _, scaled, rfl, ?_⟩
      have places : power = -((-power).toNat : Int) := by omega
      rw [Nat.cast_mul, cast_tenPow, places, zpow_neg, zpow_natCast, ← places]
      field_simp
    · rename_i above
      refine ⟨_, _, Nat.mul_pos scaled (tenPow_pos _), rfl, ?_⟩
      have places : power = (power.toNat : Int) := by omega
      rw [Nat.cast_mul, cast_tenPow, places, zpow_natCast, ← places, div_div]
  have real : (0 : ℚ) < den := by exact_mod_cast positive
  rw [floor, ← le_div_iff₀ grid, ← div_lt_iff₀ grid, ← exact, div_lt_iff₀ real, mul_comm]
  exact ⟨Nat.cast_div_le, by exact_mod_cast Nat.lt_mul_div_succ num positive⟩

/-- The decimal logarithm of a power of two, rounded down, is the one guessed or the next. -/
theorem guess_upwards : ∀ row < 32, ∀ column < 32,
    tenPow ((32 * row + column) * 30103 / 100000) ≤ twoPow (32 * row + column) ∧
    twoPow (32 * row + column + 1) ≤ tenPow ((32 * row + column) * 30103 / 100000 + 2) := by
  -- All the logarithms there are, in rows so that neither bound is long.
  decide +kernel

/-- The decimal logarithm of a fraction of two, rounded down, is the one guessed or the next. -/
theorem guess_downwards : ∀ row < 34, ∀ column < 32,
    twoPow (32 * row + column) ≤ tenPow (((32 * row + column) * 30103 + 99999) / 100000) ∧
    2 * tenPow (((32 * row + column) * 30103 + 99999) / 100000) ≤
      100 * twoPow (32 * row + column) := by
  -- The same below one, where both sides have been turned upside down.
  decide +kernel

/-- The guess at a decimal logarithm is right or one too small for the logarithms of all doubles. -/
theorem guess_spec (log : Int) (least : -1074 ≤ log) (most : log ≤ 1023) :
    (10 : ℚ) ^ Int.fdiv (log * 30103) 100000 ≤ 2 ^ log ∧
      (2 : ℚ) ^ (log + 1) ≤ 10 ^ (Int.fdiv (log * 30103) 100000 + 2) := by
  rw [Int.fdiv_eq_ediv_of_nonneg _ (by decide)]
  -- The guess rounds towards minus infinity, so the two signs are taken from their own tables.
  rcases Int.le_total 0 log with above | below
  · obtain ⟨steps, rfl⟩ := Int.eq_ofNat_of_zero_le above
    obtain ⟨first, second⟩ := guess_upwards (steps / 32) (by omega) (steps % 32) (by omega)
    rw [Nat.div_add_mod] at first second
    have guess : (steps : Int) * 30103 / 100000 = (steps * 30103 / 100000 : Nat) := by omega
    rw [guess]
    have low : (tenPow (steps * 30103 / 100000) : ℚ) ≤ twoPow steps := by exact_mod_cast first
    have high : (twoPow (steps + 1) : ℚ) ≤ tenPow (steps * 30103 / 100000 + 2) := by
      exact_mod_cast second
    rw [cast_tenPow, cast_twoPow] at low high
    exact ⟨by exact_mod_cast low, by exact_mod_cast high⟩
  · obtain ⟨steps, rfl⟩ : ∃ steps : Nat, log = -(steps : Int) := ⟨(-log).toNat, by omega⟩
    obtain ⟨first, second⟩ := guess_downwards (steps / 32) (by omega) (steps % 32) (by omega)
    rw [Nat.div_add_mod] at first second
    have guess : -(steps : Int) * 30103 / 100000 = -((steps * 30103 + 99999) / 100000 : Nat) := by
      omega
    rw [guess]
    have low : (twoPow steps : ℚ) ≤ tenPow ((steps * 30103 + 99999) / 100000) := by
      exact_mod_cast first
    have high : (2 * tenPow ((steps * 30103 + 99999) / 100000) : ℚ) ≤ 100 * twoPow steps := by
      exact_mod_cast second
    rw [cast_tenPow, cast_twoPow] at low high
    -- Both sides are fractions here, and inverting them turns the table's bounds round.
    rw [zpow_add₀ (by norm_num), zpow_add₀ (by norm_num), zpow_neg, zpow_neg, zpow_natCast,
      zpow_natCast]
    refine ⟨inv_anti₀ (by positivity) low, ?_⟩
    rw [inv_mul_eq_div, inv_mul_eq_div, div_le_div_iff₀ (by positivity) (by positivity)]
    linarith

/-- The power of ten below a double, and the next one above it. -/
theorem decimalPoint_spec (double : IsDouble mantissa exponent) (nonzero : 0 < mantissa) :
    (10 : ℚ) ^ (decimalPoint mantissa exponent - 1) ≤ valueOf mantissa exponent ∧
      valueOf mantissa exponent < 10 ^ decimalPoint mantissa exponent := by
  obtain ⟨low, high⟩ := valueOf_log2 nonzero exponent
  -- The logarithm of a double is among those in the tables.
  have length : mantissa.log2 < 53 := by
    rw [Nat.log2_lt nonzero.ne']
    exact lt_of_lt_of_eq double.short (by rw [leastNormal_eq]; norm_num)
  have least := double.least
  have most := double.most
  rw [leastExponent] at least
  obtain ⟨below, above⟩ := guess_spec (mantissa.log2 + exponent) (by omega) (by omega)
  unfold decimalPoint
  simp only
  generalize Int.fdiv ((mantissa.log2 + exponent) * 30103) 100000 = guess at below above ⊢
  -- Which of the two powers it is, the program finds out by one comparison of quotients.
  have compared : quotientLe (decimalQuotient 1 (guess + 1)) (scaleQuotient mantissa 1 exponent) =
      true ↔ (10 : ℚ) ^ (guess + 1) ≤ valueOf mantissa exponent := by
    rw [quotientLe_iff (decimalQuotient_pos _ _) (scaleQuotient_pos _ _ Nat.one_pos),
      ratio_decimalQuotient, ← valueOf_eq_ratio, Nat.cast_one, one_mul]
  split
  · rename_i reached
    rw [add_sub_cancel_right, add_assoc]
    exact ⟨compared.1 reached, high.trans_le above⟩
  · rename_i missed
    rw [add_sub_cancel_right]
    exact ⟨below.trans low, not_le.1 fun reached => missed (compared.2 reached)⟩

/-- What differs from a double by less than the smallest part of its mantissa is near to it. -/
theorem near_of_close (double : IsDouble mantissa exponent) {number : ℚ}
    (close : |number - valueOf mantissa exponent| < valueOf mantissa exponent / 2 ^ 54) :
    Near mantissa exponent number := by
  have step : (0 : ℚ) < 2 ^ exponent := by positivity
  have short : (mantissa : ℚ) ≤ 2 ^ 53 := by
    exact_mod_cast (lt_of_lt_of_eq double.short (by rw [leastNormal_eq]; norm_num)).le
  rw [abs_lt, valueOf] at close
  obtain ⟨below, above⟩ := close
  -- The smallest part of the mantissa is at most half a step, as there are at most 2 ^ 53 of them.
  have part : (mantissa : ℚ) * 2 ^ exponent / 2 ^ 54 ≤ 1 / 2 * 2 ^ exponent := by
    rw [mul_div_right_comm]
    exact mul_le_mul_of_nonneg_right (by linarith) step.le
  refine ⟨by linarith, ?_, fun _ => ⟨by linarith, by linarith⟩⟩
  split
  · -- Below a power of two the part is half as large as elsewhere.
    rename_i shorter
    have plain : (mantissa : ℚ) = 2 ^ 52 := by
      rw [shorter.1, leastNormal_eq]
      norm_num
    rw [plain] at below ⊢
    linarith
  · linarith

/-- A neighbour on a grid is given if one of the two reads back. -/
theorem gridNeighbour?_isSome {power : Int}
    (hit : readsBack mantissa exponent (decimalFloor mantissa exponent power) power = true ∨
      readsBack mantissa exponent (decimalFloor mantissa exponent power + 1) power = true) :
    (gridNeighbour? mantissa exponent power).isSome := by
  unfold gridNeighbour?
  simp only
  -- One that reads back is taken, and of two the nearer one.
  split
  · split <;> rfl
  · split
    · rfl
    · rename_i missed
      rw [if_pos (hit.resolve_left missed)]
      rfl

/-- The neighbour that is given reads back. -/
theorem gridNeighbour?_spec {power : Int} {whole : Nat}
    (given : gridNeighbour? mantissa exponent power = some whole) :
    readsBack mantissa exponent whole power = true ∧
      (whole = decimalFloor mantissa exponent power ∨
        whole = decimalFloor mantissa exponent power + 1) := by
  unfold gridNeighbour? at given
  simp only at given
  -- Both may read back, or one of them: what is given has been tested in each case.
  split at given
  · rename_i both
    rw [Bool.and_eq_true] at both
    split at given <;> simp only [Option.some.injEq] at given
    all_goals
      split at given <;> subst given
      · exact ⟨both.1, .inl rfl⟩
      · exact ⟨both.2, .inr rfl⟩
  · split at given
    · rename_i low
      cases given
      exact ⟨low, .inl rfl⟩
    · split at given
      · rename_i high
        cases given
        exact ⟨high, .inr rfl⟩
      · cases given

/-- Of seventeen digits, one of the two neighbours of a double reads back. -/
theorem seventeen_suffice (double : IsDouble mantissa exponent) (nonzero : 0 < mantissa) :
    (gridNeighbour? mantissa exponent (decimalPoint mantissa exponent - 17)).isSome := by
  obtain ⟨reached, -⟩ := decimalPoint_spec double nonzero
  generalize power_eq : decimalPoint mantissa exponent - 17 = power
  obtain ⟨low, high⟩ := decimalFloor_spec mantissa exponent power
  have grid : (0 : ℚ) < 10 ^ power := by positivity
  -- The grid is at least 10 ^ 16 times finer than the double.
  have fine : (10 : ℚ) ^ power * 10 ^ 16 ≤ valueOf mantissa exponent := by
    refine le_trans (le_of_eq ?_) reached
    rw [← zpow_natCast, ← zpow_add₀ (by norm_num)]
    congr 1
    omega
  -- Half a step of this grid is less than the smallest part of the mantissa.
  have part : (10 : ℚ) ^ power / 2 < valueOf mantissa exponent / 2 ^ 54 := by
    rw [lt_div_iff₀ (by positivity)]
    linarith
  apply gridNeighbour?_isSome
  rw [readsBack_iff nonzero, readsBack_iff nonzero]
  -- Of the two neighbours the nearer one is at most half a step away.
  rcases le_total (valueOf mantissa exponent - decimalFloor mantissa exponent power * 10 ^ power)
    (10 ^ power / 2) with nearer | farther
  · refine .inl (near_of_close double (abs_lt.2 ⟨?_, ?_⟩)) <;> linarith
  · refine .inr (near_of_close double (abs_lt.2 ⟨?_, ?_⟩)) <;> push_cast <;> linarith

/-- What the search finds is a neighbour on one of the grids that it looks at. -/
theorem searchDigits_spec {point : Int} (tries count : Nat)
    (last : (gridNeighbour? mantissa exponent (point - (count + tries : Nat))).isSome) :
    ∃ shown whole, count ≤ shown ∧ shown ≤ count + tries ∧
      searchDigits mantissa exponent point (tries + 1) count = (whole, point - shown) ∧
      gridNeighbour? mantissa exponent (point - shown) = some whole := by
  -- Induction on the tries left, with the digits shown so far as the start: the last try is known
  -- to succeed, so the search stops there at the latest.
  induction tries generalizing count with
  | zero =>
    obtain ⟨whole, found⟩ := Option.isSome_iff_exists.1 last
    rw [Nat.add_zero] at found
    exact ⟨count, whole, le_rfl, le_rfl, by simp only [searchDigits, found], found⟩
  | succ tries ih =>
    cases found : gridNeighbour? mantissa exponent (point - count) with
    | some whole =>
      exact ⟨count, whole, le_rfl, by omega, by simp only [searchDigits, found], found⟩
    | none =>
      obtain ⟨shown, whole, low, high, result, given⟩ := ih (count + 1)
        (by rwa [Nat.add_right_comm])
      refine ⟨shown, whole, by omega, by omega, ?_, given⟩
      rw [searchDigits, found]
      exact result

/-- Zeros at the end of a whole number are dropped, and counted. -/
theorem dropZeros_spec (tries whole : Nat) :
    (dropZeros tries whole).1 * 10 ^ (dropZeros tries whole).2 = whole := by
  induction tries generalizing whole with
  | zero => simp [dropZeros]
  | succ tries ih =>
    unfold dropZeros
    -- A zero that is dropped is a factor of ten, and the count takes it over.
    split
    · rename_i zeros
      simp only
      rw [pow_succ, ← mul_assoc, ih]
      omega
    · simp

/-- A neighbour of a double on a grid lies between the same powers of ten, which it may reach. -/
theorem neighbour_bounds (double : IsDouble mantissa exponent) (nonzero : 0 < mantissa)
    {shown whole : Nat} (counted : 1 ≤ shown)
    (given : gridNeighbour? mantissa exponent (decimalPoint mantissa exponent - shown) =
      some whole) :
    (10 : ℚ) ^ (decimalPoint mantissa exponent - 1) ≤
        whole * 10 ^ (decimalPoint mantissa exponent - shown) ∧
      (whole : ℚ) * 10 ^ (decimalPoint mantissa exponent - shown) ≤
        10 ^ decimalPoint mantissa exponent := by
  obtain ⟨reached, inside⟩ := decimalPoint_spec double nonzero
  obtain ⟨low, high⟩ := decimalFloor_spec mantissa exponent (decimalPoint mantissa exponent - shown)
  obtain ⟨-, side⟩ := gridNeighbour?_spec given
  generalize decimalPoint mantissa exponent = point at *
  generalize decimalFloor mantissa exponent (point - shown) = floor at *
  have grid : (0 : ℚ) < 10 ^ (point - shown) := by positivity
  have bottom : (10 : ℚ) ^ (point - 1) = (10 ^ (shown - 1) : Nat) * 10 ^ (point - shown) := by
    rw [Nat.cast_pow, ← zpow_natCast, Nat.cast_ofNat, ← zpow_add₀ (by norm_num)]
    congr 1
    omega
  have top : (10 : ℚ) ^ point = (10 ^ shown : Nat) * 10 ^ (point - shown) := by
    rw [Nat.cast_pow, ← zpow_natCast, Nat.cast_ofNat, ← zpow_add₀ (by norm_num)]
    congr 1
    omega
  -- On the grid the powers of ten are whole numbers, so rounding does not pass them.
  rw [bottom] at reached ⊢
  rw [top] at inside ⊢
  have least : 10 ^ (shown - 1) < floor + 1 := by
    exact_mod_cast lt_of_mul_lt_mul_right (reached.trans_lt high) grid.le
  have most : floor < 10 ^ shown := by
    exact_mod_cast lt_of_mul_lt_mul_right (low.trans_lt inside) grid.le
  -- The floor and the next step both lie between those whole numbers.
  constructor <;> gcongr <;> omega

/-- The number that digits with a scale stand for. -/
def Digits.value (digits : Digits) : ℚ :=
  digits.whole * 10 ^ (digits.point - (decimalChars digits.whole).length)

/-- The shortest digits of a double are near to it, and between the same powers of ten. -/
theorem shortestDigits_spec (double : IsDouble mantissa exponent) (nonzero : 0 < mantissa) :
    Near mantissa exponent (shortestDigits mantissa exponent).value ∧
      (10 : ℚ) ^ (decimalPoint mantissa exponent - 1) ≤ (shortestDigits mantissa exponent).value ∧
      (shortestDigits mantissa exponent).value ≤ 10 ^ decimalPoint mantissa exponent := by
  obtain ⟨shown, whole, counted, -, found, given⟩ :=
    searchDigits_spec 16 1 (seventeen_suffice double nonzero)
  -- Dropping zeros at the end moves the scale and leaves the number.
  have value : (shortestDigits mantissa exponent).value =
      whole * 10 ^ (decimalPoint mantissa exponent - shown) := by
    have kept := dropZeros_spec 17 whole
    simp only [shortestDigits, found, Digits.value]
    generalize dropZeros 17 whole = parts at kept ⊢
    rw [← kept, add_sub_cancel_right, zpow_add₀ (by norm_num), zpow_natCast]
    push_cast
    ring
  rw [value]
  exact ⟨(readsBack_iff nonzero _ _).1 (gridNeighbour?_spec given).1,
    neighbour_bounds double nonzero counted given⟩

end

end Climb
