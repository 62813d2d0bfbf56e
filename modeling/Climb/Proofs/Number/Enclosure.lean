import Climb.Proofs.Number.Operations

/-! Operations on finite doubles give the exact results up to a small part of them. -/

namespace Climb

open Float.Model Float.Model.UnpackedFloat

/-- A number with a sign. -/
def signed : Sign → ℚ → ℚ
  | .negative, number => -number
  | .positive, number => number

/-- A sign does not change a distance. -/
theorem abs_signed_sub (sign : Sign) (one other : ℚ) :
    |signed sign one - signed sign other| = |one - other| := by
  cases sign with
  | negative => rw [signed, signed, neg_sub_neg, abs_sub_comm]
  | positive => rfl

/-- A sign does not change a magnitude. -/
theorem abs_signed (sign : Sign) (number : ℚ) : |signed sign number| = |number| := by
  cases sign with
  | negative => exact abs_neg number
  | positive => rfl

/-- Signs are multiplied with numbers. -/
theorem signed_mul (one other : Sign) (first second : ℚ) :
    signed one first * signed other second = signed (one * other) (first * second) := by
  cases one <;> cases other
  · exact neg_mul_neg first second
  · exact neg_mul first second
  · exact mul_neg first second
  · rfl

/-- Signs are divided with numbers. -/
theorem signed_div (one other : Sign) (first second : ℚ) :
    signed one first / signed other second = signed (one / other) (first / second) := by
  cases one <;> cases other
  · exact neg_div_neg_eq first second
  · exact neg_div second first
  · exact div_neg first
  · rfl

/-- The number that a finite double stands for. -/
inductive IsNumber (value : Float) : ℚ → Prop
  | zero {sign : Sign} (parts : unpacked value = .zero sign) : IsNumber value 0
  | finite {sign : Sign} {mantissa : Nat} {exponent : Int} {positive : 0 < mantissa}
    (parts : unpacked value = .finite sign mantissa exponent positive)
    (double : IsDouble mantissa exponent) :
    IsNumber value (signed sign (valueOf mantissa exponent))

/-- A double that stands for a number, up to a small part of that number and of one. -/
def Approximates (value : Float) (number : ℚ) : Prop :=
  ∃ rounded, IsNumber value rounded ∧ |rounded - number| ≤ (|number| + 1) / 2 ^ 52

section

variable {value : Float} {sign : Sign} {mantissa : Nat} {exponent : Int}

/-- The parts of a finite double tell its number. -/
theorem IsNumber.of_parts (double : IsDouble mantissa exponent)
    (parts : unpacked value = partsOf sign mantissa exponent) :
    IsNumber value (signed sign (valueOf mantissa exponent)) := by
  rw [partsOf] at parts
  -- A mantissa of zero is packed as zero, whatever its exponent was.
  split at parts
  · rename_i zero
    have none : signed sign (valueOf mantissa exponent) = 0 := by
      rw [zero, valueOf, Nat.cast_zero, zero_mul]
      cases sign <;> simp [signed]
    rw [none]
    exact .zero parts
  · exact .finite parts double

/-- The parts of a finite double are kept when they are packed. -/
theorem unpack_pack_partsOf (double : IsDouble mantissa exponent) :
    unpack Format.binary64 (pack Format.binary64 (partsOf sign mantissa exponent)) =
      partsOf sign mantissa exponent := by
  rw [partsOf]
  split
  · exact unpack_pack_zero sign
  · rw [unpack_pack_finite sign double.canonical, if_pos double.most]

/-- What rounding gives is a double, if the number that it stands for is not too large. -/
theorem IsCanonical.double (canonical : IsCanonical mantissa exponent)
    (moderate : valueOf mantissa exponent ≤ 2 ^ 101) : IsDouble mantissa exponent := by
  refine ⟨canonical.short, canonical.least, ?_, canonical.filled⟩
  -- A filled mantissa is one at least, so the power of two is bounded along with the number.
  rcases canonical.filled with filled | rfl
  · have least : (2 : ℚ) ^ exponent ≤ 2 ^ (101 : Int) := by
      refine le_trans ?_ moderate
      have one : (1 : ℚ) ≤ mantissa := by
        exact_mod_cast Nat.le_trans (by decide) filled
      exact le_mul_of_one_le_left (by positivity) one
    have := (zpow_le_zpow_iff_right₀ (one_lt_two : (1 : ℚ) < 2)).1 least
    omega
  · decide

/-- The unit that a mantissa is rounded to is a small part of its number, and of one. -/
theorem unit_le {exact : ℚ} (long : 52 ≤ mantissa.log2 ∨ exponent ≤ leastExponent)
    (low : valueOf mantissa exponent ≤ exact) :
    (2 : ℚ) ^ roundingExponent mantissa exponent ≤ (exact + 1) / 2 ^ 52 := by
  have some : 0 ≤ valueOf mantissa exponent := by
    rw [valueOf]
    positivity
  rw [roundingExponent]
  -- The unit is a part of the number itself, or the least one there is, which is a part of one.
  rcases max_choice (exponent + mantissa.log2 - 52) leastExponent with normal | least
  · have below : (2 : ℚ) ^ (exponent + mantissa.log2) ≤ exact + 1 := by
      rcases Nat.eq_zero_or_pos mantissa with rfl | positive
      · -- Without any bits the exponent is the least one.
        have tiny : exponent + (0 : Nat).log2 ≤ 0 := by
          rw [Nat.log2_zero] at long ⊢
          rw [leastExponent] at long
          omega
        linarith [zpow_le_one_of_nonpos₀ (one_le_two : (1 : ℚ) ≤ 2) tiny]
      · rw [add_comm exponent]
        linarith [(valueOf_log2 positive exponent).1]
    rw [normal, zpow_sub₀ two_ne_zero]
    exact div_le_div_of_nonneg_right below (by positivity)
  · rw [least]
    calc (2 : ℚ) ^ leastExponent ≤ 2 ^ (-52 : Int) :=
          zpow_le_zpow_right₀ one_le_two (by decide)
      _ = (0 + 1) / 2 ^ 52 := by norm_num
      _ ≤ (exact + 1) / 2 ^ 52 := by gcongr; exact some.trans low

namespace Approximates

/-- Rounding a mantissa that is long enough approximates the number it was taken from. -/
theorem of_rounded {accuracy : Accuracy} {exact : ℚ}
    (long : 52 ≤ mantissa.log2 ∨ exponent ≤ leastExponent)
    (low : valueOf mantissa exponent ≤ exact) (high : exact ≤ valueOf (mantissa + 1) exponent)
    (moderate : exact ≤ 2 ^ 100)
    (parts : unpacked value = unpack Format.binary64 (pack Format.binary64
      (roundWithAccuracy Format.binary64 sign mantissa exponent accuracy))) :
    Approximates value (signed sign exact) := by
  obtain ⟨rounded, scale, result, canonical, close⟩ :=
    roundWithAccuracy_close accuracy long sign low high
  have positive : 0 ≤ exact := by
    refine le_trans ?_ low
    rw [valueOf]
    positivity
  -- The number lies within one unit of what is kept, and the unit is a small part.
  have near : |valueOf rounded scale - exact| ≤ (exact + 1) / 2 ^ 52 :=
    close.trans (unit_le long low)
  -- Not being large, it stays among the finite doubles after rounding.
  have double : IsDouble rounded scale := canonical.double (by
    have := (abs_le.1 near).2
    norm_num at this moderate ⊢
    linarith)
  rw [result, unpack_pack_partsOf double] at parts
  refine ⟨_, .of_parts double parts, ?_⟩
  rwa [abs_signed_sub, abs_signed, abs_of_nonneg positive]

/-- Rounding a mantissa of any length approximates its number. -/
theorem of_round (sign : Sign) (nonzero : 0 < mantissa)
    (moderate : valueOf mantissa exponent ≤ 2 ^ 100)
    (parts : unpacked value = unpack Format.binary64 (pack Format.binary64
      (UnpackedFloat.round Format.binary64 sign mantissa exponent))) :
    Approximates value (signed sign (valueOf mantissa exponent)) := by
  obtain ⟨longer, scale, same, long, exact⟩ := round_eq sign exponent nonzero
  rw [same] at parts
  exact of_rounded long exact.le (exact ▸ valueOf_mono (Nat.le_succ longer) scale) moderate parts

/-- A number itself approximates itself. -/
theorem of_isNumber {number : ℚ} (known : IsNumber value number) : Approximates value number :=
  ⟨number, known, by rw [sub_self, abs_zero]; positivity⟩

/-- Rounding a whole number of units approximates it. -/
theorem of_normalize {whole : Int} (moderate : |whole * (2 : ℚ) ^ exponent| ≤ 2 ^ 100)
    (parts : unpacked value = unpack Format.binary64 (pack Format.binary64
      (normalize Format.binary64 whole exponent .positive))) :
    Approximates value (whole * 2 ^ exponent) := by
  rw [abs_mul, abs_of_pos (by positivity : (0 : ℚ) < 2 ^ exponent)] at moderate
  rw [UnpackedFloat.normalize] at parts
  -- The sign is taken off the whole number, and only its magnitude is rounded.
  rcases lt_trichotomy whole 0 with less | rfl | more
  · obtain ⟨magnitude, rfl⟩ : ∃ magnitude : Nat, whole = -magnitude := ⟨whole.natAbs, by omega⟩
    rw [Int.compare_eq_lt.2 less, neg_neg, Int.toNat_natCast] at parts
    rw [Int.cast_neg, abs_neg, Int.cast_natCast, Nat.abs_cast, ← valueOf] at moderate
    rw [Int.cast_neg, neg_mul, Int.cast_natCast, ← valueOf]
    exact of_round .negative (by omega) moderate parts
  · rw [Int.compare_eq_eq.2 rfl] at parts
    rw [Int.cast_zero, zero_mul]
    exact of_isNumber (.zero (parts.trans (unpack_pack_zero .positive)))
  · obtain ⟨magnitude, rfl⟩ := Int.eq_ofNat_of_zero_le more.le
    rw [Int.compare_eq_gt.2 more, Int.toNat_natCast] at parts
    rw [Int.cast_natCast, Nat.abs_cast, ← valueOf] at moderate
    rw [Int.cast_natCast, ← valueOf]
    exact of_round .positive (by omega) moderate parts

end Approximates

end

/-- Bringing a mantissa to a smaller exponent keeps its number. -/
theorem apply_decreaseExponent (sign : Sign) (mantissa : Nat) {exponent scale : Int}
    (less : scale ≤ exponent) :
    (sign.apply (decreaseExponent mantissa exponent scale).1 : ℚ) * 2 ^ scale =
      signed sign (valueOf mantissa exponent) := by
  -- The mantissa is shifted left by as many places as the exponent falls.
  obtain ⟨places, decreased, rfl⟩ := decreaseExponent_spec mantissa less
  rw [decreased, ← valueOf_shift, valueOf]
  cases sign with
  | negative => rw [Sign.apply, signed, Int.cast_neg, Int.cast_natCast, neg_mul]
  | positive => rw [Sign.apply, signed, Int.cast_natCast]

/-- A product is long enough to be rounded, or so small that not all bits are kept. -/
theorem long_mul {mantissa m : Nat} {exponent e : Int} (double : IsDouble mantissa exponent)
    (double' : IsDouble m e) (positive : 0 < mantissa) (positive' : 0 < m) :
    52 ≤ (mantissa * m).log2 ∨ exponent + e ≤ leastExponent := by
  have some := Nat.mul_pos positive positive'
  rcases double.filled with filled | rfl
  · -- The product of the mantissas is no shorter than one of them.
    rw [leastNormal_eq] at filled
    exact .inl ((Nat.le_log2 some.ne').2 (filled.trans (Nat.le_mul_of_pos_right _ positive')))
  rcases double'.filled with filled' | rfl
  · rw [leastNormal_eq] at filled'
    exact .inl ((Nat.le_log2 some.ne').2 (filled'.trans (Nat.le_mul_of_pos_left _ positive)))
  · exact .inr (by decide)

/-- A quotient is computed to so many bits that it can be rounded. -/
theorem divCore_spec {mantissa m : Nat} (exponent e : Int) (positive : 0 < mantissa)
    (positive' : 0 < m) : ∃ quotient scale accuracy,
      divCore Format.binary64 mantissa exponent m e = (quotient, scale, accuracy) ∧
      (52 ≤ quotient.log2 ∨ scale ≤ leastExponent) ∧
      valueOf quotient scale ≤ valueOf mantissa exponent / valueOf m e ∧
      valueOf mantissa exponent / valueOf m e ≤ valueOf (quotient + 1) scale := by
  have bits : (Format.binary64.mantissaBits : Int) = 53 := rfl
  have lowest : Format.binary64.minExponent = -1074 := by decide
  obtain ⟨target, at_target⟩ : ∃ target, min (exponent - e) (Format.binary64.targetExponent
    (totalExponent mantissa exponent - totalExponent m e)) = target := ⟨_, rfl⟩
  obtain ⟨places, shift⟩ : ∃ places : Nat, exponent - e - target = places :=
    ⟨(exponent - e - target).toNat, by omega⟩
  have real : (0 : ℚ) < m := by exact_mod_cast positive'
  -- At the target the exact quotient is that of a longer mantissa.
  have exact : valueOf mantissa exponent / valueOf m e =
      (mantissa * 2 ^ places : Nat) / m * 2 ^ target := by
    obtain rfl : exponent = e + target + places := by omega
    rw [← valueOf_shift, valueOf, valueOf, zpow_add₀ two_ne_zero]
    field_simp
  refine ⟨mantissa * 2 ^ places / m, target, accuracyOfFraction (mantissa * 2 ^ places % m) m,
    ?_, ?_, ?_, ?_⟩
  · simp only [divCore, at_target, shift, Int.toNat_natCast, Nat.shiftLeft_eq]
  · rw [Format.targetExponent, totalExponent, totalExponent, bits, lowest] at at_target
    rcases le_or_gt target leastExponent with small | large
    · exact .inr small
    · -- The shift makes the dividend fifty-two bits longer than the divisor at least.
      rw [leastExponent] at large
      have enough : 52 + (m.log2 + 1) ≤ mantissa.log2 + places := by omega
      have dividend : 2 ^ 52 * m ≤ mantissa * 2 ^ places :=
        calc 2 ^ 52 * m ≤ 2 ^ 52 * 2 ^ (m.log2 + 1) :=
              Nat.mul_le_mul_left _ Nat.lt_log2_self.le
          _ = 2 ^ (52 + (m.log2 + 1)) := (Nat.pow_add ..).symm
          _ ≤ 2 ^ (mantissa.log2 + places) := Nat.pow_le_pow_right (by decide) enough
          _ = 2 ^ mantissa.log2 * 2 ^ places := Nat.pow_add ..
          _ ≤ mantissa * 2 ^ places := Nat.mul_le_mul_right _ (Nat.log2_self_le positive.ne')
      have reached := (Nat.le_div_iff_mul_le positive').2 dividend
      exact .inl ((Nat.le_log2 (by omega)).2 reached)
  · -- The quotient is rounded down, and the remainder says by how much.
    rw [exact, valueOf]
    gcongr
    exact Nat.cast_div_le
  · rw [exact, valueOf]
    gcongr
    rw [div_le_iff₀ real]
    exact_mod_cast (Nat.lt_mul_of_div_lt (Nat.lt_succ_self _) positive').le

namespace IsNumber

variable {left right : Float} {one other : ℚ}

/-- Finite parts that have been packed tell a number. -/
theorem of_packed {value : Float} {sign : Sign} {mantissa : Nat} {exponent : Int}
    (double : IsDouble mantissa exponent) {positive : 0 < mantissa}
    (parts : unpacked value = unpack Format.binary64 (pack Format.binary64
      (.finite sign mantissa exponent positive))) :
    IsNumber value (signed sign (valueOf mantissa exponent)) := by
  rw [unpack_pack_finite sign double.canonical, if_pos double.most]
    at parts
  exact .finite parts double

/-- A zero that has been packed is zero. -/
theorem of_packed_zero {value : Float} {sign : Sign} (parts : unpacked value =
    unpack Format.binary64 (pack Format.binary64 (.zero sign))) : IsNumber value 0 :=
  .zero (parts.trans (unpack_pack_zero sign))

/-- The sum of two doubles approximates that of their numbers. -/
theorem add (first : IsNumber left one) (second : IsNumber right other)
    (moderate : |one + other| ≤ 2 ^ 100) : Approximates (left + right) (one + other) := by
  have rounded : unpacked (left + right) = unpack Format.binary64 (pack Format.binary64
    (UnpackedFloat.add Format.binary64 (unpacked left) (unpacked right))) := rfl
  -- A zero leaves the other number as it is; two zeros give one of either sign.
  cases first with
  | @zero sign parts =>
    cases second with
    | @zero sign' parts' =>
      rw [parts, parts'] at rounded
      rw [add_zero]
      cases sign <;> cases sign' <;> exact .of_isNumber (of_packed_zero rounded)
    | finite parts' double' =>
      rw [parts, parts'] at rounded
      rw [zero_add]
      exact .of_isNumber (of_packed double' rounded)
  | @finite sign mantissa exponent positive parts double =>
    cases second with
    | zero parts' =>
      rw [parts, parts'] at rounded
      rw [add_zero]
      exact .of_isNumber (of_packed double rounded)
    | @finite sign' m e positive' parts' double' =>
      -- Both numbers are brought to the smaller exponent, where their sum is exact.
      rw [parts, parts'] at rounded
      have exact := apply_decreaseExponent sign mantissa (min_le_left exponent e)
      have exact' := apply_decreaseExponent sign' m (min_le_right exponent e)
      rw [← exact, ← exact', ← add_mul, ← Int.cast_add] at moderate ⊢
      exact .of_normalize moderate rounded

/-- The difference of two doubles approximates that of their numbers. -/
theorem sub (first : IsNumber left one) (second : IsNumber right other)
    (moderate : |one - other| ≤ 2 ^ 100) : Approximates (left - right) (one - other) := by
  have rounded : unpacked (left - right) = unpack Format.binary64 (pack Format.binary64
    (UnpackedFloat.sub Format.binary64 (unpacked left) (unpacked right))) := rfl
  cases first with
  | @zero sign parts =>
    cases second with
    | @zero sign' parts' =>
      rw [parts, parts'] at rounded
      rw [sub_zero]
      cases sign <;> cases sign' <;> exact .of_isNumber (of_packed_zero rounded)
    | @finite sign' m e positive' parts' double' =>
      rw [parts, parts'] at rounded
      -- Zero minus a number is that number with the other sign.
      have negated : 0 - signed sign' (valueOf m e) = signed (-sign') (valueOf m e) := by
        cases sign' with
        | negative => exact (zero_sub _).trans (neg_neg _)
        | positive => exact zero_sub _
      rw [negated]
      exact .of_isNumber (of_packed double' rounded)
  | @finite sign mantissa exponent positive parts double =>
    cases second with
    | zero parts' =>
      rw [parts, parts'] at rounded
      rw [sub_zero]
      exact .of_isNumber (of_packed double rounded)
    | @finite sign' m e positive' parts' double' =>
      rw [parts, parts'] at rounded
      have exact := apply_decreaseExponent sign mantissa (min_le_left exponent e)
      have exact' := apply_decreaseExponent sign' m (min_le_right exponent e)
      rw [← exact, ← exact', ← sub_mul, ← Int.cast_sub] at moderate ⊢
      exact .of_normalize moderate rounded

/-- The product of two doubles approximates that of their numbers. -/
theorem mul (first : IsNumber left one) (second : IsNumber right other)
    (moderate : |one * other| ≤ 2 ^ 100) : Approximates (left * right) (one * other) := by
  have rounded : unpacked (left * right) = unpack Format.binary64 (pack Format.binary64
    (UnpackedFloat.mul Format.binary64 (unpacked left) (unpacked right))) := rfl
  -- A factor of zero gives zero, of either sign.
  cases first with
  | zero parts =>
    rw [zero_mul]
    cases second with
    | zero parts' | finite parts' double' =>
      rw [parts, parts'] at rounded
      exact .of_isNumber (of_packed_zero rounded)
  | @finite sign mantissa exponent positive parts double =>
    cases second with
    | zero parts' =>
      rw [parts, parts'] at rounded
      rw [mul_zero]
      exact .of_isNumber (of_packed_zero rounded)
    | @finite sign' m e positive' parts' double' =>
      rw [parts, parts'] at rounded
      rw [signed_mul, ← valueOf_mul, abs_signed] at moderate
      rw [signed_mul, ← valueOf_mul]
      exact .of_rounded (long_mul double double' positive positive') le_rfl
        (valueOf_mono (Nat.le_succ _) _) (le_of_abs_le moderate) rounded

/-- The quotient of two doubles approximates that of their numbers. -/
theorem div (first : IsNumber left one) (second : IsNumber right other) (nonzero : other ≠ 0)
    (moderate : |one / other| ≤ 2 ^ 100) : Approximates (left / right) (one / other) := by
  have rounded : unpacked (left / right) = unpack Format.binary64 (pack Format.binary64
    (UnpackedFloat.div Format.binary64 (unpacked left) (unpacked right))) := rfl
  -- The divisor is no zero, which would give infinity or no number.
  cases second with
  | zero parts' => exact absurd rfl nonzero
  | @finite sign' m e positive' parts' double' =>
    cases first with
    | zero parts =>
      rw [parts, parts'] at rounded
      rw [zero_div]
      exact .of_isNumber (of_packed_zero rounded)
    | @finite sign mantissa exponent positive parts double =>
      obtain ⟨quotient, scale, accuracy, core, long, low, high⟩ :=
        divCore_spec exponent e positive positive'
      rw [parts, parts', UnpackedFloat.div, core] at rounded
      rw [signed_div, abs_signed] at moderate
      rw [signed_div]
      exact .of_rounded long low high (le_of_abs_le moderate) rounded

end IsNumber

/-- The double nearest to a quotient approximates it. -/
theorem approximates_nearestDouble (num : Nat) {den : Nat} (positive : 0 < den)
    (large : num = 0 ∨ (2 : ℚ) ^ (-1000 : Int) ≤ num / den)
    (moderate : (num / den : ℚ) ≤ 2 ^ 100) (negative : Bool) :
    Approximates (nearestDouble negative num den) (signed (signOf negative) (num / den)) := by
  rcases large with rfl | large
  · -- Zero is the double with an empty mantissa.
    have zero : IsDouble 0 leastExponent := by constructor <;> decide
    have bits : nearestDouble negative 0 den =
        doubleOfMagnitude negative (magnitudeOf 0 leastExponent) := rfl
    have none : signed (signOf negative) ((0 : Nat) / den : ℚ) = 0 := by
      rw [Nat.cast_zero, zero_div]
      cases negative <;> simp [signOf, signed]
    rw [none, bits]
    exact .of_isNumber (.zero (unpacked_zero zero.viewDouble_eq))
  · obtain ⟨mantissa, exponent, normal, bits, close, -⟩ := nearestBits_close positive large
    have near : |valueOf mantissa exponent - num / den| ≤ (num / den + 1) / 2 ^ 52 := by
      have some : (0 : ℚ) ≤ num / den := by positivity
      linarith
    -- A number of moderate size is not rounded to infinity.
    have double : IsDouble mantissa exponent :=
      IsCanonical.double ⟨normal.short, normal.least, .inl normal.filled⟩ (by
        have := (abs_le.1 near).2
        norm_num at this moderate ⊢
        linarith)
    have parts : unpacked (nearestDouble negative num den) =
        .finite (signOf negative) mantissa exponent normal.pos := by
      rw [nearestDouble, bits, min_eq_left double.magnitude_lt.le]
      exact unpacked_finite double.viewDouble_eq normal.pos
    refine ⟨_, .finite parts double, ?_⟩
    rwa [abs_signed_sub, abs_signed, abs_of_nonneg (by positivity : (0 : ℚ) ≤ num / den)]

/-- A double above zero is compared with others by their numbers. -/
theorem IsNumber.lt_iff {left right : Float} {one other : ℚ} (first : IsNumber left one)
    (second : IsNumber right other) (positive : 0 < one) : left < right ↔ one < other := by
  have model : left < right ↔
      UnpackedFloat.lt (unpacked left) (unpacked right) = true := decide_eq_true_iff
  have above (mantissa : Nat) (exponent : Int) : 0 ≤ valueOf mantissa exponent := by
    rw [valueOf]
    positivity
  rw [model, UnpackedFloat.lt, beq_iff_eq]
  -- Only a positive left side is left, and it is compared by the kind of the right one.
  cases first with
  | zero parts => exact absurd positive (lt_irrefl 0)
  | @finite sign mantissa exponent some parts double =>
    cases sign with
    | negative => exact absurd positive (not_lt.2 (neg_nonpos.2 (above _ _)))
    | positive =>
      rw [parts]
      cases second with
      | zero parts' =>
        rw [parts']
        exact iff_of_false (by simp [UnpackedFloat.compare]) positive.not_gt
      | @finite sign' m e some' parts' double' =>
        rw [parts']
        cases sign' with
        | negative =>
          -- What has a sign is not greater than anything above zero.
          exact iff_of_false (by simp [UnpackedFloat.compare])
            (((neg_nonpos.2 (above m e)).trans positive.le).not_gt)
        | positive =>
          exact Option.some_inj.trans (compare_lt_iff double.canonical double'.canonical)

/-- A bound from below, less what rounding takes off there at most. -/
def lowered (bound : ℚ) : ℚ :=
  bound - (|bound| + 1) / 2 ^ 52

/-- A bound from above, with what rounding adds there at most. -/
def raised (bound : ℚ) : ℚ :=
  bound + (|bound| + 1) / 2 ^ 52

/-- A finite double whose number lies between two bounds. -/
def Within (low high : ℚ) (value : Float) : Prop :=
  ∃ number, IsNumber value number ∧ low ≤ number ∧ number ≤ high

/-- Bounds on a number are bounds on a double that approximates it, but for what rounding does. -/
theorem Approximates.within {value : Float} {number low high : ℚ}
    (near : Approximates value number) (below : low ≤ number) (above : number ≤ high) :
    Within (lowered low) (raised high) value := by
  obtain ⟨rounded, known, close⟩ := near
  obtain ⟨least, most⟩ := abs_le.1 close
  -- A larger number loses more, but not as much as it is larger.
  have first := abs_sub_abs_le_abs_sub number low
  have second := abs_sub_abs_le_abs_sub number high
  rw [abs_of_nonneg (sub_nonneg.2 below)] at first
  rw [abs_of_nonpos (sub_nonpos.2 above)] at second
  refine ⟨rounded, known, ?_, ?_⟩
  · rw [lowered]
    linarith
  · rw [raised]
    linarith

namespace Within

variable {left right : Float} {low high low' high' : ℚ}

/-- Wider bounds hold as well. -/
theorem mono (inside : Within low high left) (below : low' ≤ low) (above : high ≤ high') :
    Within low' high' left := by
  obtain ⟨number, known, least, most⟩ := inside
  exact ⟨number, known, below.trans least, most.trans above⟩

/-- Between bounds that are not large, rounding makes little difference. -/
theorem coarse (inside : Within (lowered low) (raised high) left) (least : -2 ^ 40 ≤ low)
    (wide : low ≤ high) (most : high ≤ 2 ^ 40) :
    Within (low - 1 / 2 ^ 11) (high + 1 / 2 ^ 11) left := by
  -- Of bounds up to 2 ^ 40, a part in 2 ^ 52 is less than one in 2 ^ 11.
  have first : |low| ≤ 2 ^ 40 := abs_le.2 ⟨least, wide.trans most⟩
  have second : |high| ≤ 2 ^ 40 := abs_le.2 ⟨least.trans wide, most⟩
  refine inside.mono ?_ ?_
  · norm_num [lowered] at first ⊢
    linarith
  · norm_num [raised] at second ⊢
    linarith

/-- The sum lies between the sums of the bounds. -/
theorem add (first : Within low high left) (second : Within low' high' right)
    (least : -2 ^ 100 ≤ low + low') (most : high + high' ≤ 2 ^ 100) :
    Within (lowered (low + low')) (raised (high + high')) (left + right) := by
  obtain ⟨one, known, below, above⟩ := first
  obtain ⟨other, known', below', above'⟩ := second
  have sum := add_le_add below below'
  have sum' := add_le_add above above'
  exact (known.add known' (abs_le.2 ⟨least.trans sum, sum'.trans most⟩)).within sum sum'

/-- The difference lies between the differences of opposite bounds. -/
theorem sub (first : Within low high left) (second : Within low' high' right)
    (least : -2 ^ 100 ≤ low - high') (most : high - low' ≤ 2 ^ 100) :
    Within (lowered (low - high')) (raised (high - low')) (left - right) := by
  obtain ⟨one, known, below, above⟩ := first
  obtain ⟨other, known', below', above'⟩ := second
  have difference := sub_le_sub below above'
  have difference' := sub_le_sub above below'
  exact (known.sub known' (abs_le.2 ⟨least.trans difference, difference'.trans most⟩)).within
    difference difference'

/-- The product lies between the products of the bounds, if these are not below zero. -/
theorem mul (first : Within low high left) (second : Within low' high' right)
    (positive : 0 ≤ low) (positive' : 0 ≤ low') (most : high * high' ≤ 2 ^ 100) :
    Within (lowered (low * low')) (raised (high * high')) (left * right) := by
  obtain ⟨one, known, below, above⟩ := first
  obtain ⟨other, known', below', above'⟩ := second
  have product := mul_le_mul below below' positive' (positive.trans below)
  have product' := mul_le_mul above above' (positive'.trans below')
    (positive.trans (below.trans above))
  refine (known.mul known' ?_).within product product'
  rw [abs_of_nonneg ((mul_nonneg positive positive').trans product)]
  exact product'.trans most

/-- The quotient lies between the quotients of opposite bounds, if these are not below zero. -/
theorem div (first : Within low high left) (second : Within low' high' right)
    (positive : 0 ≤ low) (positive' : 0 < low') (most : high / low' ≤ 2 ^ 100) :
    Within (lowered (low / high')) (raised (high / low')) (left / right) := by
  obtain ⟨one, known, below, above⟩ := first
  obtain ⟨other, known', below', above'⟩ := second
  have some := positive'.trans_le below'
  have quotient : low / high' ≤ one / other :=
    div_le_div₀ (positive.trans below) below some above'
  have quotient' : one / other ≤ high / low' :=
    div_le_div₀ (positive.trans (below.trans above)) above positive' below'
  refine (known.div known' some.ne' ?_).within quotient quotient'
  rw [abs_of_nonneg (div_nonneg (positive.trans below) some.le)]
  exact quotient'.trans most

/-- The quotient of what may have either sign lies between the quotients by the lower bound. -/
theorem div_of_nonpos (first : Within low high left) (second : Within low' high' right)
    (negative : low ≤ 0) (positive : 0 ≤ high) (positive' : 0 < low')
    (least : -2 ^ 100 ≤ low / low') (most : high / low' ≤ 2 ^ 100) :
    Within (lowered (low / low')) (raised (high / low')) (left / right) := by
  obtain ⟨one, known, below, above⟩ := first
  obtain ⟨other, known', below', -⟩ := second
  have some := positive'.trans_le below'
  -- A smaller divisor takes the quotient further from zero, on either side of it.
  have quotient : low / low' ≤ one / other := by
    rw [div_le_div_iff₀ positive' some]
    nlinarith
  have quotient' : one / other ≤ high / low' := by
    rw [div_le_div_iff₀ some positive']
    nlinarith
  exact (known.div known' some.ne' (abs_le.2 ⟨least.trans quotient, quotient'.trans most⟩)).within
    quotient quotient'

/-- A double above zero is less than one whose bounds are greater. -/
theorem lt (first : Within low high left) (second : Within low' high' right) (positive : 0 < low)
    (apart : high < low') : left < right := by
  obtain ⟨one, known, below, above⟩ := first
  obtain ⟨other, known', below', -⟩ := second
  exact (known.lt_iff known' (positive.trans_le below)).2 (above.trans_lt (apart.trans_le below'))

/-- A double above zero is not less than one whose bounds are not greater. -/
theorem not_lt (first : Within low high left) (second : Within low' high' right)
    (positive : 0 < low) (apart : high' ≤ low) : ¬ left < right := by
  obtain ⟨one, known, below, -⟩ := first
  obtain ⟨other, known', -, above'⟩ := second
  rw [known.lt_iff known' (positive.trans_le below)]
  exact (above'.trans (apart.trans below)).not_gt

end Within

end Climb
