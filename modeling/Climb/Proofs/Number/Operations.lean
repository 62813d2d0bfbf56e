import Climb.Proofs.Number.Rounding

/-! Arithmetic on doubles is that on the numbers they stand for, rounded. -/

namespace Climb

open Float.Model Float.Model.UnpackedFloat

/-- A mantissa and an exponent as rounding gives them, where the exponent may be too large. -/
structure IsCanonical (mantissa : Nat) (exponent : Int) : Prop where
  short : mantissa < 2 * leastNormal
  least : leastExponent ≤ exponent
  filled : leastNormal ≤ mantissa ∨ exponent = leastExponent

/-- The parts of a finite double are of the form that rounding gives. -/
theorem IsDouble.canonical {mantissa : Nat} {exponent : Int}
    (double : IsDouble mantissa exponent) : IsCanonical mantissa exponent :=
  ⟨double.short, double.least, double.filled⟩

/-- What is not small has a mantissa with a leading bit. -/
theorem IsCanonical.normal {mantissa : Nat} {exponent : Int}
    (canonical : IsCanonical mantissa exponent)
    (large : (2 : ℚ) ^ (-1000 : Int) ≤ valueOf mantissa exponent) :
    IsNormal mantissa exponent := by
  refine ⟨canonical.filled.resolve_right ?_, canonical.short, canonical.least⟩
  -- With the least exponent even a full mantissa stands for something tiny.
  rintro rfl
  have short : (mantissa : ℚ) < 2 ^ (53 : Int) := by
    have less := canonical.short
    rw [leastNormal_eq] at less
    exact_mod_cast (by omega : mantissa < 2 ^ 53)
  refine absurd large (not_le.2 ?_)
  calc valueOf mantissa leastExponent < 2 ^ (53 : Int) * 2 ^ leastExponent :=
      mul_lt_mul_of_pos_right short (by positivity)
    _ = 2 ^ (53 + leastExponent) := (zpow_add₀ two_ne_zero _ _).symm
    _ ≤ 2 ^ (-1000 : Int) := zpow_le_zpow_right₀ one_le_two (by decide)

/-- The parts of a double, as the standard format has them. -/
def unpacked (value : Float) : UnpackedFloat :=
  value.toModel.unpack

section

variable {value : Float} {negative : Bool} {mantissa : Nat} {exponent : Int}

/-- The parts of a double and what it stands for are read from the same fields. -/
theorem exists_fields (value : Float) : ∃ negative field fraction,
    unpacked value = unpack Format.binary64 (packed negative field fraction) ∧
      viewDouble value = viewBits (negative.toNat * signBit + field.toNat * leastNormal +
        fraction.toNat) := by
  obtain ⟨negative, field, fraction, parts⟩ := exists_packed value.toBits.toBitVec
  refine ⟨negative, field, fraction, congrArg (unpack Format.binary64) parts, ?_⟩
  -- Both readings begin with the same bits, so one choice of fields does for both.
  rw [viewDouble, ← toNat_packed, ← parts]
  rfl

/-- The parts of a finite double that is not zero. -/
theorem unpacked_finite (view : viewDouble value = .finite negative mantissa exponent)
    (nonzero : 0 < mantissa) :
    unpacked value = .finite (signOf negative) mantissa exponent nonzero := by
  obtain ⟨sign, field, fraction, parts, fields⟩ := exists_fields value
  rw [fields, viewBits_fields sign field.isLt (leastNormal_eq ▸ fraction.isLt)] at view
  rw [parts, unpack_packed]
  split at view
  · -- A full exponent field is kept for what is not finite.
    split at view <;> cases view
  · rename_i finite
    rw [if_neg fun full => finite (congrArg BitVec.toNat full)]
    split at view
    · -- With an empty field there is no leading bit to add.
      rename_i tiny
      obtain ⟨rfl, rfl, rfl⟩ := DoubleView.finite.inj view
      rw [if_pos (BitVec.eq_of_toNat_eq tiny), dif_pos nonzero]
      rfl
    · rename_i normal
      obtain ⟨rfl, rfl, rfl⟩ := DoubleView.finite.inj view
      rw [if_neg fun tiny => normal (congrArg BitVec.toNat tiny)]
      -- The two readings count the exponent from different places.
      congr 1
      rw [leastExponent]
      omega

/-- The parts of an infinite double. -/
theorem unpacked_infinite (view : viewDouble value = .infinite negative) :
    unpacked value = .infinity (signOf negative) := by
  obtain ⟨sign, field, fraction, parts, fields⟩ := exists_fields value
  rw [fields, viewBits_fields sign field.isLt (leastNormal_eq ▸ fraction.isLt)] at view
  rw [parts, unpack_packed]
  -- Only a full field without a fraction is read as infinity.
  split at view
  · rename_i full
    split at view
    · rename_i zero
      obtain rfl := DoubleView.infinite.inj view
      rw [if_pos (BitVec.eq_of_toNat_eq full), if_pos (BitVec.eq_of_toNat_eq zero)]
    · cases view
  · split at view <;> cases view

/-- The parts of a zero. -/
theorem unpacked_zero (view : viewDouble value = .finite negative 0 leastExponent) :
    unpacked value = .zero (signOf negative) := by
  obtain ⟨sign, field, fraction, parts, fields⟩ := exists_fields value
  rw [fields, viewBits_fields sign field.isLt (leastNormal_eq ▸ fraction.isLt)] at view
  rw [parts, unpack_packed]
  -- The cases go by the field: full, empty, or that of a normal double.
  split at view
  · split at view <;> cases view
  · rename_i finite
    rw [if_neg fun full => finite (congrArg BitVec.toNat full)]
    split at view
    · rename_i tiny
      obtain ⟨rfl, none, -⟩ := DoubleView.finite.inj view
      rw [if_pos (BitVec.eq_of_toNat_eq tiny), dif_neg (by omega)]
    · -- The leading bit of a normal mantissa is not zero.
      have := (DoubleView.finite.inj view).2.1
      rw [leastNormal_eq] at this
      omega

/-- What a double stands for is told by its parts. -/
theorem viewDouble_of_unpacked (negative : Bool) {positive : 0 < mantissa}
    (parts : unpacked value = .finite (signOf negative) mantissa exponent positive) :
    viewDouble value = .finite negative mantissa exponent := by
  have sign_eq {one other : Bool} (same : signOf one = signOf other) : one = other := by
    cases one <;> cases other <;> first | rfl | cases same
  obtain ⟨sign, field, fraction, fields, view⟩ := exists_fields value
  rw [view, viewBits_fields sign field.isLt (leastNormal_eq ▸ fraction.isLt)]
  rw [fields, unpack_packed] at parts
  -- Each kind of field gives parts of another shape, so the shape tells the field.
  split at parts
  · split at parts <;> cases parts
  · rename_i finite
    have infinite : field.toNat ≠ 2047 := fun full => finite (BitVec.eq_of_toNat_eq full)
    rw [if_neg infinite]
    split at parts
    · rename_i tiny
      split at parts
      · obtain ⟨same, rfl, rfl⟩ := UnpackedFloat.finite.inj parts
        have none : field.toNat = 0 := congrArg BitVec.toNat tiny
        rw [if_pos none, sign_eq same]
        rfl
      · cases parts
    · rename_i normal
      obtain ⟨same, rfl, rfl⟩ := UnpackedFloat.finite.inj parts
      have some : field.toNat ≠ 0 := fun tiny => normal (BitVec.eq_of_toNat_eq tiny)
      rw [if_neg some, sign_eq same, leastNormal_eq]
      congr 1
      rw [leastExponent]
      omega

/-- Normal parts are kept when they are packed, unless they are beyond the finite doubles. -/
theorem unpack_pack_normal (normal : IsNormal mantissa exponent) (positive : 0 < mantissa) :
    unpack Format.binary64 (pack Format.binary64
        (.finite (signOf negative) mantissa exponent positive)) =
      if exponent ≤ 971 then .finite (signOf negative) mantissa exponent positive
      else .infinity (signOf negative) := by
  have log := normal.log2_eq
  obtain ⟨filled, short, least⟩ := normal
  rw [leastNormal_eq] at filled short
  rw [leastExponent] at least
  split
  · -- The exponent and the mantissa without its leading bit fill their fields.
    rename_i most
    obtain ⟨field, place⟩ : ∃ field : BitVec 11, field.toNat = (exponent + 1075).toNat :=
      ⟨BitVec.ofNat 11 (exponent + 1075).toNat, by rw [BitVec.toNat_ofNat]; omega⟩
    obtain ⟨fraction, rest⟩ : ∃ fraction : BitVec 52, fraction.toNat = mantissa - 2 ^ 52 :=
      ⟨BitVec.ofNat 52 (mantissa - 2 ^ 52), by rw [BitVec.toNat_ofNat]; omega⟩
    obtain rfl : mantissa = 2 ^ 52 + fraction.toNat := by omega
    obtain rfl : exponent = field.toNat - 1075 := by omega
    have infinite : field ≠ -1#11 := fun same => by
      have : field.toNat = 2047 := congrArg BitVec.toNat same
      omega
    have tiny : field ≠ 0#11 := fun same => by
      have : field.toNat = 0 := congrArg BitVec.toNat same
      omega
    rw [pack_normal negative field fraction infinite, unpack_packed, if_neg infinite, if_neg tiny]
  · -- The field has no room for the exponent, so that it is filled up.
    rename_i beyond
    have biased : ¬ (exponent + (Format.binary64.exponentBias : Int) + (52 : Nat)).toNat + 1 <
        2 ^ 11 := by
      have : (Format.binary64.exponentBias : Int) = 1023 := rfl
      omega
    have infinite : pack Format.binary64 (.finite (signOf negative) mantissa exponent positive) =
        packed negative (-1#11) 0#52 := by
      unfold UnpackedFloat.pack
      simp only
      exact if_pos (not_lt.1 biased)
    rw [infinite, unpack_packed, if_pos rfl, if_pos rfl]

/-- A mantissa without a leading bit is kept when it is packed. -/
theorem unpack_pack_subnormal (short : mantissa < leastNormal) (positive : 0 < mantissa) :
    unpack Format.binary64 (pack Format.binary64
        (.finite (signOf negative) mantissa leastExponent positive)) =
      .finite (signOf negative) mantissa leastExponent positive := by
  rw [leastNormal_eq] at short
  obtain ⟨fraction, rfl⟩ : ∃ fraction : BitVec 52, mantissa = fraction.toNat :=
    ⟨BitVec.ofNat 52 mantissa, by rw [BitVec.toNat_ofNat]; omega⟩
  -- The field of the exponent is empty, which tells that there is no leading bit.
  have fields : pack Format.binary64
      (.finite (signOf negative) fraction.toNat leastExponent positive) =
        packed negative 0#11 fraction := by
    have log : fraction.toNat.log2 < 52 := (Nat.log2_lt positive.ne').2 short
    have biased : (leastExponent + (Format.binary64.exponentBias : Int) + (52 : Nat)).toNat = 1 :=
      rfl
    unfold UnpackedFloat.pack
    simp only
    rw [biased, if_neg (by decide), if_neg (by simp only [Format.mantissaBits]; omega)]
    unfold packed
    congr 1
    exact BitVec.eq_of_toNat_eq (by simp)
  rw [fields, unpack_packed, if_neg (by decide), if_pos rfl, dif_pos positive]
  rfl

/-- What rounding gives is kept when it is packed, unless it is beyond the finite doubles. -/
theorem unpack_pack_finite (sign : Sign) (canonical : IsCanonical mantissa exponent)
    (positive : 0 < mantissa) :
    unpack Format.binary64 (pack Format.binary64 (.finite sign mantissa exponent positive)) =
      if exponent ≤ 971 then .finite sign mantissa exponent positive else .infinity sign := by
  obtain ⟨negative, rfl⟩ : ∃ negative, sign = signOf negative := by
    cases sign with
    | negative => exact ⟨true, rfl⟩
    | positive => exact ⟨false, rfl⟩
  -- A canonical mantissa is short with the least exponent only.
  rcases Nat.lt_or_ge mantissa leastNormal with short | filled
  · obtain rfl := canonical.filled.resolve_left (Nat.not_le.2 short)
    rw [if_pos (by decide), unpack_pack_subnormal short positive]
  · exact unpack_pack_normal ⟨filled, canonical.short, canonical.least⟩ positive

end

/-- Zero is kept when it is packed. -/
theorem unpack_pack_zero (sign : Sign) :
    unpack Format.binary64 (pack Format.binary64 (.zero sign)) = .zero sign := by
  cases sign <;> rfl

/-- Infinity is kept when it is packed. -/
theorem unpack_pack_infinity (negative : Bool) :
    unpack Format.binary64 (pack Format.binary64 (.infinity (signOf negative))) =
      .infinity (signOf negative) := by
  have packed : pack Format.binary64 (.infinity (signOf negative)) =
      packed negative (-1#11) 0#52 := rfl
  rw [packed, unpack_packed, if_pos rfl, if_pos rfl]

/-- Shifting a mantissa to the right drops its last bits. -/
theorem mantissa_shiftRight (extended : ExtendedMantissa) (places : Nat) :
    (extended >>> places).mantissa = extended.mantissa / 2 ^ places := by
  -- The shift goes one place at a time, and each halves the mantissa.
  induction places with
  | zero => simp [HShiftRight.hShiftRight, Nat.repeat]
  | succ places ih =>
    have step : (extended >>> (places + 1)).mantissa = (extended >>> places).mantissa / 2 := rfl
    rw [step, ih, Nat.div_div_eq_div_mul, Nat.pow_succ]

/-- Rounding a mantissa keeps it or goes to the next one. -/
theorem roundedMantissa_cases (extended : ExtendedMantissa) :
    extended.roundedMantissa = extended.mantissa ∨
      extended.roundedMantissa = extended.mantissa + 1 := by
  obtain ⟨mantissa, first, others⟩ := extended
  have parity := Nat.mod_two_eq_zero_or_one mantissa
  -- By the first dropped bit, and whether any after it is set: a tie goes to the even mantissa.
  cases first <;> cases others
  · exact .inl rfl
  · exact .inl rfl
  · exact parity.imp (congrArg (mantissa + ·)) (congrArg (mantissa + ·))
  · exact .inr rfl

/-- Shifting drops the last bits of a mantissa, whatever is known about the bits after it. -/
theorem mantissa_shift (mantissa : Nat) (accuracy : Accuracy) (places : Nat) :
    (ExtendedMantissa.ofMantissaAndAccuracy mantissa accuracy >>> places).mantissa =
      mantissa / 2 ^ places := by
  rw [mantissa_shiftRight]
  rcases accuracy with _ | _ | _ | _ <;> rfl

/-- The exponent that a mantissa is rounded at: fifty-three bits are kept, fewer if it is small. -/
def roundingExponent (mantissa : Nat) (exponent : Int) : Int :=
  max (exponent + mantissa.log2 - 52) leastExponent

/-- The parts of a finite double, whose mantissa may be zero. -/
def partsOf (sign : Sign) (mantissa : Nat) (exponent : Int) : UnpackedFloat :=
  if zero : mantissa = 0 then .zero sign
  else .finite sign mantissa exponent (Nat.pos_of_ne_zero zero)

section

variable {mantissa : Nat} {exponent : Int} (accuracy : Accuracy)
  (long : 52 ≤ mantissa.log2 ∨ exponent ≤ leastExponent)

include long

/-- A mantissa that is long enough is shifted right, to the exponent that it is rounded at. -/
theorem shiftToTargetExponent_eq : ∃ places : Nat,
    shiftToTargetExponent Format.binary64 mantissa exponent accuracy =
      (ExtendedMantissa.ofMantissaAndAccuracy mantissa accuracy >>> places, exponent + places) ∧
    exponent + places = roundingExponent mantissa exponent := by
  -- The format names the place by the length of the whole, here it is told by that of the mantissa.
  have target : Format.binary64.targetExponent (totalExponent mantissa exponent) =
      roundingExponent mantissa exponent := by
    have bits : (Format.binary64.mantissaBits : Int) = 53 := rfl
    have lowest : Format.binary64.minExponent = -1074 := by decide
    rw [Format.targetExponent, totalExponent, bits, lowest, roundingExponent, leastExponent]
    omega
  refine ⟨(roundingExponent mantissa exponent - exponent).toNat, ?_, ?_⟩
  · simp only [shiftToTargetExponent, shiftToExponent, target]
  · rw [roundingExponent]
    omega

omit long in
/-- A rounded mantissa has the right form already, or is carried into the next binade. -/
theorem shiftToTargetExponent_rounded (whole : Nat) (short : whole ≤ 2 ^ 53)
    (least : leastExponent ≤ exponent) (filled : 2 ^ 52 ≤ whole ∨ exponent = leastExponent) :
    IsCanonical (shiftToTargetExponent Format.binary64 whole exponent .exact).1.mantissa
        (shiftToTargetExponent Format.binary64 whole exponent .exact).2 ∧
      valueOf (shiftToTargetExponent Format.binary64 whole exponent .exact).1.mantissa
        (shiftToTargetExponent Format.binary64 whole exponent .exact).2 =
          valueOf whole exponent := by
  have long : 52 ≤ whole.log2 ∨ exponent ≤ leastExponent :=
    filled.imp (fun many => (Nat.le_log2 (by omega)).2 many) Eq.le
  obtain ⟨places, shifted, scale⟩ := shiftToTargetExponent_eq .exact long
  rw [shifted, mantissa_shift]
  rw [roundingExponent] at scale
  rcases Nat.lt_or_eq_of_le short with less | rfl
  · have log : whole.log2 < 53 := by
      rcases Nat.eq_zero_or_pos whole with rfl | positive
      · decide
      · exact (Nat.log2_lt positive.ne').2 less
    obtain rfl : places = 0 := by omega
    rw [Nat.pow_zero, Nat.div_one, Nat.cast_zero, add_zero]
    exact ⟨⟨by rw [leastNormal_eq]; omega, least, leastNormal_eq ▸ filled⟩, rfl⟩
  · -- Only the power of two itself is too long, and what it loses is a zero.
    rw [Nat.log2_two_pow] at scale
    obtain rfl : places = 1 := by omega
    refine ⟨⟨by decide, by omega, .inl (by decide)⟩, ?_⟩
    rw [valueOf, valueOf, zpow_add₀ (by norm_num)]
    norm_num
    ring

/-- The mantissa that rounding keeps has fifty-three bits at most, and no fewer without need. -/
theorem kept_bits {places : Nat}
    (scale : exponent + places = roundingExponent mantissa exponent) :
    mantissa / 2 ^ places < 2 ^ 53 ∧
      (2 ^ 52 ≤ mantissa / 2 ^ places ∨ exponent + places = leastExponent) := by
  rw [roundingExponent] at scale
  constructor
  · rw [Nat.div_lt_iff_lt_mul (Nat.two_pow_pos _), ← Nat.pow_add]
    exact Nat.lt_of_lt_of_le Nat.lt_log2_self (Nat.pow_le_pow_right (by decide) (by omega))
  · rcases eq_or_ne (exponent + places) leastExponent with least | more
    · exact .inr least
    · -- Away from the least exponent the mantissa is long, and just its last bits are dropped.
      have nonzero : mantissa ≠ 0 := by
        rintro rfl
        rw [Nat.log2_zero] at long scale
        omega
      refine .inl ((Nat.le_div_iff_mul_le (Nat.two_pow_pos _)).2 ?_)
      rw [← Nat.pow_add]
      exact Nat.le_trans (Nat.pow_le_pow_right (by decide) (by omega))
        (Nat.log2_self_le nonzero)

/-- Rounding gives a number of the right form, one unit of its last place away at most. -/
theorem roundWithAccuracy_close (sign : Sign) {exact : ℚ}
    (low : valueOf mantissa exponent ≤ exact) (high : exact ≤ valueOf (mantissa + 1) exponent) :
    ∃ rounded scale,
      roundWithAccuracy Format.binary64 sign mantissa exponent accuracy =
        partsOf sign rounded scale ∧ IsCanonical rounded scale ∧
      |valueOf rounded scale - exact| ≤ 2 ^ roundingExponent mantissa exponent := by
  obtain ⟨places, shifted, scale⟩ := shiftToTargetExponent_eq accuracy long
  obtain ⟨ceiling, filled⟩ := kept_bits long scale
  -- The dropped bits add one unit at most, so the mantissa keeps its length or is carried.
  obtain ⟨whole, rounded⟩ : ∃ whole, (ExtendedMantissa.ofMantissaAndAccuracy mantissa accuracy
    >>> places).roundedMantissa = whole := ⟨_, rfl⟩
  have near := roundedMantissa_cases (ExtendedMantissa.ofMantissaAndAccuracy mantissa accuracy
    >>> places)
  rw [mantissa_shift, rounded] at near
  obtain ⟨canonical, value⟩ := shiftToTargetExponent_rounded whole (by omega)
    (le_of_le_of_eq (le_max_right _ _) scale.symm) (filled.imp_left fun many => by omega)
  refine ⟨_, _, ?_, canonical, ?_⟩
  · simp only [roundWithAccuracy, shifted, rounded]
    rfl
  · -- The exact number and its rounding both lie in the step that the kept bits start.
    have floor : (mantissa / 2 ^ places : Nat) * 2 ^ places ≤ (mantissa : ℚ) := by
      exact_mod_cast Nat.div_mul_le_self mantissa (2 ^ places)
    have next : (mantissa : ℚ) + 1 ≤ ((mantissa / 2 ^ places : Nat) + 1) * 2 ^ places := by
      exact_mod_cast Nat.lt_mul_of_div_lt (Nat.lt_succ_self _) (Nat.two_pow_pos places)
    have unit : (0 : ℚ) < 2 ^ exponent := by positivity
    have first := mul_le_mul_of_nonneg_right floor unit.le
    have second := mul_le_mul_of_nonneg_right next unit.le
    rw [valueOf] at low high
    push_cast at high
    rw [value, valueOf, ← scale, zpow_add₀ (by norm_num), zpow_natCast, abs_le]
    rcases near with rfl | rfl
    · constructor <;> linarith
    · push_cast
      constructor <;> linarith

end

/-- Shifting a mantissa to the left makes up for a smaller exponent. -/
theorem valueOf_shift (mantissa places : Nat) (exponent : Int) :
    valueOf (mantissa * 2 ^ places) exponent = valueOf mantissa (exponent + places) := by
  rw [valueOf, valueOf, zpow_add₀ (by norm_num), zpow_natCast]
  push_cast
  ring

/-- Mantissas are multiplied, and exponents added. -/
theorem valueOf_mul (mantissa m : Nat) (exponent e : Int) :
    valueOf (mantissa * m) (exponent + e) = valueOf mantissa exponent * valueOf m e := by
  rw [valueOf, valueOf, valueOf, zpow_add₀ two_ne_zero]
  push_cast
  ring

/-- A larger mantissa stands for a larger number. -/
theorem valueOf_mono {mantissa other : Nat} (less : mantissa ≤ other) (exponent : Int) :
    valueOf mantissa exponent ≤ valueOf other exponent := by
  rw [valueOf, valueOf]
  gcongr

/-- Decreasing an exponent shifts the mantissa to the left. -/
theorem decreaseExponent_spec (mantissa : Nat) {exponent scale : Int} (less : scale ≤ exponent) :
    ∃ places : Nat, decreaseExponent mantissa exponent scale = (mantissa * 2 ^ places, scale) ∧
      exponent = scale + places := by
  refine ⟨(exponent - scale).toNat, ?_, by omega⟩
  rw [decreaseExponent, Nat.shiftLeft_eq]
  exact congrArg _ (by omega)

/-- A mantissa of any length is made long enough before it is rounded, which keeps its value. -/
theorem round_eq (sign : Sign) {mantissa : Nat} (exponent : Int) (nonzero : 0 < mantissa) :
    ∃ longer scale, UnpackedFloat.round Format.binary64 sign mantissa exponent =
        roundWithAccuracy Format.binary64 sign longer scale .exact ∧
      (52 ≤ longer.log2 ∨ scale ≤ leastExponent) ∧
      valueOf longer scale = valueOf mantissa exponent := by
  have bits : (Format.binary64.mantissaBits : Int) = 53 := rfl
  have lowest : Format.binary64.minExponent = -1074 := by decide
  obtain ⟨target, at_target⟩ : ∃ target,
      Format.binary64.targetExponent (totalExponent mantissa exponent) = target := ⟨_, rfl⟩
  -- Shifting left makes the mantissa longer by as many bits.
  have longer : mantissa.log2 + (exponent - target).toNat ≤
      (mantissa * 2 ^ (exponent - target).toNat).log2 := by
    refine (Nat.le_log2 (by positivity)).2 ?_
    rw [Nat.pow_add]
    exact Nat.mul_le_mul_right _ (Nat.log2_self_le nonzero.ne')
  refine ⟨mantissa * 2 ^ (exponent - target).toNat, exponent - (exponent - target).toNat,
    ?_, ?_, ?_⟩
  · simp only [UnpackedFloat.round, decreaseExponent, Nat.shiftLeft_eq, at_target]
  · rw [Format.targetExponent, totalExponent, bits, lowest] at at_target
    rw [leastExponent]
    omega
  · rw [valueOf_shift, sub_add_cancel]

/-- Whether a double is positive and not below a bound, where infinity is above all bounds. -/
inductive AtLeast (bound : ℝ) (value : Float) : Prop
  | infinite (parts : unpacked value = .infinity .positive)
  | normal {mantissa : Nat} {exponent : Int} {positive : 0 < mantissa}
    (parts : unpacked value = .finite .positive mantissa exponent positive)
    (normal : IsNormal mantissa exponent) (above : bound ≤ valueOf mantissa exponent)

namespace AtLeast

variable {bound other : ℝ} {left right : Float}

/-- What is not below a bound is not below a smaller one. -/
theorem mono (above : AtLeast bound left) (less : other ≤ bound) : AtLeast other left := by
  cases above with
  | infinite parts => exact .infinite parts
  | normal parts normal above => exact .normal parts normal (less.trans above)

/-- Packing infinity keeps it above all bounds. -/
theorem of_infinity (parts : unpacked left =
    unpack Format.binary64 (pack Format.binary64 (.infinity .positive))) : AtLeast bound left :=
  .infinite (parts.trans (unpack_pack_infinity false))

/-- The exponent of a number from one up is not too small for its length. -/
theorem exponent_of_one_le {mantissa : Nat} {exponent : Int} (nonzero : 0 < mantissa)
    (one : 1 ≤ valueOf mantissa exponent) : 0 < mantissa.log2 + exponent + 1 := by
  -- The length and the exponent together tell the power of two above the number.
  have above := (valueOf_log2 nonzero exponent).2
  rw [← zpow_lt_zpow_iff_right₀ (one_lt_two : (1 : ℚ) < 2), zpow_zero]
  exact one.trans_lt above

section

variable {mantissa : Nat} {exponent : Int} (one : 1 ≤ valueOf mantissa exponent)
  (above : bound ≤ valueOf mantissa exponent)

include one above

/-- Rounding a mantissa that is long enough keeps all but a small part of a bound on it. -/
theorem of_rounded (long : 52 ≤ mantissa.log2 ∨ exponent ≤ leastExponent)
    (parts : unpacked left = unpack Format.binary64 (pack Format.binary64
      (roundWithAccuracy Format.binary64 .positive mantissa exponent .exact))) :
    AtLeast (bound * (1 - 1 / 2 ^ 52)) left := by
  have nonzero : 0 < mantissa := Nat.pos_of_ne_zero fun zero => by
    rw [zero, valueOf, Nat.cast_zero, zero_mul] at one
    norm_num at one
  obtain ⟨rounded, scale, result, canonical, close⟩ := roundWithAccuracy_close .exact long .positive
    le_rfl (valueOf_mono (Nat.le_succ mantissa) exponent)
  -- The unit of the last place is a small part of a number that is not small itself.
  have unit : (2 : ℚ) ^ roundingExponent mantissa exponent ≤
      valueOf mantissa exponent / 2 ^ 52 := by
    have reached := exponent_of_one_le nonzero one
    have places : roundingExponent mantissa exponent = mantissa.log2 + exponent - 52 := by
      rw [roundingExponent, leastExponent]
      omega
    rw [places, zpow_sub₀ two_ne_zero]
    gcongr
    · exact (valueOf_log2 nonzero exponent).1
    · norm_num
  have below : valueOf mantissa exponent * (1 - 1 / 2 ^ 52) ≤ valueOf rounded scale := by
    linarith [(abs_le.1 close).1]
  have normal : IsNormal rounded scale := by
    have half : (1 / 2 : ℚ) ≤ valueOf mantissa exponent * (1 - 1 / 2 ^ 52) := by
      norm_num
      linarith
    have small : (2 : ℚ) ^ (-1000 : Int) ≤ 2 ^ (-1 : Int) :=
      zpow_le_zpow_right₀ one_le_two (by decide)
    exact canonical.normal (small.trans ((zpow_neg_one (2 : ℚ)).trans_le (by linarith)))
  rw [result, partsOf, dif_neg normal.pos.ne', unpack_pack_finite .positive canonical normal.pos]
    at parts
  -- What is rounded beyond the finite doubles becomes infinity, which is above every bound.
  split at parts
  · refine .normal parts normal ?_
    have real := (Rat.cast_le (K := ℝ)).2 below
    push_cast at real
    refine le_trans ?_ real
    gcongr
  · exact .infinite parts

/-- Rounding a mantissa of any length keeps all but a small part of a bound on it. -/
theorem of_round (nonzero : 0 < mantissa)
    (parts : unpacked left = unpack Format.binary64 (pack Format.binary64
      (UnpackedFloat.round Format.binary64 .positive mantissa exponent))) :
    AtLeast (bound * (1 - 1 / 2 ^ 52)) left := by
  obtain ⟨longer, scale, same, long, value⟩ := round_eq .positive exponent nonzero
  rw [← value] at one above
  rw [same] at parts
  exact of_rounded one above long parts

end

/-- Bounds on factors give a bound on their product. -/
theorem mul (first : AtLeast bound left) (second : AtLeast other right) (positive : 0 < bound)
    (positive' : 0 < other) (one : 1 ≤ bound * other) :
    AtLeast (bound * other * (1 - 1 / 2 ^ 52)) (left * right) := by
  have rounded : unpacked (left * right) = unpack Format.binary64 (pack Format.binary64
    (UnpackedFloat.mul Format.binary64 (unpacked left) (unpacked right))) := rfl
  -- Infinity times anything above zero is infinity, and only finite factors are rounded.
  cases first with
  | infinite parts =>
    cases second with
    | infinite parts' | normal parts' _ _ =>
      rw [parts, parts'] at rounded
      exact of_infinity rounded
  | @normal m e some parts normal above =>
    cases second with
    | infinite parts' =>
      rw [parts, parts'] at rounded
      exact of_infinity rounded
    | @normal m' e' some' parts' normal' above' =>
      rw [parts, parts'] at rounded
      have reached : bound * other ≤ valueOf (m * m') (e + e') := by
        rw [valueOf_mul]
        push_cast
        exact mul_le_mul above above' positive'.le (positive.le.trans above)
      have least : (1 : ℝ) ≤ valueOf (m * m') (e + e') := one.trans reached
      -- The product of the mantissas is no shorter than one of them.
      refine of_rounded (by exact_mod_cast least) reached (.inl ?_) rounded
      refine (Nat.le_log2 (Nat.mul_pos some some').ne').2 ?_
      calc 2 ^ 52 ≤ m := leastNormal_eq ▸ normal.filled
        _ ≤ m * m' := Nat.le_mul_of_pos_right m some'

/-- A bound on a number gives a bound on its sum with a small one below zero. -/
theorem add {mantissa : Nat} {exponent : Int} {some : 0 < mantissa}
    (parts : unpacked left = .finite .negative mantissa exponent some)
    (second : AtLeast bound right) (large : 1 + valueOf mantissa exponent ≤ bound) :
    AtLeast ((bound - valueOf mantissa exponent) * (1 - 1 / 2 ^ 52)) (left + right) := by
  have rounded : unpacked (left + right) = unpack Format.binary64 (pack Format.binary64
    (UnpackedFloat.add Format.binary64 (unpacked left) (unpacked right))) := rfl
  cases second with
  | infinite parts' =>
    rw [parts, parts'] at rounded
    exact of_infinity rounded
  | @normal m e some' parts' normal above =>
    rw [parts, parts'] at rounded
    -- Both mantissas are brought to the smaller exponent, where their difference is exact.
    obtain ⟨places, scaled, first⟩ := decreaseExponent_spec mantissa (min_le_left exponent e)
    obtain ⟨places', scaled', second⟩ := decreaseExponent_spec m (min_le_right exponent e)
    have low := valueOf_shift mantissa places (min exponent e)
    have high := valueOf_shift m places' (min exponent e)
    rw [← first] at low
    rw [← second] at high
    have apart : 1 + valueOf mantissa exponent ≤ valueOf m e := by
      exact_mod_cast large.trans above
    rw [← low, ← high] at apart
    have step : (0 : ℚ) < 2 ^ min exponent e := by positivity
    -- The sum keeps the sign of the larger part, which is the positive one.
    have less : mantissa * 2 ^ places < m * 2 ^ places' := by
      have := (lt_one_add _).trans_le apart
      rw [valueOf, valueOf] at this
      exact_mod_cast lt_of_mul_lt_mul_right this step.le
    have exact : valueOf (m * 2 ^ places' - mantissa * 2 ^ places) (min exponent e) =
        valueOf m e - valueOf mantissa exponent := by
      rw [← low, ← high, valueOf, valueOf, valueOf, Nat.cast_sub less.le, sub_mul]
    have difference : UnpackedFloat.add Format.binary64
        (.finite .negative mantissa exponent some) (.finite .positive m e some') =
          UnpackedFloat.round Format.binary64 .positive
            (m * 2 ^ places' - mantissa * 2 ^ places) (min exponent e) := by
      have positive : (0 : Int) < -(mantissa * 2 ^ places : Nat) + (m * 2 ^ places' : Nat) := by
        omega
      have magnitude : (-((mantissa * 2 ^ places : Nat) : Int) + (m * 2 ^ places' : Nat)).toNat =
          m * 2 ^ places' - mantissa * 2 ^ places := by
        omega
      simp only [UnpackedFloat.add, scaled, scaled', Sign.apply, UnpackedFloat.normalize,
        Int.compare_eq_gt.2 positive, magnitude]
    rw [difference] at rounded
    refine of_round ?_ ?_ (by omega) rounded
    · rw [exact, ← low, ← high]
      linarith
    · rw [exact]
      push_cast
      linarith

end AtLeast

/-- Doubles of the right form are ordered by their exponents, and then by their mantissas. -/
theorem compare_lt_iff {mantissa m : Nat} {exponent e : Int}
    (canonical : IsCanonical mantissa exponent) (canonical' : IsCanonical m e) :
    (compare exponent e).then (compare mantissa m) = .lt ↔
      valueOf mantissa exponent < valueOf m e := by
  -- A larger exponent has a mantissa of full length, which no smaller exponent makes up for.
  have larger {mantissa m : Nat} {exponent e : Int} (short : mantissa < 2 * leastNormal)
      (canonical' : IsCanonical m e) (least : leastExponent ≤ exponent) (less : exponent < e) :
      valueOf mantissa exponent < valueOf m e := by
    have filled := canonical'.filled.resolve_right (by omega)
    rw [leastNormal_eq] at filled short
    calc valueOf mantissa exponent < 2 ^ 53 * 2 ^ exponent := by
          rw [valueOf]
          gcongr
          exact_mod_cast (by omega : mantissa < 2 ^ 53)
      _ = 2 ^ 52 * 2 ^ (exponent + 1) := by
          rw [zpow_add_one₀ two_ne_zero]
          ring
      _ ≤ valueOf m e := by
          rw [valueOf]
          gcongr
          · exact_mod_cast filled
          · norm_num
          · omega
  rcases lt_trichotomy exponent e with less | rfl | more
  · rw [Int.compare_eq_lt.2 less]
    exact iff_of_true rfl (larger canonical.short canonical' canonical.least less)
  · rw [Int.compare_eq_eq.2 rfl, Ordering.then, Nat.compare_eq_lt, valueOf, valueOf,
      mul_lt_mul_iff_left₀ (by positivity), Nat.cast_lt]
  · rw [Int.compare_eq_gt.2 more]
    exact iff_of_false (show ¬ Ordering.gt = .lt by decide)
      (larger canonical'.short canonical canonical'.least more).not_gt

/-- Doubles are compared by their parts. -/
theorem lt_of_compare {left right : Float}
    (less : UnpackedFloat.compare (unpacked left) (unpacked right) = some .lt) : left < right := by
  have model : UnpackedFloat.lt (unpacked left) (unpacked right) = true := by
    rw [UnpackedFloat.lt, less]
    rfl
  exact decide_eq_true model

/-- A double that is not below a bound is greater than a double that is. -/
theorem AtLeast.gt {bound : ℝ} {value limit : Float} {mantissa : Nat} {exponent : Int}
    {some : 0 < mantissa} (above : AtLeast bound value)
    (parts : unpacked limit = .finite .positive mantissa exponent some)
    (normal : IsNormal mantissa exponent) (below : valueOf mantissa exponent < bound) :
    limit < value := by
  apply lt_of_compare
  cases above with
  | infinite parts' =>
    rw [parts, parts']
    rfl
  | @normal m e some' parts' normal' above =>
    have less : valueOf mantissa exponent < valueOf m e := by
      exact_mod_cast below.trans_le above
    rw [parts, parts']
    exact congrArg Option.some ((compare_lt_iff ⟨normal.short, normal.least, .inl normal.filled⟩
      ⟨normal'.short, normal'.least, .inl normal'.filled⟩).2 less)

section

variable {num den : Nat} (positive : 0 < den)

include positive

/-- A quotient from one up is rounded to a double that is not much below it. -/
theorem atLeast_nearestDouble (one : 1 ≤ (num / den : ℚ)) :
    AtLeast (num / den * (1 - 1 / 2 ^ 53)) (nearestDouble false num den) := by
  have large : (2 : ℚ) ^ (-1000 : Int) ≤ num / den :=
    le_trans (zpow_le_one_of_nonpos₀ one_le_two (by norm_num)) one
  obtain ⟨mantissa, exponent, normal, bits, close, -⟩ := nearestBits_close positive large
  rw [nearestDouble, bits]
  rcases lt_or_ge (magnitudeOf mantissa exponent) infinityBits with finite | beyond
  · rw [min_eq_left finite.le]
    refine .normal (unpacked_finite (normal.double finite).viewDouble_eq normal.pos) normal ?_
    have below : (num / den : ℚ) * (1 - 1 / 2 ^ 53) ≤ valueOf mantissa exponent := by
      linarith [(abs_le.1 close).1]
    have real := (Rat.cast_le (K := ℝ)).2 below
    push_cast at real
    exact real
  · rw [min_eq_right beyond]
    exact .infinite (unpacked_infinite (viewDouble_infinity false))

/-- A quotient up to one that is not too small is rounded to a double that is not much above it. -/
theorem unpacked_nearestDouble_negative (large : (2 : ℚ) ^ (-1000 : Int) ≤ num / den)
    (one : (num / den : ℚ) ≤ 1) : ∃ mantissa exponent some,
      unpacked (nearestDouble true num den) = .finite .negative mantissa exponent some ∧
      valueOf mantissa exponent ≤ num / den * (1 + 1 / 2 ^ 53) := by
  obtain ⟨mantissa, exponent, normal, bits, close, -⟩ := nearestBits_close positive large
  have above : valueOf mantissa exponent ≤ num / den * (1 + 1 / 2 ^ 53) := by
    linarith [(abs_le.1 close).2]
  -- The result is below two, far from the largest doubles.
  have most : exponent < 2 := by
    refine (zpow_lt_zpow_iff_right₀ (one_lt_two : (1 : ℚ) < 2)).1 ?_
    have some : (1 : ℚ) ≤ mantissa := by exact_mod_cast normal.pos
    calc (2 : ℚ) ^ exponent ≤ valueOf mantissa exponent := by
          rw [valueOf]
          exact le_mul_of_one_le_left (by positivity) some
      _ ≤ 1 * (1 + 1 / 2 ^ 53) := above.trans (by gcongr)
      _ < 2 ^ (2 : Int) := by norm_num
  have double : IsDouble mantissa exponent :=
    ⟨normal.short, normal.least, by omega, .inl normal.filled⟩
  refine ⟨mantissa, exponent, normal.pos, ?_, above⟩
  rw [nearestDouble, bits, min_eq_left double.magnitude_lt.le]
  exact unpacked_finite double.viewDouble_eq normal.pos

end

/-- Where there is a finite double nearest to a quotient, it is the nearest one at all. -/
theorem eq_of_nearestDouble? {negative : Bool} {num den : Nat} {value : Float}
    (known : nearestDouble? negative num den = some value) :
    value = nearestDouble negative num den := by
  simp only [nearestDouble?] at known
  split at known
  · rename_i finite
    rw [nearestDouble, min_eq_left finite.le]
    exact (Option.some.inj known).symm
  · cases known

end Climb
