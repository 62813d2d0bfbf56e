import Mathlib
import Climb.Number.Double

/-! The bits of a double and what they stand for determine each other. -/

namespace Climb

open Float.Model Float.Model.UnpackedFloat

/-- The least mantissa of a normal double. -/
theorem leastNormal_eq : leastNormal = 2 ^ 52 := by
  decide

/-- The place of the sign. -/
theorem signBit_eq : signBit = 2 ^ 63 := by
  decide

/-- The first magnitude that no finite double has. -/
theorem infinityBits_eq : infinityBits = 2047 * 2 ^ 52 := by
  decide

/-- What bits stand for, told by their fields. -/
theorem viewBits_fields (negative : Bool) {field fraction : Nat} (narrow : field < 2048)
    (short : fraction < leastNormal) :
    viewBits (negative.toNat * signBit + field * leastNormal + fraction) =
      if field = 2047 then (if fraction = 0 then .infinite negative else .nan)
      else if field = 0 then .finite negative fraction leastExponent
      else .finite negative (leastNormal + fraction) (leastExponent + (field - 1 : Nat)) := by
  rw [leastNormal_eq] at short
  have bit := negative.toNat_le
  -- The fields do not overlap, so each is read off by one comparison, remainder or division.
  have sign : decide (signBit ≤ negative.toNat * signBit + field * leastNormal + fraction) =
      negative := by
    rw [signBit_eq, leastNormal_eq]
    cases negative <;> simp <;> omega
  have magnitude : (negative.toNat * signBit + field * leastNormal + fraction) % signBit =
      field * leastNormal + fraction := by
    rw [signBit_eq, leastNormal_eq]
    omega
  have first : (field * leastNormal + fraction) / leastNormal = field := by
    rw [leastNormal_eq]
    omega
  have second : (field * leastNormal + fraction) % leastNormal = fraction := by
    rw [leastNormal_eq]
    omega
  simp only [viewBits, sign, magnitude, first, second]

/-- The sign of a number, as the standard format has it. -/
def signOf (negative : Bool) : Sign :=
  if negative then .negative else .positive

section

variable (negative : Bool) (field : BitVec 11) (fraction : BitVec 52)

/-- The bits of a double with given fields. -/
def packed : BitVec 64 :=
  packComponents Format.binary64 (signOf negative) field fraction

/-- The fields stand side by side. -/
theorem toNat_packed :
    (packed negative field fraction).toNat =
      negative.toNat * signBit + field.toNat * leastNormal + fraction.toNat := by
  have sign : (signOf negative).toBitVec.toNat = negative.toNat := by
    cases negative <;> rfl
  unfold packed packComponents
  rw [BitVec.toNat_append, BitVec.toNat_append, ← Nat.shiftLeft_add_eq_or_of_lt fraction.isLt,
    ← Nat.shiftLeft_add_eq_or_of_lt field.isLt, sign, signBit_eq, leastNormal_eq]
  simp only [Nat.shiftLeft_eq]
  ring

/-- All bits are made of fields. -/
theorem exists_packed (bits : BitVec 64) :
    ∃ negative field fraction, bits = packed negative field fraction := by
  -- The sign is the top bit; the other two fields are cut off at their widths.
  refine ⟨decide (signBit ≤ bits.toNat), BitVec.ofNat 11 (bits.toNat / 2 ^ 52),
    BitVec.ofNat 52 bits.toNat, ?_⟩
  apply BitVec.eq_of_toNat_eq
  have := bits.isLt
  rw [toNat_packed, leastNormal_eq, signBit_eq, BitVec.toNat_ofNat, BitVec.toNat_ofNat]
  -- Taking the sign away needs to know whether it is set, as the subtraction is truncated.
  by_cases high : 2 ^ 63 ≤ bits.toNat
  · rw [decide_eq_true high, Bool.toNat_true]
    omega
  · rw [decide_eq_false high, Bool.toNat_false]
    omega

/-- The sign is read from the first bit. -/
theorem unpackSign_packed :
    Sign.ofBitVec (@unpackSign Format.binary64 (packed negative field fraction)) =
      signOf negative := by
  -- The sign bit comes out as it went in, and two signs are all there are.
  rw [packed, unpackSign_packComponents, Sign.ofBitVec_toBitVec]

/-- What fields stand for. -/
theorem unpack_packed :
    unpack Format.binary64 (packed negative field fraction) =
      if field = -1#11 then (if fraction = 0#52 then .infinity (signOf negative) else .notANumber)
      else if field = 0#11 then
        if some : 0 < fraction.toNat then .finite (signOf negative) fraction.toNat (-1074) some
        else .zero (signOf negative)
      else .finite (signOf negative) (2 ^ 52 + fraction.toNat) (field.toNat - 1075) (by omega) := by
  have first := unpackSign_packed negative field fraction
  have second : @unpackExponent Format.binary64 (packed negative field fraction) = field :=
    unpackExponent_packComponents
  have third : @unpackMantissa Format.binary64 (packed negative field fraction) = fraction :=
    unpackMantissa_packComponents
  unfold UnpackedFloat.unpack
  simp only [first, second, third]
  -- A full field is that of infinity or of no number, whatever the sign.
  split
  · rfl
  · split
    · rename_i tiny
      subst tiny
      -- Without a leading bit the fraction itself is the mantissa, which may be zero.
      by_cases zero : fraction = 0#52
      · simp [zero]
      · have some : 0 < fraction.toNat :=
          Nat.pos_of_ne_zero fun none => zero (BitVec.eq_of_toNat_eq none)
        simp only [zero, some, dif_pos, dif_neg, not_false_eq_true]
        rfl
    · congr 1
      rw [BitVec.toNat_append, ← Nat.shiftLeft_add_eq_or_of_lt fraction.isLt, Nat.shiftLeft_eq]
      simp

/-- A normal double is packed into the fields that it was made of. -/
theorem pack_normal (infinite : field ≠ -1#11) (positive : 0 < 2 ^ 52 + fraction.toNat) :
    pack Format.binary64
        (.finite (signOf negative) (2 ^ 52 + fraction.toNat) (field.toNat - 1075) positive) =
      packed negative field fraction := by
  have short := field.isLt
  have low := fraction.isLt
  -- A full field would be that of infinity, so the exponent stays in range.
  have last : field.toNat ≠ 2047 := fun same => infinite (BitVec.eq_of_toNat_eq same)
  have log : (2 ^ 52 + fraction.toNat).log2 = 52 :=
    (Nat.log2_eq_iff (by omega)).2 ⟨by omega, by omega⟩
  -- The bias that was taken off the exponent is put back.
  have biased : ((field.toNat : Int) - 1075 + (Format.binary64.exponentBias : Int) +
      (52 : Nat)).toNat = field.toNat := by
    have : (Format.binary64.exponentBias : Int) = 1023 := rfl
    omega
  unfold UnpackedFloat.pack
  simp only [log]
  rw [biased, if_neg (by omega), if_pos (by rfl)]
  unfold packed
  congr 1
  · exact BitVec.eq_of_toNat_eq (by simp)
  · -- The leading bit of the mantissa is not among those that are kept.
    exact BitVec.eq_of_toNat_eq (by simp; omega)

end

/-- Bits are given back by their double, unless they are those of no number. -/
theorem toBits_ofBits {bits : UInt64} (number : viewBits bits.toNat ≠ .nan) :
    (Float.ofBits bits).toBits = bits := by
  obtain ⟨negative, field, fraction, parts⟩ := exists_packed bits.toBitVec
  have place : bits.toNat = _ := congrArg BitVec.toNat parts
  rw [toNat_packed] at place
  -- Only the payload of what is no number is lost, and this has none.
  have inside : ¬ @isNaNBits Format.binary64 bits.toBitVec = true := by
    rw [isNaNBits, parts, packed, unpackExponent_packComponents, unpackMantissa_packComponents,
      decide_eq_true_iff]
    rintro ⟨rfl, payload⟩
    rw [place, viewBits_fields negative (BitVec.isLt _) (leastNormal_eq ▸ fraction.isLt),
      if_pos (by rfl)] at number
    exact number (if_neg fun zero => payload (BitVec.eq_of_toNat_eq zero))
  have same := @UnpackedFloat.pack_unpack Format.binary64 bits.toBitVec
  rw [if_neg inside] at same
  simp only [Float.ofBits, Float.toBits, Float.Model.ofBits, Float.Model.pack, same (by decide)]

/-- The mantissa and exponent of a finite double: normal, or with the least exponent. -/
structure IsDouble (mantissa : Nat) (exponent : Int) : Prop where
  short : mantissa < 2 * leastNormal
  least : leastExponent ≤ exponent
  most : exponent ≤ 971
  filled : leastNormal ≤ mantissa ∨ exponent = leastExponent

/-- A mantissa with a leading bit, and an exponent that is not too small but may be too large. -/
structure IsNormal (mantissa : Nat) (exponent : Int) : Prop where
  filled : leastNormal ≤ mantissa
  short : mantissa < 2 * leastNormal
  least : leastExponent ≤ exponent

/-- The bits of a mantissa and an exponent without a sign, in the order of the numbers. -/
def magnitudeOf (mantissa : Nat) (exponent : Int) : Nat :=
  (exponent - leastExponent).toNat * leastNormal + mantissa

section

variable {mantissa : Nat} {exponent : Int}

/-- The magnitude of a finite double is below that of infinity. -/
theorem IsDouble.magnitude_lt (double : IsDouble mantissa exponent) :
    magnitudeOf mantissa exponent < infinityBits := by
  obtain ⟨short, least, most, filled⟩ := double
  simp only [magnitudeOf, leastNormal_eq, infinityBits_eq, leastExponent] at *
  omega

/-- A normal mantissa is not zero. -/
theorem IsNormal.pos (normal : IsNormal mantissa exponent) : 0 < mantissa :=
  Nat.lt_of_lt_of_le (by decide) normal.filled

/-- A normal mantissa has fifty-three bits. -/
theorem IsNormal.log2_eq (normal : IsNormal mantissa exponent) : mantissa.log2 = 52 := by
  obtain ⟨filled, short, -⟩ := normal
  rw [leastNormal_eq] at filled short
  exact (Nat.log2_eq_iff (by omega)).2 ⟨filled, by omega⟩

/-- A magnitude below that of infinity has an exponent that is not too large. -/
theorem IsNormal.double (normal : IsNormal mantissa exponent)
    (finite : magnitudeOf mantissa exponent < infinityBits) : IsDouble mantissa exponent := by
  obtain ⟨filled, short, least⟩ := normal
  -- The magnitude grows with the exponent, so a bound on it bounds the exponent.
  refine ⟨short, least, ?_, .inl filled⟩
  simp only [magnitudeOf, leastNormal_eq, infinityBits_eq, leastExponent] at *
  omega

/-- Bits below those of infinity are those of a finite double. -/
theorem exists_double {magnitude : Nat} (finite : magnitude < infinityBits) :
    ∃ mantissa exponent, IsDouble mantissa exponent ∧
      magnitude = magnitudeOf mantissa exponent := by
  rw [infinityBits_eq] at finite
  by_cases normal : 2 ^ 52 ≤ magnitude
  · -- The field of the exponent is not zero: the mantissa has its leading bit back.
    refine ⟨2 ^ 52 + magnitude % 2 ^ 52, leastExponent + (magnitude / 2 ^ 52 - 1 : Nat),
      ⟨?_, ?_, ?_, ?_⟩, ?_⟩ <;> simp only [magnitudeOf, leastNormal_eq, leastExponent] <;> omega
  · -- Below that all doubles share the least exponent.
    refine ⟨magnitude, leastExponent, ⟨?_, le_rfl, by decide, .inr rfl⟩, ?_⟩
    · rw [leastNormal_eq]
      omega
    · simp [magnitudeOf]

/-- The bits of a finite double stand for its mantissa and exponent. -/
theorem IsDouble.viewBits_eq (double : IsDouble mantissa exponent) (negative : Bool) :
    viewBits (negative.toNat * signBit + magnitudeOf mantissa exponent) =
      .finite negative mantissa exponent := by
  obtain ⟨short, least, most, filled⟩ := double
  rw [leastNormal_eq] at short filled
  rw [leastExponent] at least filled
  by_cases normal : 2 ^ 52 ≤ mantissa
  · -- The leading bit of the mantissa is carried into the field of the exponent.
    have parts : magnitudeOf mantissa exponent =
        (exponent + 1075).toNat * leastNormal + (mantissa - 2 ^ 52) := by
      rw [magnitudeOf, leastNormal_eq, leastExponent]
      omega
    have fraction : leastNormal + (mantissa - 2 ^ 52) = mantissa := by
      rw [leastNormal_eq]
      omega
    have field : leastExponent + ((exponent + 1075).toNat - 1 : Nat) = exponent := by
      rw [leastExponent]
      omega
    rw [parts, ← Nat.add_assoc, viewBits_fields negative (by omega) (by rw [leastNormal_eq]; omega),
      if_neg (by omega), if_neg (by omega), fraction, field]
  · have parts : magnitudeOf mantissa exponent = 0 * leastNormal + mantissa := by
      rw [magnitudeOf, leastNormal_eq, leastExponent]
      omega
    have field : leastExponent = exponent := by
      rw [leastExponent]
      omega
    rw [parts, ← Nat.add_assoc, viewBits_fields negative (by omega) (by rw [leastNormal_eq]; omega),
      if_neg (by omega), if_pos rfl, field]

/-- The bits of infinity stand for it. -/
theorem viewBits_infinity (negative : Bool) :
    viewBits (negative.toNat * signBit + infinityBits) = .infinite negative := by
  have parts : infinityBits = 2047 * leastNormal + 0 := rfl
  rw [parts, ← Nat.add_assoc, viewBits_fields negative (by decide) (by decide), if_pos rfl,
    if_pos rfl]

end

/-- All bits are those of a finite double or of infinity, or stand for no number. -/
theorem bits_cases {bits : Nat} (short : bits < 2 ^ 64) :
    (∃ negative mantissa exponent, IsDouble mantissa exponent ∧
      bits = Bool.toNat negative * signBit + magnitudeOf mantissa exponent) ∨
    (∃ negative, bits = Bool.toNat negative * signBit + infinityBits) ∨ viewBits bits = .nan := by
  -- The sign is taken off first, and the magnitude compared with that of infinity.
  obtain ⟨negative, magnitude, parts, inside⟩ :
      ∃ negative magnitude, bits = Bool.toNat negative * signBit + magnitude ∧
        magnitude < 2 ^ 63 := by
    rw [signBit_eq]
    by_cases high : 2 ^ 63 ≤ bits
    · exact ⟨true, bits - 2 ^ 63, by rw [Bool.toNat_true]; omega, by omega⟩
    · exact ⟨false, bits, by rw [Bool.toNat_false]; omega, by omega⟩
  rcases Nat.lt_trichotomy magnitude infinityBits with finite | infinite | beyond
  · obtain ⟨mantissa, exponent, double, rfl⟩ := exists_double finite
    exact .inl ⟨negative, mantissa, exponent, double, parts⟩
  · exact .inr (.inl ⟨negative, by rw [parts, infinite]⟩)
  · -- Beyond infinity the field of the exponent is full, and some bit of the fraction is set.
    rw [infinityBits_eq] at beyond
    have fields : magnitude = 2047 * leastNormal + (magnitude - 2047 * 2 ^ 52) := by
      rw [leastNormal_eq]
      omega
    rw [parts, fields, ← Nat.add_assoc, viewBits_fields negative (by decide)
      (by rw [leastNormal_eq]; omega), if_pos rfl, if_neg (by omega)]
    exact .inr (.inr rfl)

/-- A double by its sign and its magnitude. -/
theorem doubleOfMagnitude_eq (negative : Bool) (magnitude : Nat) :
    doubleOfMagnitude negative magnitude =
      Float.ofBits (UInt64.ofNat (negative.toNat * signBit + magnitude)) := by
  cases negative <;> simp [doubleOfMagnitude]

/-- What the double with a given sign and magnitude stands for. -/
theorem viewDouble_doubleOfMagnitude (negative : Bool) {magnitude : Nat}
    (inside : magnitude ≤ infinityBits)
    (number : viewBits (negative.toNat * signBit + magnitude) ≠ .nan) :
    viewDouble (doubleOfMagnitude negative magnitude) =
      viewBits (negative.toNat * signBit + magnitude) := by
  have bit := negative.toNat_le
  -- A magnitude up to infinity leaves the place of the sign free.
  have fits : (UInt64.ofNat (negative.toNat * signBit + magnitude)).toNat =
      negative.toNat * signBit + magnitude := by
    rw [infinityBits_eq] at inside
    rw [signBit_eq]
    exact UInt64.toNat_ofNat_of_lt' (by simp only [UInt64.size]; omega)
  rw [viewDouble, doubleOfMagnitude_eq, toBits_ofBits (by rwa [fits]), fits]

/-- What an infinite double stands for. -/
@[simp] theorem viewDouble_infinity (negative : Bool) :
    viewDouble (doubleOfMagnitude negative infinityBits) = .infinite negative := by
  have bits := viewBits_infinity negative
  rw [viewDouble_doubleOfMagnitude negative le_rfl (by simp [bits]), bits]

section

variable {value : Float} {negative : Bool} {mantissa : Nat} {exponent : Int}

/-- What a finite double stands for. -/
theorem IsDouble.viewDouble_eq (double : IsDouble mantissa exponent) :
    viewDouble (doubleOfMagnitude negative (magnitudeOf mantissa exponent)) =
      .finite negative mantissa exponent := by
  have bits := double.viewBits_eq negative
  rw [viewDouble_doubleOfMagnitude negative double.magnitude_lt.le (by simp [bits]), bits]

/-- A double is given by its bits, taken as a sign and a magnitude. -/
theorem eq_doubleOfMagnitude {magnitude : Nat}
    (bits : value.toBits.toNat = negative.toNat * signBit + magnitude) :
    value = doubleOfMagnitude negative magnitude := by
  rw [doubleOfMagnitude_eq, ← bits, UInt64.ofNat_toNat, Float.ofBits_toBits]

/-- A finite double is given by what it stands for. -/
theorem eq_of_viewDouble_finite (view : viewDouble value = .finite negative mantissa exponent) :
    IsDouble mantissa exponent ∧
      value = doubleOfMagnitude negative (magnitudeOf mantissa exponent) := by
  rw [viewDouble] at view
  -- The bits are of one of three kinds, and only the first is read as a finite number.
  rcases bits_cases value.toBits.toNat_lt with ⟨sign, m, e, double, bits⟩ | ⟨sign, bits⟩ | none
  · rw [bits, double.viewBits_eq] at view
    obtain ⟨rfl, rfl, rfl⟩ := view
    exact ⟨double, eq_doubleOfMagnitude bits⟩
  · rw [bits, viewBits_infinity] at view
    cases view
  · rw [none] at view
    cases view

/-- An infinite double is given by what it stands for. -/
theorem eq_of_viewDouble_infinite (view : viewDouble value = .infinite negative) :
    value = doubleOfMagnitude negative infinityBits := by
  rw [viewDouble] at view
  -- Of the three kinds of bits only the second is read as infinity.
  rcases bits_cases value.toBits.toNat_lt with ⟨sign, m, e, double, bits⟩ | ⟨sign, bits⟩ | none
  · rw [bits, double.viewBits_eq] at view
    cases view
  · rw [bits, viewBits_infinity] at view
    cases view
    exact eq_doubleOfMagnitude bits
  · rw [none] at view
    cases view

end

end Climb
