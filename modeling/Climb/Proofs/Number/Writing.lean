import Mathlib
import Climb.Expr.Outline
import Climb.Proofs.Number.Reading

/-! Which numbers can be written, and that those that have been read can. -/

namespace Climb

/-- Powers of ten grow with their exponent. -/
theorem tenPow_le {less more : Nat} (le : less ≤ more) : tenPow less ≤ tenPow more :=
  Nat.pow_le_pow_right (by decide) le

/-- Powers of ten are at least those of two. -/
theorem two_pow_le_tenPow (exponent : Nat) : 2 ^ exponent ≤ tenPow exponent :=
  Nat.pow_le_pow_left (by decide) exponent

/-- A sign plays no part in whether a whole number can be written. -/
theorem isWritable_signed (negative : Bool) (magnitude : Nat) :
    isWritable (if negative then -(magnitude : Int) else magnitude) = true ↔
      magnitude < writingBound := by
  cases negative <;> simp [isWritable]

/-- Scaling a mantissa leaves less than its bits and those of the scale can hold. -/
theorem scaleQuotient_lt {mantissa bits : Nat} (power : Int) (short : mantissa < 2 ^ bits) :
    (scaleQuotient mantissa 1 power).1 / (scaleQuotient mantissa 1 power).2 <
      2 ^ (bits + power.toNat) := by
  have plain : ∀ exponent, twoPow exponent = 2 ^ exponent := fun _ => rfl
  unfold scaleQuotient
  split
  · -- A negative power only divides.
    exact Nat.lt_of_le_of_lt (Nat.div_le_self _ _)
      (Nat.lt_of_lt_of_le short (Nat.pow_le_pow_right (by decide) (Nat.le_add_right _ _)))
  · -- Any other power shifts the bits of the mantissa up.
    rw [Nat.div_one, plain, Nat.pow_add]
    exact Nat.mul_lt_mul_of_pos_right short (Nat.two_pow_pos _)

/-- The fields of a finite double are a short mantissa and an exponent that is not too large. -/
theorem viewBits_finite {bits mantissa : Nat} {negative : Bool} {exponent : Int}
    (view : viewBits bits = .finite negative mantissa exponent) :
    mantissa < 2 ^ 53 ∧ exponent ≤ 971 := by
  have normal : leastNormal = 2 ^ 52 := rfl
  have sign : signBit = 2 ^ 63 := rfl
  -- The three kinds of fields: full, empty, and those of a normal double.
  simp only [viewBits, normal, sign] at view
  split at view
  · -- Not reached: a full field is never read as finite.
    split at view <;> cases view
  · split at view
    · cases view
      exact ⟨by omega, by decide⟩
    · rename_i ordinary _
      simp only [DoubleView.finite.injEq] at view
      obtain ⟨-, rfl, rfl⟩ := view
      simp only [leastExponent]
      omega

/-- A double that is a whole number has few enough digits to be written. -/
theorem isWritable_wholeValue {value : Float} {whole : Int}
    (known : wholeValue? value = some whole) :
    isWritable whole = true := by
  simp only [wholeValue?] at known
  split at known
  · rename_i negative mantissa exponent view
    obtain ⟨short, small⟩ := viewBits_finite view
    split at known
    · simp only [Option.some.injEq] at known
      rw [← known, isWritable_signed]
      -- Every power of two fits among as many decimal digits, which is coarse, but 1024 are far
      -- below the limit of 4300.
      calc _ < 2 ^ (53 + exponent.toNat) := scaleQuotient_lt exponent short
        _ ≤ tenPow (53 + exponent.toNat) := two_pow_le_tenPow _
        _ ≤ tenPow 4300 := tenPow_le (by omega)
    · cases known
  · cases known

namespace Number

/-- Writing a number fails only if it is a whole number with too many digits. -/
theorem format_cases (value : Number) :
    (∃ text, value.format = .ok text) ∨
      value.writable = false ∧ value.format = .error (.value .writingTooLong) := by
  -- Only a whole number can be too long: a float is written by its shortest digits.
  cases value with
  | int value =>
    simp only [format, intText, writable]
    cases isWritable value with
    | true => exact .inl ⟨_, rfl⟩
    | false => exact .inr ⟨rfl, rfl⟩
  | float value =>
    simp only [format]
    split
    · rename_i whole known
      -- A float that is whole is written as one, and no float is too large for that.
      simp only [intText, isWritable_wholeValue known, if_true]
      exact .inl ⟨_, rfl⟩
    · exact .inl ⟨_, rfl⟩
  | bool value => exact .inl ⟨_, rfl⟩

/-- A number that can be written has a text in an outline. -/
theorem outlineText_writable {value : Number} (short : value.writable = true) :
    ∃ text, value.outlineText = .ok text := by
  cases value with
  | int value =>
    have few : isWritable value = true := short
    exact ⟨toString value, by simp only [outlineText, intText, few, if_true]⟩
  | float value => exact ⟨_, rfl⟩
  | bool value => exact ⟨_, rfl⟩

end Number

/-- A whole number that has been read can be written. -/
theorem isWritable_readInt {text : String} {value : Int} (read : readInt text = .ok value) :
    isWritable value = true := by
  -- Reading has the same limit as writing, and it counts digits before it reads any.
  simp only [readInt] at read
  split at read
  · cases read
  · split at read
    · cases read
    · rename_i short
      split at read
      · -- The digits are few, and so are those of the number that they stand for.
        simp only [Except.ok.injEq] at read
        rw [← read, isWritable_signed]
        exact Nat.lt_of_lt_of_le (digitsValue_lt fun c member => (List.mem_filter.1 member).2)
          (tenPow_le (Nat.le_of_not_lt short))
      · cases read

end Climb
