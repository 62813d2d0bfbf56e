import Climb.Proofs.Number.Gamma

/-! The failures of arithmetic: faults of evaluation, and those of the numbers themselves. -/

namespace Climb

/-- A failure of the numbers themselves: one left the range of doubles or is too long to write. -/
def Error.IsNumeric : Error → Prop
  | .range _ => True
  | .value _ => True
  | _ => False

/-- A failure with which an operator may end: a fault of evaluation or of the numbers. -/
def Error.IsComputed (failure : Error) : Prop :=
  (∃ fault, failure = .evaluation fault) ∨ failure.IsNumeric

/-- A computation that has a value, or else a failure that is computed. -/
inductive ComputedOnly {α : Type} : Except Error α → Prop
  | ok (value : α) : ComputedOnly (.ok value)
  | error {failure : Error} (computed : failure.IsComputed) : ComputedOnly (.error failure)

namespace ComputedOnly

variable {α β : Type}

/-- What fails in parts fails as its parts do. -/
theorem bind {first : Except Error α} {next : α → Except Error β} (start : ComputedOnly first)
    (rest : ∀ value, ComputedOnly (next value)) : ComputedOnly (first >>= next) := by
  cases start with
  | error computed => exact .error computed
  | ok value => exact rest value

/-- A fault of evaluation is computed, also where its text cannot be written. -/
theorem ofEval (fault : EvalFault) : ComputedOnly (.error (.ofEval fault) : Except Error α) := by
  refine .error ?_
  unfold Error.ofEval
  split
  · exact .inl ⟨fault, rfl⟩
  · exact .inr trivial

end ComputedOnly

namespace Number

/-- A number that is no double is out of their range. -/
theorem toDouble_fails (value : Number) : ComputedOnly value.toDouble := by
  unfold toDouble
  split
  · split
    · exact .ok _
    · exact .error (.inr trivial)
  · exact .ok _
  · exact .ok _

/-- A sum, a difference or a product fails where an operand is out of range. -/
theorem arithmetic_fails (exact : Int → Int → Int) (rounded : Float → Float → Float)
    (left right : Number) : ComputedOnly (arithmetic exact rounded left right) := by
  unfold arithmetic
  split
  · apply ComputedOnly.ok
  · -- Operands are turned into doubles only if one of them is such already.
    refine (toDouble_fails left).bind fun one => ?_
    exact (toDouble_fails right).bind fun other => .ok _

/-- A quotient fails where it is undefined or out of range. -/
theorem div_fails (left right : Number) : ComputedOnly (left.div right) := by
  -- A quotient of whole numbers is rounded once, any other is one of doubles.
  unfold div
  split
  · exact .ofEval _
  · split
    · split
      · exact .ok _
      · exact .error (.inr trivial)
    · refine (toDouble_fails left).bind fun one => ?_
      exact (toDouble_fails right).bind fun other => .ok _

/-- A power of whole numbers is refused where it is too long, or its length out of range. -/
theorem checkPowerSize_fails (base exponent : Number) :
    ComputedOnly (checkPowerSize base exponent) := by
  unfold checkPowerSize
  split
  · split
    · -- The estimate of the length is made in doubles.
      refine (toDouble_fails exponent).bind fun rounded => ?_
      simp only
      split
      · exact .ofEval _
      · exact .ok _
    · exact .ok _
  · exact .ok _

/-- A power in doubles tells all its failures as faults of evaluation. -/
theorem powRounded_fails (base exponent : Number) : ComputedOnly (powRounded base exponent) := by
  -- What the doubles refuse is told as a fault of the power.
  unfold powRounded
  simp only
  split
  · split
    · exact .ok _
    · exact .ofEval _
    · exact .ofEval _
  · exact .ofEval _

/-- A power fails where it is too large or undefined. -/
theorem pow_fails (base exponent : Number) : ComputedOnly (base.pow exponent) := by
  refine (checkPowerSize_fails base exponent).bind fun _ => ?_
  -- Once its size is checked, a power of whole numbers is exact and cannot fail.
  split
  · split
    · exact .ok _
    · exact powRounded_fails base exponent
  · exact powRounded_fails base exponent

/-- A whole number is required by a fault of evaluation. -/
theorem requireInt_fails (op : String) (value : Number) : ComputedOnly (value.requireInt op) := by
  unfold requireInt
  -- A double is taken where it is a whole number, which is decided before it is refused.
  split
  · exact .ok _
  · split
    · exact .ok _
    · exact .ofEval _
  · exact .ofEval _

/-- A factorial is refused by a fault of evaluation. -/
theorem factorialOf_fails (value : Int) : ComputedOnly (factorialOf value) := by
  unfold factorialOf
  split
  · exact .ofEval _
  · split
    · exact .ofEval _
    · exact .ok _

/-- An operator before its operand fails with a computed failure. -/
theorem applyBefore_fails (op : Label) (value : Number) : ComputedOnly (value.applyBefore op) := by
  unfold applyBefore
  -- By the operator; one that is not known is a fault as well.
  split
  · exact .ok _
  · exact .ok _
  · exact (requireInt_fails "~" value).bind fun whole => .ok _
  · exact .ok _
  · exact .ofEval _

/-- An operator after its operand fails with a computed failure. -/
theorem applyAfter_fails (op : Label) (value : Number) : ComputedOnly (value.applyAfter op) := by
  unfold applyAfter
  split
  · exact (requireInt_fails "!" value).bind factorialOf_fails
  · exact .ofEval _

/-- An operator between its operands fails with a computed failure. -/
theorem applyBetween_fails (op : Label) (left right : Number) :
    ComputedOnly (left.applyBetween op right) := by
  unfold applyBetween
  -- The three that are exact on whole numbers are one function.
  split
  · exact arithmetic_fails _ _ left right
  · exact arithmetic_fails _ _ left right
  · exact arithmetic_fails _ _ left right
  · exact div_fails left right
  · exact pow_fails left right
  · exact .ok _
  · exact .ofEval _

/-- The factorial of `171` is computed, as a whole number, but its quotients lie beyond doubles. -/
theorem factorial_beyond_doubles :
    applyAfter (some "!") (.int 171) = .ok (.int (factorial 171)) ∧
      applyBetween (some "/") (.int (factorial 171)) (.int 1) = .error (.range .quotient) := by
  refine ⟨applyAfter_factorial 171 (by decide), ?_⟩
  -- For any dividend beyond the doubles, so that this one need not be looked at.
  have divides : ∀ value, ¬nearestBits value 1 < infinityBits →
      applyBetween (some "/") (.int value) (.int 1) = .error (.range .quotient) := by
    intro value beyond
    simp [applyBetween, div, isZero, whole?, nearestDouble?, beyond]
  exact divides (factorial 171) (by decide +kernel)

end Number

end Climb
