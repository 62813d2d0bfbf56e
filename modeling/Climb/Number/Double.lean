/-! Doubles as exact numbers: sign, mantissa and power of two, and rounding to the nearest. -/

namespace Climb

/-- What a double stands for. -/
inductive DoubleView where
  | nan
  | infinite (negative : Bool)
  /-- The number `mantissa * 2 ^ exponent`, negated if `negative`. -/
  | finite (negative : Bool) (mantissa : Nat) (exponent : Int)
deriving Repr, DecidableEq

/-- A power of two. -/
def twoPow (exponent : Nat) : Nat :=
  Nat.pow 2 exponent

/-- Half of the range of a mantissa: the least mantissa of a normal double. -/
def leastNormal : Nat := twoPow 52

/-- The exponent of the smallest doubles. -/
def leastExponent : Int := -1074

/-- The magnitude bits of infinity, the first that no finite double has. -/
def infinityBits : Nat := 0x7ff * leastNormal

/-- The bit that marks a negative double. -/
def signBit : Nat := twoPow 63

/-- Reads the fields of sixty-four bits. -/
def viewBits (bits : Nat) : DoubleView :=
  let negative := signBit ≤ bits
  let magnitude := bits % signBit
  let fraction := magnitude % leastNormal
  let field := magnitude / leastNormal
  if field = 0x7ff then
    if fraction = 0 then .infinite negative else .nan
  else if field = 0 then .finite negative fraction leastExponent
  else .finite negative (leastNormal + fraction) (leastExponent + (field - 1 : Nat))

/-- What a double stands for. -/
def viewDouble (value : Float) : DoubleView :=
  viewBits value.toBits.toNat

/-- The double with given magnitude bits and sign. -/
def doubleOfMagnitude (negative : Bool) (magnitude : Nat) : Float :=
  Float.ofBits (UInt64.ofNat (if negative then signBit + magnitude else magnitude))

/-- A numerator and a denominator multiplied by a power of two, kept whole. -/
def scaleQuotient (num den : Nat) (power : Int) : Nat × Nat :=
  if power < 0 then (num, den * twoPow (-power).toNat) else (num * twoPow power.toNat, den)

/-- The floor of the binary logarithm of a positive quotient. -/
def quotientLog (num den : Nat) : Int :=
  -- The difference of the two lengths is right or one too large.
  let guess : Int := (num.log2 : Int) - den.log2
  let (scaledNum, scaledDen) := scaleQuotient num den (-guess)
  if scaledDen ≤ scaledNum then guess else guess - 1

/-- The nearest whole number to a quotient, a half going to the even neighbour. -/
def roundHalfEven (num den : Nat) : Nat :=
  let whole := num / den
  let twice := 2 * (num % den)
  if den < twice ∨ (twice = den ∧ whole % 2 = 1) then whole + 1 else whole

/--
Magnitude bits of the double nearest to a quotient, a half going to the even mantissa.
A result of `infinityBits` or more means that the quotient is beyond the finite doubles.
-/
def nearestBits (num den : Nat) : Nat :=
  if num = 0 then 0
  else
    -- Fifty-three bits are kept, fewer below the smallest normal double.
    let exponent := max (quotientLog num den - 52) leastExponent
    let (scaledNum, scaledDen) := scaleQuotient num den (-exponent)
    -- A mantissa that rounds up to the next power of two carries into the exponent field.
    (exponent - leastExponent).toNat * leastNormal + roundHalfEven scaledNum scaledDen

/-- The finite double nearest to a signed quotient, if there is one. -/
def nearestDouble? (negative : Bool) (num den : Nat) : Option Float :=
  let magnitude := nearestBits num den
  if magnitude < infinityBits then some (doubleOfMagnitude negative magnitude) else none

/-- The double nearest to a signed quotient, infinite beyond the finite ones. -/
def nearestDouble (negative : Bool) (num den : Nat) : Float :=
  doubleOfMagnitude negative (min (nearestBits num den) infinityBits)

/-- The finite double nearest to a whole number, if there is one. -/
def doubleOfInt? (value : Int) : Option Float :=
  nearestDouble? (value < 0) value.natAbs 1

/-- The whole number that a double is, if it is one. -/
def wholeValue? (value : Float) : Option Int :=
  match viewDouble value with
  | .finite negative mantissa exponent =>
    let (num, den) := scaleQuotient mantissa 1 exponent
    if num % den = 0 then
      let magnitude : Int := (num / den : Nat)
      some (if negative then -magnitude else magnitude)
    else none
  | _ => none

end Climb
