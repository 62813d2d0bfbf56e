import Climb.Number.Double

/-! Binary and natural logarithms, rounded to doubles. -/

namespace Climb

/-- Bits of a fraction while its logarithm is taken; each squaring doubles the error. -/
def workingBits : Nat := 192

/-- Bits of a logarithm behind the point. -/
def logBits : Nat := 110

/--
The first bits of the logarithm of a number from one up to two, given in units of
`2 ^ -workingBits`: each squaring doubles the logarithm, and brings one bit before the point.
-/
def logFraction : Nat → Nat → Nat
  | 0, _ => 0
  | bits + 1, value =>
    let square := value * value / twoPow workingBits
    if twoPow (workingBits + 1) ≤ square then twoPow bits + logFraction bits (square / 2)
    else logFraction bits square

/-- The binary logarithm of `mantissa * 2 ^ exponent`, in units of `2 ^ -logBits`. -/
def logUnits (mantissa : Nat) (exponent : Int) : Int :=
  let length := mantissa.log2
  (exponent + length) * twoPow logBits +
    logFraction logBits (mantissa * twoPow workingBits / twoPow length)

/-- The double nearest to the binary logarithm of `mantissa * 2 ^ exponent`. -/
def logDouble (mantissa : Nat) (exponent : Int) : Float :=
  let scaled := logUnits mantissa exponent
  nearestDouble (scaled < 0) scaled.natAbs (twoPow logBits)

/-- The binary logarithm of a positive double. -/
def logOfDouble (value : Float) : Float :=
  match viewDouble value with
  | .finite _ mantissa exponent => logDouble mantissa exponent
  | _ => value

/-- The binary logarithm of a positive whole number, which may be beyond the doubles. -/
def logOfNat (value : Nat) : Float :=
  match doubleOfInt? value with
  | some rounded => logOfDouble rounded
  | none =>
    -- The number is a fraction from a half up to one times a power of two, and both count.
    let magnitude := nearestBits value (twoPow (value.log2 + 1))
    let carried := magnitude / leastNormal = 0x3ff
    let exponent := if carried then value.log2 + 2 else value.log2 + 1
    let fraction := if carried then nearestBits 1 2 else magnitude
    logOfDouble (doubleOfMagnitude false fraction) + nearestDouble false exponent 1

/-- Bits of the natural logarithm of two behind the point. -/
def logTwoBits : Nat := 128

/-- The natural logarithm of two, in units of `2 ^ -logTwoBits`. -/
def logTwo : Nat := 235865763225513294137944142764154484399

/-- The natural logarithm of a positive double. -/
def naturalLog (value : Float) : Float :=
  match viewDouble value with
  | .finite _ mantissa exponent =>
    let scaled := logUnits mantissa exponent * logTwo
    nearestDouble (scaled < 0) scaled.natAbs (twoPow (logBits + logTwoBits))
  | _ => value

end Climb
