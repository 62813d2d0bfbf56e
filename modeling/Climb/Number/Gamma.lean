import Climb.Number.Log
import Climb.Number.Shortest

/-! The logarithm of the gamma function at whole numbers, by Lanczos's approximation. -/

namespace Climb

/-- The double nearest to a constant that is written with some decimal places. -/
def doubleConstant (digits places : Nat) : Float :=
  nearestDouble false digits (tenPow places)

/-- How far the approximation shifts its argument. -/
def lanczosShift : Float :=
  doubleConstant 6024680040776729583740234375 27

/-- The numerator's coefficients, from the lowest power up: digits, and how many are decimals. -/
def lanczosNumerator : List (Nat × Nat) := [
  (23531376880410759688572007674451636754734846804940, 39),
  (42919803642649098768957899047001988850926355848959, 39),
  (35711959237355668049440185451547166705960488635843, 39),
  (17921034426037209699919755754458931112671403265390, 39),
  (60395425863520280050642916443072979210699388420708, 40),
  (14397204073117216736632230727949123939715485786372, 40),
  (24887455786205415651146038641322942321632125127801, 41),
  (31426415585400194380614231628318205362874684987640, 42),
  (28763706289353724412254090516208496135991145378768, 43),
  (18605626539522349504029498971604569928220784236328, 44),
  (80716720023658162106380029022722506138218516325024, 46),
  (21082427775157934587250973392071336271166969580291, 47),
  (25066282746310002701649081771338373386264310793408, 49)]

/-- The denominator's coefficients, from the lowest power up, which are whole. -/
def lanczosDenominator : List (Nat × Nat) := [
  (0, 0), (39916800, 0), (120543840, 0), (150917976, 0), (105258076, 0), (45995730, 0),
  (13339535, 0), (2637558, 0), (357423, 0), (32670, 0), (1925, 0), (66, 0), (1, 0)]

/-- Sums coefficients up, scaling what has been summed before each of them. -/
def scaledSum (scale : Float → Float) (coefficients : List (Nat × Nat)) : Float :=
  coefficients.foldl (fun sum (digits, places) => scale sum + doubleConstant digits places)
    (doubleConstant 0 0)

/-- The quotient of the two polynomials at a positive double. -/
def lanczosSum (value : Float) : Float :=
  if value < doubleConstant 5 0 then
    scaledSum (· * value) lanczosNumerator.reverse /
      scaledSum (· * value) lanczosDenominator.reverse
  else
    -- The powers of large numbers are beyond the doubles, so both polynomials are divided by one.
    scaledSum (· / value) lanczosNumerator / scaledSum (· / value) lanczosDenominator

/-- The natural logarithm of the gamma function at a positive whole number. -/
def logGamma (number : Nat) : Float :=
  -- At one and two the function itself is one, and its logarithm exactly zero.
  if number ≤ 2 then doubleConstant 0 0
  else
    let value := nearestDouble false number 1
    let half := doubleConstant 5 1
    let power := (value - half) * (naturalLog (value + lanczosShift - half) - doubleConstant 1 0)
    naturalLog (lanczosSum value) - lanczosShift + power

end Climb
