import Climb.Number.Double

/-! Decimal text of doubles: the fewest digits that read back, and how they are laid out. -/

namespace Climb

/-- Decimal digits with a scale: the number `0.digits * 10 ^ point`. -/
structure Digits where
  /-- The digits as a whole number, without trailing zeros. -/
  whole : Nat
  /-- How many digits stand left of the decimal point. -/
  point : Int
deriving Repr, DecidableEq

/-- A power of ten. -/
def tenPow (exponent : Nat) : Nat :=
  Nat.pow 10 exponent

/-- The number `whole * 10 ^ power` as a numerator and a denominator. -/
def decimalQuotient (whole : Nat) (power : Int) : Nat × Nat :=
  if power < 0 then (whole, tenPow (-power).toNat) else (whole * tenPow power.toNat, 1)

/-- Whether one quotient is at most another. -/
def quotientLe (left right : Nat × Nat) : Bool :=
  left.1 * right.2 ≤ right.1 * left.2

/-- Whether `mantissa * 2 ^ exponent` is the nearest double to `whole * 10 ^ power`. -/
def readsBack (mantissa : Nat) (exponent : Int) (whole : Nat) (power : Int) : Bool :=
  let decimal := decimalQuotient whole power
  -- Half a step up and half a step down, which is shorter below a power of two, in quarters.
  let above := scaleQuotient (4 * mantissa + 2) 4 exponent
  let shorter := mantissa = leastNormal ∧ leastExponent < exponent
  let below := scaleQuotient (if shorter then 4 * mantissa - 1 else 4 * mantissa - 2) 4 exponent
  -- The ends belong to the double exactly if its mantissa is even.
  if mantissa % 2 = 0 then quotientLe below decimal && quotientLe decimal above
  else !quotientLe decimal below && !quotientLe above decimal

/-- How many decimal digits stand left of the point in `mantissa * 2 ^ exponent`. -/
def decimalPoint (mantissa : Nat) (exponent : Int) : Int :=
  -- The binary length times the logarithm of two is right or one too small.
  let guess := Int.fdiv (((mantissa.log2 : Int) + exponent) * 30103) 100000 + 1
  if quotientLe (decimalQuotient 1 guess) (scaleQuotient mantissa 1 exponent) then guess + 1
  else guess

/-- The floor of `mantissa * 2 ^ exponent / 10 ^ power`. -/
def decimalFloor (mantissa : Nat) (exponent : Int) (power : Int) : Nat :=
  let (num, den) := scaleQuotient mantissa 1 exponent
  if power < 0 then num * tenPow (-power).toNat / den else num / (den * tenPow power.toNat)

/-- Which of a value's two neighbours on a decimal grid reads back, the nearer if both do. -/
def gridNeighbour? (mantissa : Nat) (exponent : Int) (power : Int) : Option Nat :=
  let low := decimalFloor mantissa exponent power
  let lowHits := readsBack mantissa exponent low power
  let highHits := readsBack mantissa exponent (low + 1) power
  if lowHits && highHits then
    -- The middle of the two is compared with the value; a tie goes to the even neighbour.
    let middle := decimalQuotient (2 * low + 1) power
    let twice := scaleQuotient (2 * mantissa) 1 exponent
    let below := quotientLe twice middle
    let above := quotientLe middle twice
    if below && above then some (if low % 2 = 0 then low else low + 1)
    else some (if below then low else low + 1)
  else if lowHits then some low
  else if highHits then some (low + 1)
  else none

/-- The first grid, among those with more and more digits, on which a neighbour reads back. -/
def searchDigits (mantissa : Nat) (exponent point : Int) : Nat → Nat → Nat × Int
  | 0, count => (decimalFloor mantissa exponent (point - count), point - count)
  | tries + 1, count =>
    match gridNeighbour? mantissa exponent (point - count) with
    | some whole => (whole, point - count)
    | none => searchDigits mantissa exponent point tries (count + 1)

/-- A whole number without its trailing zeros, and how many there were. -/
def dropZeros : Nat → Nat → Nat × Nat
  | 0, whole => (whole, 0)
  | tries + 1, whole =>
    if whole ≠ 0 ∧ whole % 10 = 0 then
      let (rest, count) := dropZeros tries (whole / 10)
      (rest, count + 1)
    else (whole, 0)

/-- The characters of a whole number in decimal. -/
def decimalChars (whole : Nat) : List Char :=
  (toString whole).toList

/-- The fewest digits that read back as a positive double, and of those the nearest. -/
def shortestDigits (mantissa : Nat) (exponent : Int) : Digits :=
  -- Seventeen digits always suffice.
  let (found, power) := searchDigits mantissa exponent (decimalPoint mantissa exponent) 17 1
  let (whole, dropped) := dropZeros 17 found
  ⟨whole, power + dropped + (decimalChars whole).length⟩

/-- How digits are laid out as text. -/
structure DigitLayout where
  /-- The least decimal exponent written without an exponent mark. -/
  leastPlain : Int
  /-- The first decimal exponent above those written without an exponent mark. -/
  firstMarked : Int
  /-- The least number of digits of a written exponent. -/
  exponentWidth : Nat

/-- Doubles are positional from four zeros after the point up to sixteen digits before it. -/
def doubleLayout : DigitLayout := ⟨-4, 16, 2⟩

/-- Digits with a decimal point, and a zero on a side that would be empty. -/
def positionalChars (digits : List Char) (point : Int) : List Char :=
  if point ≤ 0 then '0' :: '.' :: List.replicate (-point).toNat '0' ++ digits
  else if digits.length ≤ point.toNat then
    digits ++ List.replicate (point.toNat - digits.length) '0' ++ ['.', '0']
  else digits.take point.toNat ++ '.' :: digits.drop point.toNat

/-- Digits with one of them before the point, and an exponent. -/
def markedChars (width : Nat) (digits : List Char) (exponent : Int) : List Char :=
  let shown := decimalChars exponent.natAbs
  let fraction := digits.drop 1
  digits.take 1 ++ (if fraction.isEmpty then [] else '.' :: fraction) ++ 'e' ::
    (if exponent < 0 then '-' else '+') :: List.replicate (width - shown.length) '0' ++ shown

/-- Digits as a layout writes them. -/
def DigitLayout.write (layout : DigitLayout) (digits : Digits) : List Char :=
  let exponent := digits.point - 1
  let shown := decimalChars digits.whole
  if layout.leastPlain ≤ exponent ∧ exponent < layout.firstMarked then
    positionalChars shown digits.point
  else markedChars layout.exponentWidth shown exponent

/-- The characters of a double. -/
def floatChars (value : Float) : List Char :=
  match viewDouble value with
  | .nan => "nan".toList
  | .infinite negative => (if negative then "-inf" else "inf").toList
  | .finite negative mantissa exponent =>
    let magnitude := if mantissa = 0 then "0.0".toList
      else doubleLayout.write (shortestDigits mantissa exponent)
    if negative then '-' :: magnitude else magnitude

/-- The text of a double. -/
def floatText (value : Float) : String :=
  String.ofList (floatChars value)

end Climb
