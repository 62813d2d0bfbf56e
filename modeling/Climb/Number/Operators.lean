import Climb.Error
import Climb.Number.Gamma

/-! What the operators of the expression language compute. -/

namespace Climb

/-- The most bits that a power or a factorial may have, before it is refused as too large. -/
def sizeLimit : Nat := twoPow 16

/-- The product of the whole numbers from one up to a given one. -/
def factorial : Nat → Nat
  | 0 => 1
  | n + 1 => (n + 1) * factorial n

namespace Number

/-- A number as a double, if it does not lie beyond them. -/
def toDouble : Number → Except Error Float
  | int value =>
    match doubleOfInt? value with
    | some rounded => .ok rounded
    | none => .error (.range .operand)
  | float value => .ok value
  | bool value => .ok (doubleOfMagnitude false (if value then nearestBits 1 1 else 0))

/-- An operation that is exact on whole numbers, and else is done on doubles. -/
def arithmetic (exact : Int → Int → Int) (rounded : Float → Float → Float)
    (left right : Number) : Except Error Number :=
  match left.whole?, right.whole? with
  | some left, some right => .ok (.int (exact left right))
  | _, _ => do
    let left ← left.toDouble
    let right ← right.toDouble
    return .float (rounded left right)

/-- The sum of two numbers. -/
def add : Number → Number → Except Error Number :=
  arithmetic (· + ·) (· + ·)

/-- The difference of two numbers. -/
def sub : Number → Number → Except Error Number :=
  arithmetic (· - ·) (· - ·)

/-- The product of two numbers. -/
def mul : Number → Number → Except Error Number :=
  arithmetic (· * ·) (· * ·)

/-- The quotient of two numbers, always a double and rounded only once. -/
def div (left right : Number) : Except Error Number :=
  if right.isZero then .error (.ofEval .divisionByZero)
  else match left.whole?, right.whole? with
  | some num, some den =>
    match nearestDouble? ((num < 0) != (den < 0)) num.natAbs den.natAbs with
    | some quotient => .ok (.float quotient)
    | none => .error (.range .quotient)
  | _, _ => do
    let left ← left.toDouble
    let right ← right.toDouble
    return .float (left / right)

/-- Why a double power has no real value. -/
inductive PowerRefusal where
  | undefined (fault : PowerFault)
  | notReal

/-- The magnitude bits of a double. -/
def magnitudeBits (value : Float) : Nat :=
  value.toBits.toNat % signBit

/-- A double without its sign. -/
def absolute (value : Float) : Float :=
  doubleOfMagnitude false (magnitudeBits value)

/-- Whether a double is infinite. -/
def isInfinite (value : Float) : Bool :=
  magnitudeBits value == infinityBits

/-- Whether a double is an odd whole number. -/
def isOddDouble (value : Float) : Bool :=
  (wholeValue? value).any fun whole => whole % 2 == 1

/-- A power whose base or exponent is zero, infinite or no number at all, or whose base is one. -/
def specialPower? (base exponent : Float) : Option (Except PowerRefusal Float) :=
  let infinity := doubleOfMagnitude false infinityBits
  let sign (value : Float) := if isOddDouble exponent then value else absolute value
  if exponent == 0 then some (.ok 1)
  else if base.isNaN then some (.ok base)
  else if exponent.isNaN then some (.ok (if base == 1 then 1 else exponent))
  else if isInfinite exponent then
    let size := absolute base
    if size == 1 then some (.ok 1)
    else if (exponent > 0) == (size > 1) then some (.ok infinity)
    else some (.ok 0)
  else if isInfinite base then
    if exponent > 0 then some (.ok (sign base))
    else some (.ok (sign (doubleOfMagnitude (base < 0) 0)))
  else if base == 0 then
    if exponent < 0 then some (.error (.undefined .zeroToNegative))
    else some (.ok (sign base))
  else none

/-- A power of doubles. -/
def powDouble (base exponent : Float) : Except PowerRefusal Float :=
  match specialPower? base exponent with
  | some outcome => outcome
  | none =>
    let size := absolute base
    if base < 0 && (wholeValue? exponent).isNone then
      -- The value is complex, and refused in either case.
      .error (if isInfinite (size ^ exponent) then .undefined .complexBeyondRange else .notReal)
    else
      let negative := base < 0 && isOddDouble exponent
      let power := if size == 1 then 1 else size ^ exponent
      if isInfinite power then .error (.undefined .beyondRange)
      else .ok (if negative then -power else power)

/-- Refuses a power of whole numbers whose estimated length is over the size limit. -/
def checkPowerSize (base exponent : Number) : Except Error Unit :=
  match base.whole?, exponent.whole? with
  | some wholeBase, some wholeExponent =>
    if 0 < wholeExponent ∧ 1 < wholeBase.natAbs then do
      let estimate := (← exponent.toDouble) * logOfNat wholeBase.natAbs
      if estimate > nearestDouble false sizeLimit 1 then
        .error (.ofEval (.powerTooLarge base exponent))
      else .ok ()
    else .ok ()
  | _, _ => .ok ()

/-- An exact power, with bases that never grow kept apart so that their exponent may be huge. -/
def powInt (base : Int) (exponent : Nat) : Int :=
  if base.natAbs ≤ 1 then
    if exponent = 0 then 1 else if exponent % 2 = 0 then base * base else base
  else
    let magnitude : Int := Nat.pow base.natAbs exponent
    if base < 0 ∧ exponent % 2 = 1 then -magnitude else magnitude

/-- A power in doubles, its failures told with both operands. -/
def powRounded (base exponent : Number) : Except Error Number :=
  let refused (fault : PowerFault) := Error.ofEval (.powerUndefined base exponent fault)
  match base.toDouble, exponent.toDouble with
  | .ok roundedBase, .ok roundedExponent =>
    match powDouble roundedBase roundedExponent with
    | .ok power => .ok (.float power)
    | .error (.undefined fault) => .error (refused fault)
    | .error .notReal => .error (.ofEval (.powerNotReal base exponent))
  | _, _ => .error (refused .operandBeyondRange)

/-- The power of two numbers, exact for whole numbers with an exponent of zero or more. -/
def pow (base exponent : Number) : Except Error Number := do
  checkPowerSize base exponent
  match base.whole?, exponent.whole? with
  | some wholeBase, some wholeExponent =>
    if 0 ≤ wholeExponent then return .int (powInt wholeBase wholeExponent.toNat)
    else powRounded base exponent
  | _, _ => powRounded base exponent

/-- The whole number that an operator needs; truth values are none, whole doubles are. -/
def requireInt (op : String) : Number → Except Error Int
  | int value => .ok value
  | float value =>
    match wholeValue? value with
    | some whole => .ok whole
    | none => .error (.ofEval (.needsInteger op (.float value)))
  | bool value => .error (.ofEval (.needsInteger op (.bool value)))

/-- The negation of a number. -/
def neg : Number → Number
  | int value => .int (-value)
  | float value => .float (-value)
  | bool value => .int (if value then -1 else 0)

/-- An operator before its operand. -/
def applyBefore (op : Label) (value : Number) : Except Error Number :=
  match op with
  | some "+" => .ok value
  | some "-" => .ok value.neg
  | some "~" => do return .int (-(← value.requireInt "~") - 1)
  | some "!" => .ok (.int (if value.isZero then 1 else 0))
  | _ => .error (.ofEval (.unknownOperator .before op))

/-- Whether a whole number or the estimated length of its factorial is over the size limit. -/
def isFactorialTooLarge (value : Nat) : Bool :=
  sizeLimit < value ||
    logGamma (value + 1) / naturalLog (nearestDouble false 2 1) > nearestDouble false sizeLimit 1

/-- The factorial of a whole number that is not negative and not too large. -/
def factorialOf (value : Int) : Except Error Number :=
  if value < 0 then .error (.ofEval (.negativeFactorial value))
  else if isFactorialTooLarge value.toNat then .error (.ofEval (.factorialTooLarge value))
  else .ok (.int (factorial value.toNat))

/-- An operator after its operand. -/
def applyAfter (op : Label) (value : Number) : Except Error Number :=
  match op with
  | some "!" => do factorialOf (← value.requireInt "!")
  | _ => .error (.ofEval (.unknownOperator .after op))

/-- An operator between its operands. -/
def applyBetween (op : Label) (left right : Number) : Except Error Number :=
  match op with
  | some "+" => left.add right
  | some "-" => left.sub right
  | some "*" => left.mul right
  | some "/" => left.div right
  | some "^" => left.pow right
  | some ";" => .ok right
  | _ => .error (.ofEval (.unknownOperator .between op))

end Number

end Climb
