import Climb.Number.Shortest

/-! Numbers of the expression language: whole numbers, doubles and truth values. -/

namespace Climb

/-- A number. Truth values count as one and zero. -/
inductive Number where
  | int (value : Int)
  | float (value : Float)
  | bool (value : Bool)
deriving DecidableEq

/-- The first whole number with more decimal digits than are ever written. -/
def writingBound : Nat := tenPow 4300

/-- Whether a whole number has few enough digits to be written. -/
def isWritable (value : Int) : Bool :=
  value.natAbs < writingBound

namespace Number

/-- The whole number that an integer or a truth value counts as. -/
def whole? : Number → Option Int
  | int value => some value
  | bool value => some (if value then 1 else 0)
  | float _ => none

/-- Whether a number has few enough digits to be written. -/
def writable : Number → Bool
  | int value => isWritable value
  | _ => true

/-- The text of a number. -/
def text : Number → String
  | int value => toString value
  | float value => floatText value
  | bool value => if value then "True" else "False"

/-- Whether a number equals zero, of either sign. -/
def isZero : Number → Bool
  | int value => value == 0
  | float value => value == 0
  | bool value => !value

end Number

end Climb
