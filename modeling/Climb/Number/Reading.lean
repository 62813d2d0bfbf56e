import Climb.Error
import Climb.Text.Blank
import Climb.Text.Numeral

/-! Reading numbers from text, with the digits of any script. -/

namespace Climb

/-- The white space that may stand around a number, once the text is in ASCII. -/
def isAsciiBlank (c : Char) : Bool :=
  c == ' ' || (0x09 ≤ c.toNat && c.toNat ≤ 0x0d)

/-- A text with blanks and digits of any script in ASCII, cut off at the first other character. -/
def foldScripts : List Char → List Char
  | [] => []
  | c :: rest =>
    if c.toNat < 127 then c :: foldScripts rest
    else if isBlank c then ' ' :: foldScripts rest
    else match decimalValue? c with
      | some value => Nat.digitChar value :: foldScripts rest
      -- A question mark is part of no number, so the text will be refused.
      | none => ['?']

/-- The value of ASCII digits, most significant first. -/
def digitsValue (digits : List Char) : Nat :=
  digits.foldl (fun value c => 10 * value + (c.toNat - '0'.toNat)) 0

/-- Splits off a leading sign; true means negative. -/
def splitSign : List Char → Bool × List Char
  | '-' :: rest => (true, rest)
  | '+' :: rest => (false, rest)
  | text => (false, text)

/-- Whether every underscore in a text stands between two digits. -/
def underscoresJoin : Option Char → List Char → Bool
  | _, [] => true
  | before, '_' :: rest =>
    before.any isDigit && rest.head?.any isDigit && underscoresJoin (some '_') rest
  | _, c :: rest => underscoresJoin (some c) rest

/-- The most digits that a whole number is read from. -/
def readingLimit : Nat := 4300

/-- Reads a whole number: blanks around it, a sign, and underscores between digits are allowed. -/
def readInt (text : String) : Except Error Int :=
  let refused := Except.error (.value (.notAnInteger text))
  let (negative, body) := splitSign ((foldScripts text.toList).dropWhile isAsciiBlank)
  let run := body.takeWhile fun c => isDigit c || c == '_'
  let digits := run.filter isDigit
  if digits.isEmpty || !underscoresJoin none run then refused
  -- The length is judged before what follows the digits.
  else if readingLimit < digits.length then .error (.value (.literalTooLong digits.length))
  else if (body.drop run.length).all isAsciiBlank then
    let magnitude : Int := digitsValue digits
    .ok (if negative then -magnitude else magnitude)
  else refused

/-- Reads an exponent mark with its digits, or nothing at all. -/
def readExponent? : List Char → Option Int
  | [] => some 0
  | mark :: rest =>
    let (negative, digits) := splitSign rest
    if (mark == 'e' || mark == 'E') && !digits.isEmpty && digits.all isDigit then
      let magnitude : Int := digitsValue digits
      some (if negative then -magnitude else magnitude)
    else none

/-- The double nearest to `digits * 10 ^ power`. -/
def decimalDouble (negative : Bool) (digits : Nat) (power : Int) : Float :=
  -- Beyond these places every double is infinite or zero, whatever the digits.
  let places : Int := (decimalChars digits).length + power
  if digits = 0 ∨ places < -400 then doubleOfMagnitude negative 0
  else if 400 < places then doubleOfMagnitude negative infinityBits
  else
    let (num, den) := decimalQuotient digits power
    nearestDouble negative num den

/-- Reads an unsigned decimal: digits, a fraction, an exponent. -/
def readMagnitude? (negative : Bool) (text : List Char) : Option Float :=
  let whole := text.takeWhile isDigit
  let afterWhole := text.drop whole.length
  let fraction := match afterWhole with
    | '.' :: rest => rest.takeWhile isDigit
    | _ => []
  let afterFraction := match afterWhole with
    | '.' :: rest => rest.drop fraction.length
    | _ => afterWhole
  if whole.isEmpty && fraction.isEmpty then none
  else (readExponent? afterFraction).map fun exponent =>
    decimalDouble negative (digitsValue (whole ++ fraction)) (exponent - fraction.length)

/-- Reads the name of a value that is no finite number. -/
def readSpecial? (negative : Bool) (text : List Char) : Option Float :=
  let word := String.ofList (text.map Char.toLower)
  if word = "inf" ∨ word = "infinity" then some (doubleOfMagnitude negative infinityBits)
  else if word = "nan" then some (doubleOfMagnitude negative (infinityBits + leastNormal / 2))
  else none

/-- Reads a double: blanks around it, a sign, and underscores between digits are allowed. -/
def readDouble (text : String) : Except Error Float :=
  let folded := (foldScripts text.toList).dropWhile isAsciiBlank
  let trimmed := (folded.reverse.dropWhile isAsciiBlank).reverse
  let (negative, body) := splitSign (trimmed.filter (· != '_'))
  let outcome := if underscoresJoin none trimmed then
      (readMagnitude? negative body).or (readSpecial? negative body)
    else none
  match outcome with
  | some value => .ok value
  | none => .error (.value (.notADecimal text))

/-- Reads the text of a number token: a double if it has a point, else a whole number. -/
def readNumber : Option String → Except Error Number
  | none => .error (.value .numberTextMissing)
  | some text => do
    if text.toList.contains '.' then return .float (← readDouble text)
    else return .int (← readInt text)

end Climb
