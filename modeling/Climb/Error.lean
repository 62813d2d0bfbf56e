import Climb.Datum
import Climb.Number.Basic
import Climb.Token

/-! Everything that can go wrong, by cause, and the text of each cause. -/

namespace Climb

/-- The name of a variable, function or operator, which a tree built by hand may leave out. -/
abbrev Label := Option String

/-- A label inside running text. -/
def Label.plain (label : Label) : String :=
  label.getD "None"

/-- A label as messages show it exactly. -/
def Label.display : Label → String
  | none => "None"
  | some text => quoted text

/-- Where a rule applies: at the start of an expression, or after a finished operand. -/
inductive Position where
  | head | tail
deriving Repr, DecidableEq

/-- The short name of a position. -/
def Position.name : Position → String
  | .head => "prefix"
  | .tail => "xfix"

/-- A position in a sentence. -/
def Position.phrase : Position → String
  | .head => "prefix position"
  | .tail => "infix/postfix position"

/-- Why a rule was refused. -/
inductive GrammarFault where
  | strengthMissing
  | strengthNotWhole (given : Datum)
  | strengthNotPositive (given : Int)
  | associativityUnknown (given : Datum)
  | positionUnknown (given : Datum)
  | wrongPosition (rule : String) (position : Position)
  | custom (message : String)

/-- The text of a refusal. -/
def GrammarFault.message : GrammarFault → String
  | strengthMissing => "infix and postfix rules must specify a precedence"
  | strengthNotWhole given => "precedence must be an integer, got " ++ given.display
  | strengthNotPositive given => "xfix precedence must be positive, got " ++ toString given
  | associativityUnknown given =>
    "associativity must be an Associativity, got " ++ given.display
  | positionUnknown given => "cannot determine parselet position for " ++ given.display
  | wrongPosition rule position => rule ++ " cannot be registered in " ++ position.phrase
  | custom message => message

/-- Why a text is not a sequence of tokens. -/
inductive LexFault where
  | unexpectedCharacter (c : Char) (offset : Nat)
  | custom (message : String) (offset : Int)

/-- The text of a lexical fault. -/
def LexFault.message : LexFault → String
  | unexpectedCharacter c _ => "unexpected character " ++ quoted (String.singleton c)
  | custom message _ => message

/-- Where a lexical fault is, counted in characters. -/
def LexFault.offset : LexFault → Int
  | unexpectedCharacter _ offset => offset
  | custom _ offset => offset

/-- Why a sequence of tokens is not an expression. -/
inductive ParseFault where
  | noHeadRule (token : Token)
  | noTailRule (token : Token)
  | endOfInput (expected : Option TokenType)
  | unexpectedToken (token : Token) (expected : TokenType)
  | excessToken (token : Token)
  | assignmentTarget (token : Token)
  | tooDeep
  | custom (message : String) (token : Option Token)

namespace ParseFault

/-- The text of a parse fault. -/
def message : ParseFault → String
  | noHeadRule token => "no prefix rule for token " ++ token.describe
  | noTailRule token => "no infix or postfix rule for token " ++ token.describe
  | endOfInput none => "unexpected end of input"
  | endOfInput (some expected) => "unexpected end of input; expected " ++ expected.name
  | unexpectedToken token expected =>
    "unexpected " ++ token.describe ++ " token; expected " ++ expected.name
  | excessToken token => "excess token after expression: " ++ token.describe
  | assignmentTarget _ => "the left-hand side of an assignment must be a name"
  | tooDeep => "expression nests too deeply"
  | custom message _ => message

/-- The token at which a parse failed, if it did not fail at the end of the input. -/
def token? : ParseFault → Option Token
  | noHeadRule token | noTailRule token | unexpectedToken token _ | excessToken token
  | assignmentTarget token => some token
  | endOfInput _ | tooDeep => none
  | custom _ token => token

/-- The code of a parse fault. -/
def code : ParseFault → String
  | noHeadRule _ => "P301"
  | noTailRule _ => "P302"
  | endOfInput _ => "P303"
  | unexpectedToken _ _ => "P304"
  | excessToken _ => "P305"
  | assignmentTarget _ => "P400"
  | tooDeep | custom _ _ => "P300"

end ParseFault

/-- The three places an operator takes relative to its operands. -/
inductive Fixity where
  | before | after | between
deriving Repr, DecidableEq

/-- The name of an operator's place. -/
def Fixity.name : Fixity → String
  | .before => "prefix"
  | .after => "postfix"
  | .between => "binary"

/-- Why a power has no value. -/
inductive PowerFault where
  | beyondRange
  | zeroToNegative
  | operandBeyondRange
  | complexBeyondRange

/-- The text of a power's fault. -/
def PowerFault.message : PowerFault → String
  | beyondRange => "(34, 'Numerical result out of range')"
  | zeroToNegative => "0.0 cannot be raised to a negative power"
  | operandBeyondRange => "int too large to convert to float"
  | complexBeyondRange => "complex exponentiation"

/-- Why an expression has no value. -/
inductive EvalFault where
  | unknownOperator (fixity : Fixity) (op : Label)
  | needsInteger (op : String) (given : Number)
  | negativeFactorial (given : Int)
  | factorialTooLarge (given : Int)
  | divisionByZero
  | powerTooLarge (base exponent : Number)
  | powerUndefined (base exponent : Number) (fault : PowerFault)
  | powerNotReal (base exponent : Number)
  | unboundName (name : Label)
  | notANumber (name : Label)
  | notAFunction (name : Label)
  | unnamedCallee
  | notEvaluable (form : String)
  | custom (message : String)

namespace EvalFault

/-- The text of an evaluation fault. -/
def message : EvalFault → String
  | unknownOperator fixity op => "unknown " ++ fixity.name ++ " operator " ++ op.display
  | needsInteger op given => "operator " ++ quoted op ++ " needs an integer, got " ++ given.text
  | negativeFactorial given => "factorial of negative number " ++ toString given
  | factorialTooLarge given => "factorial of " ++ toString given ++ " is too large"
  | divisionByZero => "division by zero"
  | powerTooLarge base exponent => base.text ++ " ^ " ++ exponent.text ++ " is too large"
  | powerUndefined base exponent fault =>
    "cannot compute " ++ base.text ++ " ^ " ++ exponent.text ++ ": " ++ fault.message
  | powerNotReal base exponent => base.text ++ " ^ " ++ exponent.text ++ " is not a real number"
  | unboundName name => "unbound name " ++ name.display
  | notANumber name => name.display ++ " is a function, not a number"
  | notAFunction name => name.display ++ " is not a function"
  | unnamedCallee => "only named functions can be called"
  | notEvaluable form => "cannot evaluate " ++ form
  | custom message => message

/-- The numbers that the text of a fault shows. -/
def numbers : EvalFault → List Number
  | needsInteger _ given => [given]
  | negativeFactorial given | factorialTooLarge given => [.int given]
  | powerTooLarge base exponent | powerUndefined base exponent _ | powerNotReal base exponent =>
    [base, exponent]
  | _ => []

end EvalFault

/-- Why a value was refused by the operation that got it. -/
inductive ValueFault where
  | literalTooLong (digits : Nat)
  | writingTooLong
  | numberTextMissing
  | notAnInteger (text : String)
  | notADecimal (text : String)
  | negativeDistance (given : Int)
  | custom (message : String)

/-- The text of a refused value. -/
def ValueFault.message : ValueFault → String
  | literalTooLong digits =>
    "Exceeds the limit (4300 digits) for integer string conversion: value has " ++
      toString digits ++ " digits; use sys.set_int_max_str_digits() to increase the limit"
  | writingTooLong =>
    "Exceeds the limit (4300 digits) for integer string conversion; " ++
      "use sys.set_int_max_str_digits() to increase the limit"
  | numberTextMissing => "number token has no text"
  | notAnInteger text =>
    -- Only the first two hundred characters of the quoted text are shown.
    "invalid literal for int() with base 10: " ++ String.ofList ((quoted text).toList.take 200)
  | notADecimal text => "could not convert string to float: " ++ quoted text
  | negativeDistance given => "peek distance must be non-negative, got " ++ toString given
  | custom message => message

/-- Which arithmetic left the range of the doubles. -/
inductive RangeFault where
  | operand
  | quotient

/-- The text of an arithmetic overflow. -/
def RangeFault.message : RangeFault → String
  | operand => "int too large to convert to float"
  | quotient => "integer division result too large for a float"

/-- A failure of any part of the library. -/
inductive Error where
  | general (message : String)
  | grammar (fault : GrammarFault)
  | lexical (fault : LexFault)
  | parse (fault : ParseFault)
  | evaluation (fault : EvalFault)
  | value (fault : ValueFault)
  | range (fault : RangeFault)
  | notAnExpression (given : Datum)
  /-- An argument, counted from zero, is a name that was left out. -/
  | argumentMissing (index : Nat)
  | sectionNotATable (given : Datum)
  | settingsMissing
  | settingsMalformed
  | settingsUnreadable

namespace Error

/-- The text of a failure. -/
def message : Error → String
  | general message => message
  | grammar fault => fault.message
  | lexical fault => fault.message
  | parse fault => fault.message
  | evaluation fault => fault.message
  | value fault => fault.message
  | range fault => fault.message
  | notAnExpression given => "cannot format " ++ given.formName ++ ": " ++ given.display
  | argumentMissing index =>
    "sequence item " ++ toString index ++ ": expected str instance, NoneType found"
  | sectionNotATable given => "'" ++ given.formName ++ "' object has no attribute 'get'"
  | settingsMissing => "No pratt.toml found in any parent directory"
  | settingsMalformed => "malformed settings"
  | settingsUnreadable => "settings are a directory"

/-- The code of a failure that is reported as a diagnostic; other failures have none. -/
def code? : Error → Option String
  | general _ => some "P000"
  | grammar _ => some "P100"
  | lexical _ => some "P200"
  | parse fault => some fault.code
  | evaluation _ => some "P500"
  | _ => none

/-- Remarks that go with a failure. -/
def notes : Error → List String
  | lexical fault => ["at character offset " ++ toString fault.offset]
  | parse fault => fault.token?.toList.map fun token => "offending token: " ++ token.describe
  | _ => []

/-- Raises an evaluation fault, unless its text would show a number too long to be written. -/
def ofEval (fault : EvalFault) : Error :=
  if fault.numbers.all Number.writable then evaluation fault else value .writingTooLong

end Error

end Climb
