import Climb.Expr.Basic
import Climb.Grammar.Parser
import Climb.Number.Reading

/-! The grammar of the expression language. -/

namespace Climb

/-- The binding levels of the language, weakest first. -/
inductive Level where
  | statement | assignment | conditional | sum | product | exponent | unary | suffix | call
deriving Repr, DecidableEq

namespace Level

/-- Every level, weakest first. -/
def all : List Level :=
  [statement, assignment, conditional, sum, product, exponent, unary, suffix, call]

/-- The capital name of a level. -/
def label : Level → String
  | statement => "STATEMENT"
  | assignment => "ASSIGNMENT"
  | conditional => "CONDITIONAL"
  | sum => "SUM"
  | product => "PRODUCT"
  | exponent => "EXPONENT"
  | unary => "PREFIX"
  | suffix => "POSTFIX"
  | call => "CALL"

/-- The strength of a level. -/
def strength : Level → Int
  | statement => 1
  | assignment => 2
  | conditional => 3
  | sum => 4
  | product => 5
  | exponent => 6
  | unary => 7
  | suffix => 8
  | call => 9

end Level

namespace Expr

/-- A name token as an expression. -/
def buildName (token : Token) : Except Error Expr :=
  .ok (.name (some (token.text.getD "")))

/-- A number token as an expression. -/
def buildNumber (token : Token) : Except Error Expr := do
  return .number (← readNumber token.text)

/-- An assignment, whose target has to be a name. -/
def buildAssign (token : Token) (left right : Expr) : Except Error Expr :=
  match left with
  | .name label => .ok (.assign label right)
  | _ => .error (.parse (.assignmentTarget token))

/-- An operator before its operand. -/
def buildPre (token : Token) (operand : Expr) : Except Error Expr :=
  .ok (.pre (some token.operator) operand)

/-- An operator after its operand. -/
def buildPost (token : Token) (operand : Expr) : Except Error Expr :=
  .ok (.post (some token.operator) operand)

/-- An operator between its operands. -/
def buildBin (token : Token) (left right : Expr) : Except Error Expr :=
  .ok (.bin left (some token.operator) right)

/-- A failure of a form to find what its steps look for, which they never leave out. -/
def missingPart (token : Token) : Except Error Expr :=
  .error (.parse (.custom "incomplete form" (some token)))

/-- A group stands for the expression in it. -/
def buildGroup (token : Token) : List (Part Expr) → Except Error Expr
  | [.node inner, .token _] => .ok inner
  | _ => missingPart token

/-- A call of the operand before the parenthesis. -/
def buildCall (token : Token) : List (Part Expr) → Except Error Expr
  | [.node callee, .nodes args] => .ok (.call callee args)
  | _ => missingPart token

/-- A conditional on the operand before the question mark. -/
def buildCond (token : Token) : List (Part Expr) → Except Error Expr
  | [.node condition, .node chosen, .token _, .node other] => .ok (.cond condition chosen other)
  | _ => missingPart token

/-- The steps of a group: an expression of any strength and the closing parenthesis. -/
def groupSteps : List Step :=
  [.operand 0, .consume (some (.kind .rparen))]

/-- The steps of a call: arguments with commas between them. -/
def callSteps : List Step :=
  [.left, .items (.kind .comma) (.kind .rparen)]

/-- The steps of a conditional, whose last arm may be another conditional. -/
def condSteps : List Step :=
  [.left, .operand 0, .consume (some (.kind .colon)), .operand (Level.conditional.strength - 1)]

/-- The rules that start expressions. -/
def headRules : Table (HeadRule Expr) :=
  [(.kind .name, .leaf "name" buildName),
    (.kind .number, .leaf "number" buildNumber),
    (.kind .plus, .operator "pre" buildPre Level.unary.strength),
    (.kind .minus, .operator "pre" buildPre Level.unary.strength),
    (.kind .tilde, .operator "pre" buildPre Level.unary.strength),
    (.kind .bang, .operator "pre" buildPre Level.unary.strength),
    (.kind .lparen, .form "group" groupSteps buildGroup)]

/-- A binary operator at a level. -/
def binaryRule (build : Token → Expr → Expr → Except Error Expr) (level : Level)
    (associativity : Associativity) : TailRule Expr × Int :=
  (.binary "bin" build level.strength associativity, level.strength)

/-- The rules that continue expressions, with their strengths. -/
def tailRules : Table (TailRule Expr × Int) :=
  [(.kind .assign, binaryRule buildAssign .assignment .right),
    (.kind .bang, .operator "post" buildPost Level.suffix.strength, Level.suffix.strength),
    (.kind .plus, binaryRule buildBin .sum .left),
    (.kind .minus, binaryRule buildBin .sum .left),
    (.kind .star, binaryRule buildBin .product .left),
    (.kind .slash, binaryRule buildBin .product .left),
    (.kind .caret, binaryRule buildBin .exponent .right),
    (.kind .semicolon, binaryRule buildBin .statement .right),
    (.kind .lparen, .form "call" callSteps buildCall Level.call.strength, Level.call.strength),
    (.kind .question, .form "cond" condSteps buildCond Level.conditional.strength,
      Level.conditional.strength)]

/-- The grammar of the expression language. -/
def grammar : Grammar Expr :=
  { heads := headRules, tails := tailRules }

/-- Reads one expression from a source. -/
def ofSource (source : Source) (exhaust : Bool) : Except Error Expr :=
  (grammar.run none source exhaust).1

/-- Reads a text that is one expression. -/
def ofString (text : String) : Except Error Expr :=
  ofSource (.ofString text) true

end Expr

end Climb
