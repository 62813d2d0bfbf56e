import Climb.Error

/-! Rules: how a token type starts an expression, or continues one after a finished operand. -/

namespace Climb

/-- On which side a chain of one binary operator nests. -/
inductive Associativity where
  | left | right
deriving Repr, DecidableEq

/-- The name of an associativity. -/
def Associativity.name : Associativity → String
  | .left => "left"
  | .right => "right"

/-- The capital name of an associativity. -/
def Associativity.label : Associativity → String
  | .left => "LEFT"
  | .right => "RIGHT"

/-- One step of a form, the free pattern by which a rule reads more of the input. -/
inductive Step where
  /-- The operand before the token, where the rule has one. -/
  | left
  /-- An expression whose operators all bind tighter than the given strength. -/
  | operand (strength : Int)
  /-- A token, of a given type if one is expected. -/
  | consume (expected : Option TokenType)
  /-- A token if it has the given type. -/
  | accept (type : TokenType)
  /-- A look at the token some distance ahead. -/
  | peek (distance : Int)
  /-- A look whether the input has ended. -/
  | atEnd
  /-- Expressions with separators between them, up to a closing token. -/
  | items (separator close : TokenType)
  /-- As many tokens of the given type as there are. -/
  | repeated (type : TokenType)
  /-- A failure with a message. -/
  | fail (message : String)
deriving Repr, DecidableEq

/-- What one step of a form found. -/
inductive Part (N : Type) where
  | node (value : N)
  | token (value : Token)
  | flag (value : Bool)
  | glimpse (value : Option Token)
  | nodes (values : List N)
  | count (value : Nat)

/-- How a token starts an expression. Each rule has a text that stands for its builder. -/
inductive HeadRule (N : Type) where
  /-- The token alone is the expression. -/
  | leaf (label : String) (build : Token → Except Error N)
  /-- An operator before its operand. -/
  | operator (label : String) (build : Token → N → Except Error N) (strength : Int)
  /-- A free pattern, such as a group in parentheses. -/
  | form (label : String) (steps : List Step) (build : Token → List (Part N) → Except Error N)

/-- How a token continues an expression after a finished operand. -/
inductive TailRule (N : Type) where
  /-- An operator after its operand. -/
  | operator (label : String) (build : Token → N → Except Error N) (strength : Int)
  /-- An operator between two operands. -/
  | binary (label : String) (build : Token → N → N → Except Error N) (strength : Int)
    (associativity : Associativity)
  /-- A free pattern, such as the arguments of a call. -/
  | form (label : String) (steps : List Step) (build : Token → List (Part N) → Except Error N)
    (strength : Int)
  /-- An operator after its operand that holds anything as its strength, or nothing. -/
  | bare (label : String) (build : Token → N → Except Error N) (own : Datum)

/-- Reads a binding strength, which is a whole number and nothing else. -/
def readStrength : Datum → Except Error Int
  | .null => .error (.grammar .strengthMissing)
  | .int value => .ok value
  | given => .error (.grammar (.strengthNotWhole given))

/-- Reads an associativity. -/
def readAssociativity : Except Datum Associativity → Except Error Associativity
  | .ok associativity => .ok associativity
  | .error given => .error (.grammar (.associativityUnknown given))

namespace HeadRule

variable {N : Type}

/-- An operator before its operand, if its strength is one. -/
def operator? (label : String) (build : Token → N → Except Error N) (strength : Datum) :
    Except Error (HeadRule N) := do
  return .operator label build (← readStrength strength)

/-- A rule with its label and strength. -/
def display : HeadRule N → String
  | leaf label _ => "NullaryParselet(" ++ label ++ ")"
  | operator label _ strength =>
    "PrefixUnaryParselet(" ++ label ++ ", precedence=" ++ toString strength ++ ")"
  | form label _ _ => "PrefixMixfixParselet(" ++ label ++ ")"

/-- The strength of a rule that has one. -/
def strength? : HeadRule N → Option Int
  | operator _ _ strength => some strength
  | _ => none

end HeadRule

namespace TailRule

variable {N : Type}

/-- An operator after its operand, if its strength is one. -/
def operator? (label : String) (build : Token → N → Except Error N) (strength : Datum) :
    Except Error (TailRule N) := do
  return .operator label build (← readStrength strength)

/-- An operator between two operands, if its associativity and then its strength are such. -/
def binary? (label : String) (build : Token → N → N → Except Error N) (strength : Datum)
    (associativity : Except Datum Associativity) : Except Error (TailRule N) := do
  let associativity ← readAssociativity associativity
  return .binary label build (← readStrength strength) associativity

/-- A free pattern after an operand, if its strength is one. -/
def form? (label : String) (steps : List Step) (build : Token → List (Part N) → Except Error N)
    (strength : Datum) : Except Error (TailRule N) := do
  return .form label steps build (← readStrength strength)

/-- A rule with its label and strength. -/
def display : TailRule N → String
  | operator label _ strength =>
    "PostfixUnaryParselet(" ++ label ++ ", precedence=" ++ toString strength ++ ")"
  | binary label _ strength associativity =>
    "BinaryParselet(" ++ label ++ ", precedence=" ++ toString strength ++
      ", associativity=" ++ associativity.label ++ ")"
  | form label _ _ strength =>
    "XfixMixfixParselet(" ++ label ++ ", precedence=" ++ toString strength ++ ")"
  | bare label _ _ => label

/-- What a rule holds as its strength. -/
def ownStrength : TailRule N → Datum
  | operator _ _ strength | binary _ _ strength _ | form _ _ _ strength => .int strength
  | bare _ _ own => own

/-- The strength of a rule that has one. -/
def strength? (rule : TailRule N) : Option Int :=
  match rule.ownStrength with
  | .int strength => some strength
  | _ => none

end TailRule

/-- The strength at which the right operand of a binary operator is read. -/
def rightStrength (strength : Int) : Associativity → Int
  -- One less lets an equal operator that follows go into the right operand.
  | .left => strength
  | .right => strength - 1

/-- A rule of either position, or something that is no rule. -/
inductive Candidate (N : Type) where
  | head (rule : HeadRule N)
  | tail (rule : TailRule N)
  | other (given : Datum)

namespace Candidate

variable {N : Type}

/-- A candidate as messages show it. -/
def display : Candidate N → String
  | head rule => rule.display
  | tail rule => rule.display
  | other given => given.display

/-- The position of a candidate, which only rules have. -/
def position : Candidate N → Except Error Position
  | head _ => .ok .head
  | tail _ => .ok .tail
  | other given => .error (.grammar (.positionUnknown given))

/-- The strength of a candidate that has one. -/
def strength? : Candidate N → Option Int
  | head rule => rule.strength?
  | tail rule => rule.strength?
  | other _ => none

end Candidate

end Climb
