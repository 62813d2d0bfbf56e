import Climb.Grammar.Rule

/-! Grammars: the rules of each token type, and how they are registered. -/

namespace Climb

/-- Rules by token type, oldest first. -/
abbrev Table (R : Type) := List (TokenType × R)

namespace Table

variable {R : Type}

/-- The rule of a type. -/
def get? (table : Table R) (type : TokenType) : Option R :=
  (table.find? fun entry => entry.1 = type).map (·.2)

/-- Whether a type has a rule. -/
def contains (table : Table R) (type : TokenType) : Bool :=
  (table.get? type).isSome

/-- Gives a type a rule in place of the one it had. -/
def insert : Table R → TokenType → R → Table R
  | [], type, rule => [(type, rule)]
  | (key, old) :: rest, type, rule =>
    if key = type then (key, rule) :: rest else (key, old) :: insert rest type rule

/-- The names of the types with a rule, in order. -/
def names (table : Table R) : List String :=
  (table.map fun entry => entry.1.plain).mergeSort fun one other => one ≤ other

end Table

/-- What happened to a grammar, for those who follow along. -/
inductive Notice where
  | replacedHead (type : TokenType)
  | replacedTail (type : TokenType)
  | parsing (heads tails : Nat) (fused : Bool)
deriving Repr, DecidableEq

/-- The text of a notice. -/
def Notice.message : Notice → String
  | replacedHead type => "replacing prefix rule for " ++ type.display
  | replacedTail type => "replacing xfix rule for " ++ type.display
  | parsing heads tails fused =>
    "parsing with " ++ toString heads ++ " prefix and " ++ toString tails ++
      " xfix rules (fused=" ++ (if fused then "True" else "False") ++ ")"

/-- The rules by which expressions are read into nodes of one type. -/
structure Grammar (N : Type) where
  heads : Table (HeadRule N) := []
  /-- Rules with the strength they were registered at, which may differ from their own. -/
  tails : Table (TailRule N × Int) := []
  /-- A strength that is taken for every token in place of the registered ones. -/
  uniform : Option Int := none

namespace Grammar

variable {N : Type}

/-- The rule by which a token starts an expression. -/
def head? (grammar : Grammar N) (token : Token) : Option (HeadRule N) :=
  grammar.heads.get? token.type

/-- The rule by which a token continues an expression. -/
def tail? (grammar : Grammar N) (token : Token) : Option (TailRule N) :=
  (grammar.tails.get? token.type).map (·.1)

/-- How strongly a token binds the operand before it: zero at the end, and for types with no rule.
-/
def strengthOf (grammar : Grammar N) : Option Token → Int
  | none => 0
  | some token =>
    match grammar.uniform with
    | some strength => strength
    | none => ((grammar.tails.get? token.type).map (·.2)).getD 0

/-- The types that have rules. -/
def display (grammar : Grammar N) : String :=
  let listing (names : List String) := "[" ++ String.intercalate ", " (names.map quoted) ++ "]"
  "Registry(prefix=" ++ listing grammar.heads.names ++
    ", xfix=" ++ listing grammar.tails.names ++ ")"

/-- Registers a rule that starts expressions, noting whether it replaces one. -/
def registerHead (grammar : Grammar N) (type : TokenType) (candidate : Candidate N) :
    Except Error (Grammar N × List Notice) :=
  match candidate with
  | .head rule =>
    let notices := if grammar.heads.contains type then [.replacedHead type] else []
    .ok ({ grammar with heads := grammar.heads.insert type rule }, notices)
  | .tail rule => .error (.grammar (.wrongPosition rule.display .head))
  | .other given => .error (.grammar (.positionUnknown given))

/-- The strength a rule is registered at: the given one, or its own, and positive. -/
def tailStrength (rule : TailRule N) (given : Datum) : Except Error Int := do
  let chosen := match given with
    | .null => rule.ownStrength
    | _ => given
  let strength ← readStrength chosen
  -- Parsing starts at zero, so a weaker rule could never apply.
  if strength ≤ 0 then .error (.grammar (.strengthNotPositive strength)) else .ok strength

/-- Registers a rule that continues expressions, at a given strength or at its own. -/
def registerTail (grammar : Grammar N) (type : TokenType) (candidate : Candidate N)
    (strength : Datum) : Except Error (Grammar N × List Notice) := do
  match candidate with
  | .tail rule =>
    let strength ← tailStrength rule strength
    let notices := if grammar.tails.contains type then [.replacedTail type] else []
    return ({ grammar with tails := grammar.tails.insert type (rule, strength) }, notices)
  | .head rule => .error (.grammar (.wrongPosition rule.display .tail))
  | .other given => .error (.grammar (.positionUnknown given))

/-- Registers a rule in the position it is for. -/
def register (grammar : Grammar N) (type : TokenType) (candidate : Candidate N) :
    Except Error (Grammar N × List Notice) :=
  match candidate with
  | .head rule => grammar.registerHead type (.head rule)
  | .tail rule => grammar.registerTail type (.tail rule) .null
  | .other given => .error (.grammar (.positionUnknown given))

/-- What following a parse shows first. -/
def parsingNotice (grammar : Grammar N) (fused : Bool) : Notice :=
  .parsing grammar.heads.length grammar.tails.length fused

end Grammar

end Climb
