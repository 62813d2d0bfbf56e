import Climb.Grammar.Table

/-! Requests to add a rule to a grammar, each granted or refused as a whole. -/

namespace Climb

/-- A request to add a rule for a token type. -/
inductive Registration (N : Type) where
  /-- The token alone is an expression. -/
  | leaf (type : TokenType) (label : String) (build : Token → Except Error N)
  /-- An operator before its operand. -/
  | before (type : TokenType) (label : String) (build : Token → N → Except Error N)
    (strength : Datum)
  /-- An operator after its operand. -/
  | after (type : TokenType) (label : String) (build : Token → N → Except Error N)
    (strength : Datum)
  /-- An operator between its operands. -/
  | between (type : TokenType) (label : String) (build : Token → N → N → Except Error N)
    (strength : Datum) (associativity : Except Datum Associativity)
  /-- A free pattern that starts an expression. -/
  | headForm (type : TokenType) (label : String) (steps : List Step)
    (build : Token → List (Part N) → Except Error N)
  /-- A free pattern that continues an expression. -/
  | tailForm (type : TokenType) (label : String) (steps : List Step)
    (build : Token → List (Part N) → Except Error N) (strength : Datum)
  /-- A given rule, in the position it is for. -/
  | either (type : TokenType) (candidate : Candidate N)
  /-- A given rule that is to start expressions. -/
  | head (type : TokenType) (candidate : Candidate N)
  /-- A given rule that is to continue expressions, at a given strength or at its own. -/
  | tail (type : TokenType) (candidate : Candidate N) (strength : Datum)

/-- The grammar with a rule added, and what there is to note about it. -/
def Grammar.apply {N : Type} (grammar : Grammar N) :
    Registration N → Except Error (Grammar N × List Notice)
  | .leaf type label build => grammar.registerHead type (.head (.leaf label build))
  | .before type label build strength => do
    grammar.registerHead type (.head (← HeadRule.operator? label build strength))
  | .after type label build strength => do
    grammar.registerTail type (.tail (← TailRule.operator? label build strength)) .null
  | .between type label build strength associativity => do
    let rule ← TailRule.binary? label build strength associativity
    grammar.registerTail type (.tail rule) .null
  | .headForm type label steps build =>
    grammar.registerHead type (.head (.form label steps build))
  | .tailForm type label steps build strength => do
    grammar.registerTail type (.tail (← TailRule.form? label steps build strength)) .null
  | .either type candidate => grammar.register type candidate
  | .head type candidate => grammar.registerHead type candidate
  | .tail type candidate strength => grammar.registerTail type candidate strength

/-- The grammar after some requests; those that are refused leave it as it was. -/
def Grammar.extend {N : Type} (grammar : Grammar N) (requests : List (Registration N)) :
    Grammar N :=
  requests.foldl (fun grammar request =>
    match grammar.apply request with
    | .ok (changed, _) => changed
    | .error _ => grammar) grammar

end Climb
