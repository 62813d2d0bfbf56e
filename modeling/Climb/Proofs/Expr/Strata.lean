import Climb.Expr.Grammar

/-! The expression language as a grammar of strata, each built from the next tighter one. -/

namespace Climb.Expr

/-- The strata of the language, weakest first. -/
inductive Stratum where
  | sequence | assignment | conditional | sum | product | power | unary | suffix | atom
deriving Repr, DecidableEq

namespace Stratum

/-- The stratum whose expressions a stratum holds besides its own. -/
def tighter? : Stratum → Option Stratum
  | sequence => some assignment
  | assignment => some conditional
  | conditional => some sum
  | sum => some product
  | product => some power
  | power => some unary
  | unary => some suffix
  | suffix => some atom
  | atom => none

/-- The place of a stratum among all. -/
def rank : Stratum → Nat
  | sequence => 1
  | assignment => 2
  | conditional => 3
  | sum => 4
  | product => 5
  | power => 6
  | unary => 7
  | suffix => 8
  | atom => 9

/-- A stratum is known by its place. -/
theorem rank_injective {one other : Stratum} (same : one.rank = other.rank) : one = other := by
  cases one <;> cases other <;> simp [rank] at same ⊢

/-- Every stratum but the last is followed by the next one. -/
theorem exists_tighter {stratum : Stratum} (below : stratum.rank < 9) :
    ∃ next, stratum.tighter? = some next ∧ next.rank = stratum.rank + 1 := by
  cases stratum <;> simp [rank, tighter?] at below ⊢

end Stratum

/-- A further argument of a call: the comma before it, its tokens, and its value. -/
structure Argument where
  comma : Token
  tokens : List Token
  value : Expr

namespace Argument

/-- The tokens of a further argument, its comma first. -/
def all (argument : Argument) : List Token :=
  argument.comma :: argument.tokens

end Argument

/-- The operators that may stand before their operand. -/
def signs : List TokenType :=
  [.kind .plus, .kind .minus, .kind .tilde, .kind .bang]

/-- The operators of a sum. -/
def sumOperators : List TokenType :=
  [.kind .plus, .kind .minus]

/-- The operators of a product. -/
def productOperators : List TokenType :=
  [.kind .star, .kind .slash]

/-- A stratum holds a list of tokens, which stands for an expression. -/
inductive Derives : Stratum → List Token → Expr → Prop
  | name {token : Token} (typed : token.type = .kind .name) :
    Derives .atom [token] (.name (some (token.text.getD "")))
  | number {token : Token} {value : Number} (typed : token.type = .kind .number)
      (read : readNumber token.text = .ok value) :
    Derives .atom [token] (.number value)
  /-- A group stands for the expression in it. -/
  | group {opening closing : Token} {tokens : List Token} {expr : Expr}
      (opens : opening.type = .kind .lparen) (inner : Derives .sequence tokens expr)
      (closes : closing.type = .kind .rparen) :
    Derives .atom (opening :: (tokens ++ [closing])) expr
  | tighter {stratum next : Stratum} {tokens : List Token} {expr : Expr}
      (step : stratum.tighter? = some next) (inner : Derives next tokens expr) :
    Derives stratum tokens expr
  | post {token : Token} {tokens : List Token} {operand : Expr}
      (inner : Derives .suffix tokens operand) (typed : token.type = .kind .bang) :
    Derives .suffix (tokens ++ [token]) (.post (some token.operator) operand)
  | callNone {opening closing : Token} {tokens : List Token} {callee : Expr}
      (inner : Derives .suffix tokens callee) (opens : opening.type = .kind .lparen)
      (closes : closing.type = .kind .rparen) :
    Derives .suffix (tokens ++ [opening, closing]) (.call callee [])
  | call {opening closing : Token} {tokens firstTokens : List Token} {callee first : Expr}
      {others : List Argument} (inner : Derives .suffix tokens callee)
      (opens : opening.type = .kind .lparen) (one : Derives .sequence firstTokens first)
      (commas : ∀ other ∈ others, other.comma.type = .kind .comma)
      (more : ∀ other ∈ others, Derives .sequence other.tokens other.value)
      (closes : closing.type = .kind .rparen) :
    Derives .suffix
      (tokens ++ opening :: (firstTokens ++ (others.flatMap Argument.all ++ [closing])))
      (.call callee (first :: others.map Argument.value))
  | pre {token : Token} {tokens : List Token} {operand : Expr} (typed : token.type ∈ signs)
      (inner : Derives .unary tokens operand) :
    Derives .unary (token :: tokens) (.pre (some token.operator) operand)
  | power {token : Token} {leftTokens rightTokens : List Token} {left right : Expr}
      (base : Derives .unary leftTokens left) (typed : token.type = .kind .caret)
      (exponent : Derives .power rightTokens right) :
    Derives .power (leftTokens ++ token :: rightTokens) (.bin left (some token.operator) right)
  | product {token : Token} {leftTokens rightTokens : List Token} {left right : Expr}
      (one : Derives .product leftTokens left) (typed : token.type ∈ productOperators)
      (other : Derives .power rightTokens right) :
    Derives .product (leftTokens ++ token :: rightTokens) (.bin left (some token.operator) right)
  | sum {token : Token} {leftTokens rightTokens : List Token} {left right : Expr}
      (one : Derives .sum leftTokens left) (typed : token.type ∈ sumOperators)
      (other : Derives .product rightTokens right) :
    Derives .sum (leftTokens ++ token :: rightTokens) (.bin left (some token.operator) right)
  | cond {question colon : Token} {tokens chosenTokens otherTokens : List Token}
      {condition chosen other : Expr} (inner : Derives .sum tokens condition)
      (asks : question.type = .kind .question) (one : Derives .sequence chosenTokens chosen)
      (splits : colon.type = .kind .colon) (two : Derives .conditional otherTokens other) :
    Derives .conditional (tokens ++ question :: (chosenTokens ++ colon :: otherTokens))
      (.cond condition chosen other)
  /-- Only a name can be given a value. -/
  | assign {token : Token} {leftTokens rightTokens : List Token} {target : Label} {right : Expr}
      (name : Derives .conditional leftTokens (.name target)) (typed : token.type = .kind .assign)
      (value : Derives .assignment rightTokens right) :
    Derives .assignment (leftTokens ++ token :: rightTokens) (.assign target right)
  | sequence {token : Token} {leftTokens rightTokens : List Token} {left right : Expr}
      (one : Derives .assignment leftTokens left) (typed : token.type = .kind .semicolon)
      (other : Derives .sequence rightTokens right) :
    Derives .sequence (leftTokens ++ token :: rightTokens) (.bin left (some token.operator) right)

/-- What a stratum holds, every weaker stratum holds too. -/
theorem Derives.weaken {lower upper : Stratum} {tokens : List Token} {expr : Expr}
    (order : lower.rank ≤ upper.rank) (derived : Derives upper tokens expr) :
    Derives lower tokens expr := by
  -- The induction is on the number of strata between the two.
  obtain ⟨gap, apart⟩ := Nat.exists_eq_add_of_le order
  clear order
  induction gap generalizing lower with
  | zero => rwa [Stratum.rank_injective apart.symm]
  | succ gap ih =>
    have below : lower.rank < 9 := by
      have : upper.rank ≤ 9 := by cases upper <;> simp [Stratum.rank]
      omega
    obtain ⟨next, step, rank⟩ := Stratum.exists_tighter below
    exact .tighter step (ih (by omega))

end Climb.Expr
