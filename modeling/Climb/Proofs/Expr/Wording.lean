import Climb.Proofs.Expr.Strata
import Climb.Proofs.Token.Lexing

/-! Expressions in the words of the language, as they are derived from the tokens of a text. -/

namespace Climb

namespace Token.IsLexeme

variable {token : Token}

/-- The operator of a punctuator is its character. -/
theorem operator {kind : Kind} {c : Char} (lexeme : token.IsLexeme)
    (typed : token.type = .kind kind) (single : kind.punctuator? = some c) :
    token.operator = String.singleton c := by
  -- Its type leaves only one of the ways in which a text can have the token.
  cases lexeme with
  | @punctuator known character same =>
    obtain rfl : known = kind := by simpa [Token.ofKind] using typed
    obtain rfl : character = c := Option.some.inj (same.symm.trans single)
    rfl
  | name named =>
    obtain rfl : Kind.name = kind := by simpa [Token.ofKind] using typed
    cases single
  | number digits =>
    obtain rfl : Kind.number = kind := by simpa [Token.ofKind] using typed
    cases single

/-- A name token of a text holds a name. -/
theorem isName (lexeme : token.IsLexeme) (typed : token.type = .kind .name) :
    Climb.isName (token.text.getD "") = true := by
  -- Of the three ways to be a token of a text only one has the type of a name.
  cases lexeme with
  | @punctuator known character same =>
    obtain rfl : known = .name := by simpa [Token.ofKind] using typed
    cases same
  | name named => exact named
  | number digits => simp [Token.ofKind] at typed

/-- The sign before an operand is one of those that can be written. -/
theorem sign (lexeme : token.IsLexeme) (typed : token.type ∈ Expr.signs) :
    token.operator ∈ ["+", "-", "~", "!"] := by
  simp only [Expr.signs, List.mem_cons, List.not_mem_nil, or_false] at typed
  rcases typed with typed | typed | typed | typed
  all_goals
    rw [lexeme.operator typed rfl]
    decide

/-- The operator of a sum or a product is one of those that can be written. -/
theorem chained (lexeme : token.IsLexeme)
    (typed : token.type ∈ Expr.sumOperators ++ Expr.productOperators) :
    token.operator ∈ ["+", "-", "*", "/", "^", ";"] := by
  simp only [Expr.sumOperators, Expr.productOperators, List.cons_append, List.nil_append,
    List.mem_cons, List.not_mem_nil, or_false] at typed
  rcases typed with typed | typed | typed | typed
  all_goals
    rw [lexeme.operator typed rfl]
    decide

end Token.IsLexeme

namespace Expr

/-- Expressions whose names are names and whose operators are known, with some numbers. -/
inductive Worded (numbers : Number → Prop) : Expr → Prop
  | name {text : String} (named : isName text = true) : Worded numbers (.name (some text))
  | number {value : Number} (known : numbers value) : Worded numbers (.number value)
  | assign {target : String} {value : Expr} (named : isName target = true)
      (inner : Worded numbers value) : Worded numbers (.assign (some target) value)
  | pre {op : String} {operand : Expr} (known : op ∈ ["+", "-", "~", "!"])
      (inner : Worded numbers operand) : Worded numbers (.pre (some op) operand)
  | post {operand : Expr} (inner : Worded numbers operand) :
    Worded numbers (.post (some "!") operand)
  | bin {op : String} {left right : Expr} (one : Worded numbers left)
      (known : op ∈ ["+", "-", "*", "/", "^", ";"]) (other : Worded numbers right) :
    Worded numbers (.bin left (some op) right)
  | cond {condition chosen other : Expr} (inner : Worded numbers condition)
      (one : Worded numbers chosen) (two : Worded numbers other) :
    Worded numbers (.cond condition chosen other)
  | call {callee : Expr} {args : List Expr} (inner : Worded numbers callee)
      (all : ∀ arg ∈ args, Worded numbers arg) : Worded numbers (.call callee args)

/-- A token of a text, with one of some numbers if it is read as a number. -/
structure IsWord (numbers : Number → Prop) (token : Token) : Prop where
  lexeme : token.IsLexeme
  number : token.type = .kind .number → ∀ value, readNumber token.text = .ok value → numbers value

/-- What is derived from the tokens of a text is in the words of the language. -/
theorem Derives.worded {numbers : Number → Prop} {stratum : Stratum} {tokens : List Token}
    {expr : Expr} (derived : Derives stratum tokens expr)
    (words : ∀ token ∈ tokens, IsWord numbers token) : Worded numbers expr := by
  -- Each rule uses a part of the tokens, which are those of a text because all of them are.
  induction derived with
  | name typed => exact .name ((words _ List.mem_cons_self).lexeme.isName typed)
  | number typed read => exact .number ((words _ List.mem_cons_self).number typed _ read)
  | group opens inner closes ih => exact ih fun token member => words token (by simp [member])
  | tighter step inner ih => exact ih words
  | post inner typed ih =>
    rw [(words _ (by simp)).lexeme.operator typed rfl]
    exact .post (ih fun token member => words token (by simp [member]))
  | callNone inner opens closes ih =>
    exact .call (ih fun token member => words token (by simp [member])) (by simp)
  | call inner opens one commas more closes ih ihOne ihMore =>
    refine .call (ih fun token member => words token (by simp [member])) ?_
    simp only [List.mem_cons, List.mem_map, forall_eq_or_imp]
    refine ⟨ihOne fun token member => words token (by simp [member]), ?_⟩
    rintro _ ⟨other, among, rfl⟩
    refine ihMore other among fun token member => words token ?_
    have inside : token ∈ other.all := List.mem_cons_of_mem _ member
    have among := List.mem_flatMap.2 ⟨other, among, inside⟩
    simp [among]
  | pre typed inner ih =>
    exact .pre ((words _ List.mem_cons_self).lexeme.sign typed)
      (ih fun token member => words token (List.mem_cons_of_mem _ member))
  | power base typed exponent ihBase ihExponent =>
    rw [(words _ (by simp)).lexeme.operator typed rfl]
    exact .bin (ihBase fun token member => words token (by simp [member])) (by decide)
      (ihExponent fun token member => words token (by simp [member]))
  | product one typed other ihOne ihOther =>
    exact .bin (ihOne fun token member => words token (by simp [member]))
      ((words _ (by simp)).lexeme.chained (List.mem_append_right _ typed))
      (ihOther fun token member => words token (by simp [member]))
  | sum one typed other ihOne ihOther =>
    exact .bin (ihOne fun token member => words token (by simp [member]))
      ((words _ (by simp)).lexeme.chained (List.mem_append_left _ typed))
      (ihOther fun token member => words token (by simp [member]))
  | cond inner asks one splits two ih ihOne ihTwo =>
    exact .cond (ih fun token member => words token (by simp [member]))
      (ihOne fun token member => words token (by simp [member]))
      (ihTwo fun token member => words token (by simp [member]))
  | assign name typed value ihName ihValue =>
    -- The target was derived as a name of its own.
    cases ihName fun token member => words token (by simp [member]) with
    | name named => exact .assign named (ihValue fun token member => words token (by simp [member]))
  | sequence one typed other ihOne ihOther =>
    rw [(words _ (by simp)).lexeme.operator typed rfl]
    exact .bin (ihOne fun token member => words token (by simp [member])) (by decide)
      (ihOther fun token member => words token (by simp [member]))

end Expr

end Climb
