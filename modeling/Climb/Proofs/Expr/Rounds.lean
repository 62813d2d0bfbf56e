import Climb.Proofs.Expr.Strata
import Climb.Proofs.Grammar.Forms

/-! What the rules of the language read: one way to start an expression or to continue it each. -/

namespace Climb.Expr

open Climb.Parser

section

variable (reads : Int → List Token → Expr → List Token → Prop)

/-- The ways in which a consumed token starts an expression. -/
inductive Starts (token : Token) : List Token → Expr → List Token → Prop
  | name {rest : List Token} (typed : token.type = .kind .name) :
    Starts token rest (.name (some (token.text.getD ""))) rest
  | number {rest : List Token} {value : Number} (typed : token.type = .kind .number)
      (read : readNumber token.text = .ok value) :
    Starts token rest (.number value) rest
  | pre {tokens rest : List Token} {operand : Expr} (typed : token.type ∈ signs)
      (read : reads 7 tokens operand rest) :
    Starts token tokens (.pre (some token.operator) operand) rest
  | group {closing : Token} {tokens rest : List Token} {expr : Expr}
      (typed : token.type = .kind .lparen) (read : reads 0 tokens expr (closing :: rest))
      (closes : closing.type = .kind .rparen) :
    Starts token tokens expr rest

/-- The ways in which a consumed token continues an expression. -/
inductive Continues (left : Expr) (token : Token) : List Token → Expr → List Token → Prop
  | sequence {tokens rest : List Token} {right : Expr} (typed : token.type = .kind .semicolon)
      (read : reads 0 tokens right rest) :
    Continues left token tokens (.bin left (some token.operator) right) rest
  | assign {tokens rest : List Token} {target : Label} {right : Expr}
      (typed : token.type = .kind .assign) (named : left = .name target)
      (read : reads 1 tokens right rest) :
    Continues left token tokens (.assign target right) rest
  | cond {colon : Token} {tokens middle rest : List Token} {chosen other : Expr}
      (typed : token.type = .kind .question) (one : reads 0 tokens chosen (colon :: middle))
      (splits : colon.type = .kind .colon) (two : reads 2 middle other rest) :
    Continues left token tokens (.cond left chosen other) rest
  | sum {tokens rest : List Token} {right : Expr} (typed : token.type ∈ sumOperators)
      (read : reads 4 tokens right rest) :
    Continues left token tokens (.bin left (some token.operator) right) rest
  | product {tokens rest : List Token} {right : Expr} (typed : token.type ∈ productOperators)
      (read : reads 5 tokens right rest) :
    Continues left token tokens (.bin left (some token.operator) right) rest
  | power {tokens rest : List Token} {right : Expr} (typed : token.type = .kind .caret)
      (read : reads 5 tokens right rest) :
    Continues left token tokens (.bin left (some token.operator) right) rest
  | post {rest : List Token} (typed : token.type = .kind .bang) :
    Continues left token rest (.post (some token.operator) left) rest
  | callNone {closing : Token} {rest : List Token} (typed : token.type = .kind .lparen)
      (closes : closing.type = .kind .rparen) :
    Continues left token (closing :: rest) (.call left []) rest
  | call {tokens middle rest : List Token} {first : Expr} {others : List Expr}
      (typed : token.type = .kind .lparen)
      (some_ : ∀ next ∈ tokens.head?, next.type ≠ .kind .rparen)
      (one : reads 0 tokens first middle)
      (more : Further (reads 0) (.kind .comma) (.kind .rparen) middle others rest) :
    Continues left token tokens (.call left (first :: others)) rest

end

variable {token : Token} {rule : HeadRule Expr}

/-- The types that start an expression, and their rules. -/
theorem head?_cases (found : grammar.head? token = some rule) :
    (token.type = .kind .name ∧ rule = .leaf "name" buildName) ∨
    (token.type = .kind .number ∧ rule = .leaf "number" buildNumber) ∨
    (token.type ∈ signs ∧ rule = .operator "pre" buildPre 7) ∨
    (token.type = .kind .lparen ∧ rule = .form "group" groupSteps buildGroup) := by
  -- Only types of the scanner have rules, so the table is gone through for those alone.
  rcases token with ⟨type, text⟩
  cases type with
  | kind kind =>
    cases kind <;> simp_all [Grammar.head?, Table.get?, grammar, headRules, signs, Level.strength]
  | text value => simp [Grammar.head?, Table.get?, grammar, headRules] at found
  | number value => simp [Grammar.head?, Table.get?, grammar, headRules] at found
  | absent => simp [Grammar.head?, Table.get?, grammar, headRules] at found

/-- The types that continue an expression, and their rules. -/
theorem tail?_cases {rule : TailRule Expr} (found : grammar.tail? token = some rule) :
    (token.type = .kind .semicolon ∧ rule = .binary "bin" buildBin 1 .right) ∨
    (token.type = .kind .assign ∧ rule = .binary "bin" buildAssign 2 .right) ∨
    (token.type = .kind .question ∧ rule = .form "cond" condSteps buildCond 3) ∨
    (token.type ∈ sumOperators ∧ rule = .binary "bin" buildBin 4 .left) ∨
    (token.type ∈ productOperators ∧ rule = .binary "bin" buildBin 5 .left) ∨
    (token.type = .kind .caret ∧ rule = .binary "bin" buildBin 6 .right) ∨
    (token.type = .kind .bang ∧ rule = .operator "post" buildPost 8) ∨
    (token.type = .kind .lparen ∧ rule = .form "call" callSteps buildCall 9) := by
  -- As for the start: one row of the table for each type of the scanner, none for the others.
  rcases token with ⟨type, text⟩
  cases type with
  | kind kind =>
    cases kind <;> simp_all [Grammar.tail?, Table.get?, grammar, tailRules, binaryRule,
      sumOperators, productOperators, Level.strength]
  | text value => simp [Grammar.tail?, Table.get?, grammar, tailRules] at found
  | number value => simp [Grammar.tail?, Table.get?, grammar, tailRules] at found
  | absent => simp [Grammar.tail?, Table.get?, grammar, tailRules] at found

/-- The rule that starts an expression goes by the type of its token. -/
theorem head?_of {type : TokenType} (typed : token.type = type) :
    grammar.head? token = headRules.get? type := by
  rw [Grammar.head?, typed]
  rfl

/-- The rule that continues an expression goes by the type of its token. -/
theorem tail?_of {type : TokenType} (typed : token.type = type) :
    grammar.tail? token = (tailRules.get? type).map (·.1) := by
  rw [Grammar.tail?, typed]
  rfl

/-- How tightly a token binds goes by its type. -/
theorem strengthOf_of {type : TokenType} (typed : token.type = type) :
    grammar.strengthOf (some token) = ((tailRules.get? type).map (·.2)).getD 0 := by
  rw [← typed]
  rfl

/-- Signs start an expression by one and the same rule. -/
theorem head?_sign (typed : token.type ∈ signs) :
    grammar.head? token = some (.operator "pre" buildPre 7) := by
  simp only [signs, List.mem_cons, List.not_mem_nil, or_false] at typed
  rcases typed with typed | typed | typed | typed <;> exact head?_of typed

/-- The operators of a sum continue an expression by one and the same rule. -/
theorem tail?_sum (typed : token.type ∈ sumOperators) :
    grammar.tail? token = some (.binary "bin" buildBin 4 .left) ∧
      grammar.strengthOf (some token) = 4 := by
  simp only [sumOperators, List.mem_cons, List.not_mem_nil, or_false] at typed
  rcases typed with typed | typed <;> exact ⟨tail?_of typed, strengthOf_of typed⟩

/-- The operators of a product continue an expression by one and the same rule. -/
theorem tail?_product (typed : token.type ∈ productOperators) :
    grammar.tail? token = some (.binary "bin" buildBin 5 .left) ∧
      grammar.strengthOf (some token) = 5 := by
  simp only [productOperators, List.mem_cons, List.not_mem_nil, or_false] at typed
  rcases typed with typed | typed <;> exact ⟨tail?_of typed, strengthOf_of typed⟩

/-- A token binds if and only if it has a rule to continue an expression, at most as a call does. -/
theorem strengthOf_bounds (token : Token) :
    0 ≤ grammar.strengthOf (some token) ∧ grammar.strengthOf (some token) ≤ 9 ∧
      (grammar.strengthOf (some token) ≤ 0 ↔ grammar.tail? token = none) := by
  -- The table is gone through by type, as for the rules.
  rcases token with ⟨type, text⟩
  cases type with
  | kind kind =>
    cases kind <;> simp [Grammar.strengthOf, Grammar.tail?, Table.get?, grammar, tailRules,
      binaryRule, Level.strength]
  | text value => simp [Grammar.strengthOf, Grammar.tail?, Table.get?, grammar, tailRules]
  | number value => simp [Grammar.strengthOf, Grammar.tail?, Table.get?, grammar, tailRules]
  | absent => simp [Grammar.strengthOf, Grammar.tail?, Table.get?, grammar, tailRules]

variable {operand : Int → Parser Expr Expr} {bound : Nat} {tokens rest : List Token}
  {left expr : Expr}

section

variable (steady : ∀ strength, Steady (operand strength))

include steady

/-- A group reads an expression of any strength and its closing parenthesis. -/
theorem group_gives :
    (runHead operand bound token (.form "group" groupSteps buildGroup)).Gives tokens expr rest ↔
      ∃ closing, (operand 0).Gives tokens expr (closing :: rest) ∧
        closing.type = .kind .rparen := by
  -- The steps are opened one by one, and the builder drops what is not the inner expression.
  rw [runHead_form_gives steady]
  simp only [groupSteps, steps_gives_cons steady, steps_gives_nil, step_gives_operand steady,
    step_gives_consume]
  constructor
  · rintro ⟨_, ⟨_, _, _, ⟨inner, read, rfl⟩, ⟨_, _, _, ⟨closing, rfl, closes, rfl⟩,
      ⟨rfl, rfl⟩, rfl⟩, rfl⟩, built⟩
    cases built
    exact ⟨closing, read, closes⟩
  · rintro ⟨closing, read, closes⟩
    exact ⟨_, ⟨_, _, _, ⟨expr, read, rfl⟩, ⟨_, _, _, ⟨closing, rfl, closes, rfl⟩,
      ⟨rfl, rfl⟩, rfl⟩, rfl⟩, rfl⟩

/-- A conditional reads its two arms and the colon between them. -/
theorem cond_gives {strength : Int} :
    (runTail operand bound token left (.form "cond" condSteps buildCond strength)).Gives
        tokens expr rest ↔
      ∃ chosen colon middle other, (operand 0).Gives tokens chosen (colon :: middle) ∧
        colon.type = .kind .colon ∧ (operand 2).Gives middle other rest ∧
        expr = .cond left chosen other := by
  -- The four steps of the form, in the order in which they read.
  rw [runTail_form_gives steady]
  simp only [condSteps, steps_gives_cons steady, steps_gives_nil, step_gives_left,
    step_gives_operand steady, step_gives_consume]
  constructor
  · rintro ⟨_, ⟨_, _, _, ⟨rfl, rfl⟩, ⟨_, _, _, ⟨chosen, one, rfl⟩, ⟨_, _, _,
      ⟨colon, rfl, splits, rfl⟩, ⟨_, _, _, ⟨other, two, rfl⟩, ⟨rfl, rfl⟩, rfl⟩, rfl⟩, rfl⟩, rfl⟩,
      built⟩
    cases built
    exact ⟨chosen, colon, _, other, one, splits, two, rfl⟩
  · rintro ⟨chosen, colon, middle, other, one, splits, two, rfl⟩
    exact ⟨_, ⟨_, _, _, ⟨rfl, rfl⟩, ⟨_, _, _, ⟨chosen, one, rfl⟩, ⟨_, _, _,
      ⟨colon, rfl, splits, rfl⟩, ⟨_, _, _, ⟨other, two, rfl⟩, ⟨rfl, rfl⟩, rfl⟩, rfl⟩, rfl⟩, rfl⟩,
      rfl⟩

/-- A call reads its arguments. -/
theorem call_gives {strength : Int} :
    (runTail operand bound token left (.form "call" callSteps buildCall strength)).Gives
        tokens expr rest ↔
      ∃ args, (items operand bound (.kind .comma) (.kind .rparen)).Gives tokens args rest ∧
        expr = .call left args := by
  -- Only the items read anything: the callee has been read, and its step just finds it.
  rw [runTail_form_gives steady]
  simp only [callSteps, steps_gives_cons steady, steps_gives_nil, step_gives_left,
    step_gives_items steady]
  constructor
  · rintro ⟨_, ⟨_, _, _, ⟨rfl, rfl⟩, ⟨_, _, _, ⟨args, read, rfl⟩, ⟨rfl, rfl⟩, rfl⟩, rfl⟩, built⟩
    cases built
    exact ⟨args, read, rfl⟩
  · rintro ⟨args, read, rfl⟩
    exact ⟨_, ⟨_, _, _, ⟨rfl, rfl⟩, ⟨_, _, _, ⟨args, read, rfl⟩, ⟨rfl, rfl⟩, rfl⟩, rfl⟩, rfl⟩

/-- A token starts an expression by its rule exactly in one of the ways there are. -/
theorem head_gives :
    (∃ rule, grammar.head? token = some rule ∧
      (runHead operand bound token rule).Gives tokens expr rest) ↔
      Starts (fun strength => (operand strength).Gives) token tokens expr rest := by
  constructor
  · rintro ⟨rule, found, given⟩
    rcases head?_cases found with ⟨typed, rfl⟩ | ⟨typed, rfl⟩ | ⟨typed, rfl⟩ | ⟨typed, rfl⟩
    · obtain ⟨built, rfl⟩ := gives_built.1 given
      cases built
      exact .name typed
    · obtain ⟨built, rfl⟩ := gives_built.1 given
      -- A number is read from its text as its node is built, and that may fail.
      cases read : readNumber token.text with
      | error failure => simp [buildNumber, read, bind, Except.bind] at built
      | ok value =>
        simp only [buildNumber, read, bind, Except.bind, pure, Except.pure, Except.ok.injEq]
          at built
        subst built
        exact .number typed read
    · obtain ⟨right, read, built⟩ := (runHead_operator_gives steady).1 given
      cases built
      exact .pre typed read
    · obtain ⟨closing, read, closes⟩ := (group_gives steady).1 given
      exact .group typed read closes
  · intro starts
    cases starts with
    | name typed => exact ⟨_, head?_of typed, gives_built.2 ⟨rfl, rfl⟩⟩
    | number typed read =>
      exact ⟨_, head?_of typed, gives_built.2 ⟨by simp [buildNumber, read, bind, Except.bind, pure,
        Except.pure], rfl⟩⟩
    | pre typed read =>
      exact ⟨_, head?_sign typed, (runHead_operator_gives steady).2 ⟨_, read, rfl⟩⟩
    | group typed read closes =>
      exact ⟨_, head?_of typed, (group_gives steady).2 ⟨_, read, closes⟩⟩

/-- A token continues an expression by its rule exactly in one of the ways there are. -/
theorem tail_gives (large : tokens.length < bound) :
    (∃ rule, grammar.tail? token = some rule ∧
      (runTail operand bound token left rule).Gives tokens expr rest) ↔
      Continues (fun strength => (operand strength).Gives) left token tokens expr rest := by
  -- A closing parenthesis is no comma, which is what the items of a call need.
  have listed : ∀ {args : List Expr},
      (items operand bound (.kind .comma) (.kind .rparen)).Gives tokens args rest ↔ _ :=
    items_gives steady (by decide) rfl large
  constructor
  · rintro ⟨rule, found, given⟩
    rcases tail?_cases found with ⟨typed, rfl⟩ | ⟨typed, rfl⟩ | ⟨typed, rfl⟩ | ⟨typed, rfl⟩ |
      ⟨typed, rfl⟩ | ⟨typed, rfl⟩ | ⟨typed, rfl⟩ | ⟨typed, rfl⟩
    · obtain ⟨right, read, built⟩ := (runTail_binary_gives steady).1 given
      cases built
      exact .sequence typed read
    · obtain ⟨right, read, built⟩ := (runTail_binary_gives steady).1 given
      -- Every other left side is refused by the builder.
      cases left <;> cases built
      exact .assign typed rfl read
    · obtain ⟨chosen, colon, middle, other, one, splits, two, rfl⟩ := (cond_gives steady).1 given
      exact .cond typed one splits two
    · obtain ⟨right, read, built⟩ := (runTail_binary_gives steady).1 given
      cases built
      exact .sum typed read
    · obtain ⟨right, read, built⟩ := (runTail_binary_gives steady).1 given
      cases built
      exact .product typed read
    · obtain ⟨right, read, built⟩ := (runTail_binary_gives steady).1 given
      cases built
      exact .power typed read
    · obtain ⟨built, rfl⟩ := gives_built.1 given
      cases built
      exact .post typed
    · obtain ⟨args, read, rfl⟩ := (call_gives steady).1 given
      rcases listed.1 read with ⟨closing, rfl, closes, rfl⟩ | ⟨other, first, middle, more, one,
        further, rfl⟩
      · exact .callNone typed closes
      · exact .call typed other one further
  · intro continues
    cases continues with
    | sequence typed read =>
      exact ⟨_, tail?_of typed, (runTail_binary_gives steady).2 ⟨_, read, rfl⟩⟩
    | assign typed named read =>
      subst named
      exact ⟨_, tail?_of typed, (runTail_binary_gives steady).2 ⟨_, read, rfl⟩⟩
    | cond typed one splits two =>
      exact ⟨_, tail?_of typed, (cond_gives steady).2 ⟨_, _, _, _, one, splits, two, rfl⟩⟩
    | sum typed read =>
      exact ⟨_, (tail?_sum typed).1, (runTail_binary_gives steady).2 ⟨_, read, rfl⟩⟩
    | product typed read =>
      exact ⟨_, (tail?_product typed).1, (runTail_binary_gives steady).2 ⟨_, read, rfl⟩⟩
    | power typed read =>
      exact ⟨_, tail?_of typed, (runTail_binary_gives steady).2 ⟨_, read, rfl⟩⟩
    | post typed => exact ⟨_, tail?_of typed, gives_built.2 ⟨rfl, rfl⟩⟩
    | callNone typed closes =>
      exact ⟨_, tail?_of typed, (call_gives steady).2
        ⟨[], listed.2 (.inl ⟨_, rfl, closes, rfl⟩), rfl⟩⟩
    | call typed other one further =>
      exact ⟨_, tail?_of typed, (call_gives steady).2
        ⟨_, listed.2 (.inr ⟨other, _, _, _, one, further, rfl⟩), rfl⟩⟩

end

/-- The language reads expressions at a minimum, and leaves tokens. -/
abbrev Reads (minimum : Int) : List Token → Expr → List Token → Prop :=
  (grammar.expression none minimum).Gives

/-- The language goes on from an expression at a minimum, and leaves tokens. -/
abbrev Resumes (minimum : Int) (left : Expr) : List Token → Expr → List Token → Prop :=
  (grammar.resume none minimum left).Gives

variable {minimum : Int}

/-- Reading an expression leaves no more than there was. -/
theorem reads_length (read : Reads minimum tokens expr rest) : rest.length ≤ tokens.length :=
  read.length (Grammar.steady_expression minimum)

/-- Starting an expression leaves no more than there was behind its token. -/
theorem Starts.length (starts : Starts Reads token tokens expr rest) :
    rest.length ≤ tokens.length := by
  cases starts with
  | name typed => exact Nat.le_refl _
  | number typed read => exact Nat.le_refl _
  | pre typed read => exact reads_length read
  | group typed read closes => exact Nat.le_of_succ_le (reads_length read)

/-- Continuing an expression leaves no more than there was behind its token. -/
theorem Continues.length (continues : Continues Reads left token tokens expr rest) :
    rest.length ≤ tokens.length := by
  -- Whatever the operands leave is no longer than what they were read from.
  cases continues with
  | sequence typed read => exact reads_length read
  | assign typed named read => exact reads_length read
  | cond typed one splits two =>
    exact Nat.le_trans (reads_length two) (Nat.le_of_succ_le (reads_length one))
  | sum typed read => exact reads_length read
  | product typed read => exact reads_length read
  | power typed read => exact reads_length read
  | post typed => exact Nat.le_refl _
  | callNone typed closes => exact Nat.le_succ _
  | call typed other one further =>
    exact Nat.le_trans (Nat.le_of_lt (further.length reads_length)) (reads_length one)

/-- An expression is started by its first token and resumed from there. -/
theorem reads_cons :
    Reads minimum (token :: tokens) expr rest ↔
      ∃ start middle, Starts Reads token tokens start middle ∧
        Resumes minimum start middle expr rest := by
  rw [Reads, Grammar.plain_expression_gives (Nat.lt_succ_self _)]
  simp only [head_gives Grammar.steady_expression]

/-- An expression is continued by a token that binds tighter than the minimum. -/
theorem resumes_cons (strong : minimum < grammar.strengthOf (some token)) :
    Resumes minimum left (token :: tokens) expr rest ↔
      ∃ next middle, Continues Reads left token tokens next middle ∧
        Resumes minimum next middle expr rest := by
  rw [Resumes, Grammar.plain_resume_gives (Nat.lt_succ_self _) strong]
  simp only [tail_gives Grammar.steady_expression (Nat.lt_succ_self _)]

end Climb.Expr
