import Climb.Proofs.Grammar.Depth

/-! Successful reading as a relation: which value an action reads, and which tokens it leaves. -/

namespace Climb

variable {N : Type}

/-- A composition succeeds exactly if both of its parts do. -/
theorem bind_ok_iff {α β : Type} {first : Except Error α} {next : α → Except Error β} {value : β} :
    first >>= next = .ok value ↔ ∃ middle, first = .ok middle ∧ next middle = .ok value := by
  cases first with
  | error failure => simp [bind, Except.bind]
  | ok middle => simp [bind, Except.bind]

namespace Parser

variable {α β : Type} {tokens rest : List Token}

/-- The action reads a value from the start of a list of tokens and leaves the rest of it. -/
def Gives (action : Parser N α) (tokens : List Token) (value : α) (rest : List Token) : Prop :=
  action.on ⟨tokens, none⟩ = (.ok value, ⟨rest, none⟩)

/-- What is left is the end of what there was. -/
theorem Gives.suffix {action : Parser N α} {value : α} (steady : Steady action)
    (given : action.Gives tokens value rest) : rest <:+ tokens := by
  have left := steady.suffix ⟨tokens, none⟩
  rw [given] at left
  exact left

/-- What is left is no longer than what there was. -/
theorem Gives.length {action : Parser N α} {value : α} (steady : Steady action)
    (given : action.Gives tokens value rest) : rest.length ≤ tokens.length :=
  (given.suffix steady).length_le

/-- A value is read exactly if it is the answer, with the rest of the tokens left over. -/
theorem Steady.gives_iff {action : Parser N α} {value : α} (steady : Steady action) :
    action.Gives tokens value rest ↔
      (action.on ⟨tokens, none⟩).1 = .ok value ∧ (action.on ⟨tokens, none⟩).2.tokens = rest := by
  -- There was no failure to begin with, so there is none to compare.
  have calm := steady.calm tokens
  rcases run : action.on ⟨tokens, none⟩ with ⟨outcome, left, failure⟩
  simp only [run] at calm
  simp [Gives, run, calm]

/-- What is read of a list is what a fresh parse over it answers and leaves. -/
theorem Steady.gives_iff_fresh {action : Parser N α} {value : α} (steady : Steady action) :
    action.Gives tokens value rest ↔
      (action ⟨.ofSource (.ofTokens tokens), []⟩).1 = .ok value ∧
        (action ⟨.ofSource (.ofTokens tokens), []⟩).2.buffer.cursor.tokens = rest :=
  steady.gives_iff

/-- Actions that agree on a list read the same from it. -/
theorem Agree.gives_iff {one other : Parser N α} {value : α} {size : Nat}
    (agree : Agree size one other) (short : tokens.length ≤ size) :
    one.Gives tokens value rest ↔ other.Gives tokens value rest := by
  simp only [Gives, agree.same ⟨tokens, none⟩ short]

/-- An action that leaves the tokens alone reads nothing. -/
theorem Still.gives_iff {action : Parser N α} {outcome : Except Error α} {value : α}
    (still : Still action outcome) :
    action.Gives tokens value rest ↔ outcome = .ok value ∧ tokens = rest := by
  simp [Gives, still.on]

/-- One action after another reads on from where the first stopped. -/
theorem gives_bind {first : Parser N α} {next : α → Parser N β} {value : β}
    (before : Steady first) (steady : ∀ middle, Steady (next middle)) :
    (first >>= next).Gives tokens value rest ↔
      ∃ middle left, first.Gives tokens middle left ∧ (next middle).Gives left value rest := by
  -- The middle list has no failure either, so the second part starts like a reading of its own.
  have calm := before.calm tokens
  simp only [Gives, on_bind steady _ before]
  rcases run : first.on ⟨tokens, none⟩ with ⟨outcome, left, failure⟩
  simp only [run] at calm
  subst calm
  cases outcome with
  | error failure => simp [proceed]
  | ok middle =>
    constructor
    · exact fun given => ⟨middle, left, rfl, given⟩
    · -- The first part has one answer, so the middle that is claimed is the one it left.
      rintro ⟨_, _, same, given⟩
      simp only [Prod.mk.injEq, Except.ok.injEq, Cursor.mk.injEq, and_true] at same
      obtain ⟨rfl, rfl⟩ := same
      exact given

/-- An action that ends without reading leaves what was left before its end. -/
theorem gives_bind_still {first : Parser N α} {next : α → Parser N β}
    {outcome : α → Except Error β} {value : β} (before : Steady first)
    (still : ∀ middle, Still (next middle) (outcome middle)) :
    (first >>= next).Gives tokens value rest ↔
      ∃ middle, first.Gives tokens middle rest ∧ outcome middle = .ok value := by
  rw [gives_bind before fun middle => (still middle).steady]
  simp only [(still _).gives_iff]
  constructor
  · rintro ⟨middle, _, read, ended, rfl⟩
    exact ⟨middle, read, ended⟩
  · rintro ⟨middle, read, ended⟩
    exact ⟨middle, rest, read, ended, rfl⟩

/-- An action that returns what it makes of an answer makes it of what was read. -/
theorem gives_bind_pure {first : Parser N α} {finish : α → β} {value : β} (before : Steady first) :
    (first >>= fun middle => pure (finish middle)).Gives tokens value rest ↔
      ∃ middle, first.Gives tokens middle rest ∧ value = finish middle := by
  rw [gives_bind_still before fun middle => still_pure (finish middle)]
  constructor
  · rintro ⟨middle, read, same⟩
    exact ⟨middle, read, (Except.ok.inj same).symm⟩
  · rintro ⟨middle, read, rfl⟩
    exact ⟨middle, read, rfl⟩

/-- Consuming a token of any type reads the first one. -/
theorem gives_consume_any {token : Token} :
    (consume none : Parser N Token).Gives tokens token rest ↔ tokens = token :: rest := by
  cases tokens with
  | nil => simp [Gives, on_consume, Cursor.consume, Cursor.take]
  | cons first others => simp [Gives, on_consume, Cursor.consume, Cursor.take]

/-- Consuming a token of a type reads the first one if it has that type. -/
theorem gives_consume {token : Token} {type : TokenType} :
    (consume (some type) : Parser N Token).Gives tokens token rest ↔
      tokens = token :: rest ∧ token.type = type := by
  cases tokens with
  | nil => simp [Gives, on_consume, Cursor.consume, Cursor.take]
  | cons first others =>
    simp only [Gives, on_consume, Cursor.consume, Cursor.take]
    split
    · -- The expected type: the first token goes, and it is the one that was asked for.
      rename_i typed
      simp only [Prod.mk.injEq, Except.ok.injEq, Cursor.mk.injEq, and_true, List.cons.injEq]
      constructor
      · rintro ⟨rfl, rfl⟩
        exact ⟨⟨rfl, rfl⟩, typed⟩
      · exact fun given => given.1
    · -- Any other type: consuming fails, and no token of that type leads the list.
      rename_i other
      simp only [Prod.mk.injEq, reduceCtorEq, false_and, List.cons.injEq, false_iff, not_and]
      rintro ⟨rfl, -⟩
      exact other

/-- A type is accepted if the first token has it. -/
theorem gives_accept_true {type : TokenType} :
    (accept type : Parser N Bool).Gives tokens true rest ↔
      ∃ token, tokens = token :: rest ∧ token.type = type := by
  cases tokens with
  | nil => simp [Gives, on_accept, Cursor.accept]
  | cons first others =>
    simp only [Gives, on_accept, Cursor.accept, List.cons.injEq]
    split
    · -- The type is there: the first token is gone.
      rename_i typed
      simp only [Prod.mk.injEq, Cursor.mk.injEq, true_and, and_true]
      constructor
      · intro same
        exact ⟨first, ⟨rfl, same⟩, typed⟩
      · rintro ⟨_, ⟨-, same⟩, -⟩
        exact same
    · -- Another type is not accepted, so the answer would have been no.
      rename_i other
      simp only [Prod.mk.injEq, Except.ok.injEq, Bool.false_eq_true, false_and, false_iff]
      rintro ⟨_, ⟨rfl, -⟩, typed⟩
      exact other typed

/-- A type is not accepted if the first token has another, or if there is none. -/
theorem gives_accept_false {type : TokenType} :
    (accept type : Parser N Bool).Gives tokens false rest ↔
      tokens = rest ∧ ∀ token ∈ tokens.head?, token.type ≠ type := by
  cases tokens with
  | nil => simp [Gives, on_accept, Cursor.accept]
  | cons first others =>
    simp only [Gives, on_accept, Cursor.accept]
    split
    · rename_i typed
      simp [typed]
    · rename_i other
      simp [other]

/-- Building a node reads nothing. -/
theorem gives_built {outcome : Except Error α} {value : α} :
    (built outcome : Parser N α).Gives tokens value rest ↔
      outcome = .ok value ∧ tokens = rest :=
  (still_built outcome).gives_iff

/-- Looking at the next token reads nothing. -/
theorem gives_peek {ahead : Option Token} :
    (peek 0 : Parser N (Option Token)).Gives tokens ahead rest ↔
      tokens.head? = ahead ∧ tokens = rest := by
  cases tokens with
  | nil => simp [Gives, on_peek, Cursor.peekAt, Cursor.peek]
  | cons first others => simp [Gives, on_peek, Cursor.peekAt, Cursor.peek]

variable {operand : Int → Parser N N} {bound : Nat} {token : Token} {left node : N}

/-- An operator before its operand reads that operand at its own strength. -/
theorem runHead_operator_gives (steady : ∀ strength, Steady (operand strength)) {label : String}
    {build : Token → N → Except Error N} {strength : Int} :
    (runHead operand bound token (.operator label build strength)).Gives tokens node rest ↔
      ∃ right, (operand strength).Gives tokens right rest ∧ build token right = .ok node :=
  gives_bind_still (steady strength) fun _ => still_built _

/-- An operator between its operands reads the right one at its right strength. -/
theorem runTail_binary_gives (steady : ∀ strength, Steady (operand strength)) {label : String}
    {build : Token → N → N → Except Error N} {strength : Int} {associativity : Associativity} :
    (runTail operand bound token left (.binary label build strength associativity)).Gives
        tokens node rest ↔
      ∃ right, (operand (rightStrength strength associativity)).Gives tokens right rest ∧
        build token left right = .ok node :=
  gives_bind_still (steady _) fun _ => still_built _

end Parser

namespace Grammar

open Climb.Parser

variable (grammar : Grammar N) (interpreter : Option (Interpreter N))

/-- Going on from the state is going on from it in that same state. -/
theorem get_bind_apply {α : Type} (next : ParseState N → Parser N α) (state : ParseState N) :
    (get >>= next) state = next state state := rfl

/-- An expression is read to the depth that the tokens in the buffer allow. -/
theorem expression_apply (minimum : Int) (state : ParseState N) :
    grammar.expression interpreter minimum state =
      grammar.expressionWithin interpreter (state.buffer.size + 1) minimum state :=
  get_bind_apply _ state

/-- Goes on with an expression whose start has been read, as far as the minimum allows. -/
def resume (minimum : Int) (left : N) : Parser N N := do
  let state ← get
  grammar.climb interpreter (grammar.expression interpreter) (state.buffer.size + 1) minimum
    (state.buffer.size + 1) left

/-- An expression is resumed within the bound that the tokens in the buffer allow. -/
theorem resume_apply (minimum : Int) (left : N) (state : ParseState N) :
    grammar.resume interpreter minimum left state =
      grammar.climb interpreter (grammar.expression interpreter) (state.buffer.size + 1) minimum
        (state.buffer.size + 1) left state :=
  get_bind_apply _ state

variable {grammar interpreter}

/-- An action whose bound comes from the buffer does what one does whose bound is large enough. -/
theorem agree_ofSize {action : Parser N N} (bounded : Nat → Parser N N)
    (unfolds : ∀ state, action state = bounded (state.buffer.size + 1) state)
    (agree : ∀ {size bound limit}, size < bound → size < limit →
      Agree size (bounded bound) (bounded limit)) {size bound : Nat} (large : size < bound) :
    Agree size action (bounded bound) := by
  -- On its own list the action has a bound of one more than its length.
  have known : ∀ cursor, action.on cursor = (bounded (cursor.tokens.length + 1)).on cursor := by
    intro cursor
    have size : (ParseState.ofCursor cursor : ParseState N).buffer.size = cursor.tokens.length := by
      simp [ParseState.ofCursor, Buffer.ofSource, Buffer.size, Feed.size]
    simp only [on, unfolds, size]
  -- Every bound above zero agrees with itself on the empty list, which is all this takes.
  have steady : ∀ limit, Steady (bounded (limit + 1)) := fun limit =>
    (agree (Nat.succ_pos limit) (Nat.succ_pos limit)).steady
  refine ⟨⟨fun {state cursor} shown => ?_, fun cursor => ?_, fun tokens => ?_,
    fun {cursor value} found => ?_⟩,
    (agree large large).otherSteady, fun cursor short => ?_⟩
  · -- Any buffer that shows the list has a size that is large enough too.
    have length := shown.length
    have enough : Agree cursor.tokens.length (bounded (state.buffer.size + 1))
        (bounded (cursor.tokens.length + 1)) := agree (by omega) (Nat.lt_succ_self _)
    rw [known, unfolds, ← enough.same cursor (Nat.le_refl _)]
    exact (steady state.buffer.size).determined shown
  · rw [known]
    exact (steady _).suffix cursor
  · rw [known]
    exact (steady _).calm tokens
  · rw [known] at found ⊢
    exact (steady _).kept found
  · -- A larger bound given from outside makes no difference on a list this short.
    have enough : Agree cursor.tokens.length (bounded (cursor.tokens.length + 1))
        (bounded bound) := agree (Nat.lt_succ_self _) (by omega)
    rw [known, enough.same cursor (Nat.le_refl _)]

/-- Reading an expression does what reading it within a depth does that is large enough. -/
theorem agree_expression (minimum : Int) {size depth : Nat} (deep : size < depth) :
    Agree size (grammar.expression interpreter minimum)
      (grammar.expressionWithin interpreter depth minimum) :=
  agree_ofSize (fun depth => grammar.expressionWithin interpreter depth minimum)
    (grammar.expression_apply interpreter minimum)
    (fun deep deeper => agree_expressionWithin minimum deep deeper) deep

/-- Reading an expression sees only the list of the tokens that are left. -/
theorem steady_expression (minimum : Int) : Steady (grammar.expression interpreter minimum) :=
  (agree_expression minimum (Nat.zero_lt_one)).steady

/-- Resuming an expression does what climbing does within bounds that are large enough. -/
theorem agree_resume (minimum : Int) (left : N) {size bound : Nat} (large : size < bound) :
    Agree size (grammar.resume interpreter minimum left)
      (grammar.climb interpreter (grammar.expression interpreter) bound minimum bound left) :=
  agree_ofSize
    (fun bound =>
      grammar.climb interpreter (grammar.expression interpreter) bound minimum bound left)
    (grammar.resume_apply interpreter minimum left)
    (fun large larger => agree_climb minimum left
      (fun strength => (steady_expression strength).agree _) large larger large larger) large

/-- Resuming an expression sees only the list of the tokens that are left. -/
theorem steady_resume (minimum : Int) (left : N) :
    Steady (grammar.resume interpreter minimum left) :=
  (agree_resume minimum left (Nat.zero_lt_one)).steady

/-- An expression starts with its first token and is then resumed. -/
theorem agree_expression_start (minimum : Int) {size bound : Nat} (large : size ≤ bound) :
    Agree size (grammar.expression interpreter minimum) (do
      let token ← consume none
      grammar.startBy interpreter (grammar.expression interpreter) bound
        (grammar.resume interpreter minimum) token) := by
  refine (agree_expression minimum (Nat.lt_succ_of_le large)).trans ?_
  rw [expressionWithin_succ]
  refine agree_consume
    (steady_startBy (steady_expressionWithin bound)
      (steady_climb (steady_expressionWithin bound) bound minimum bound) bound)
    (steady_startBy steady_expression (steady_resume minimum) bound) fun token smaller less => ?_
  -- Behind the first token the depth is one less, and still above the number of tokens.
  have inside : smaller < bound := Nat.lt_of_lt_of_le less large
  have operands : ∀ strength, Agree smaller (grammar.expressionWithin interpreter bound strength)
      (grammar.expression interpreter strength) :=
    fun strength => (agree_expression strength inside).symm
  exact agree_startBy operands (fun node =>
    (agree_climb minimum node operands inside inside inside inside).trans
      (agree_resume minimum node inside).symm) inside inside token

/-- Resuming an expression continues it with the next token, or ends it. -/
theorem agree_resume_round (minimum : Int) (left : N) {size bound : Nat} (large : size ≤ bound) :
    Agree size (grammar.resume interpreter minimum left) (do
      let ahead ← peek 0
      if minimum < grammar.strengthOf ahead then
        let token ← consume none
        grammar.continueBy interpreter (grammar.expression interpreter) bound left
          (grammar.resume interpreter minimum) token
      else return left) := by
  refine (agree_resume minimum left (Nat.lt_succ_of_le large)).trans ?_
  rw [climb_succ]
  refine ((steady_peek 0).agree size).bind fun ahead => ?_
  split
  · refine agree_consume
      (steady_continueBy steady_expression
        (steady_climb steady_expression (bound + 1) minimum bound) (bound + 1) left)
      (steady_continueBy steady_expression (steady_resume minimum) bound left)
      fun token smaller less => ?_
    -- One round has been spent and one token with it, so the loop may be given its bound anew.
    have inside : smaller < bound := Nat.lt_of_lt_of_le less large
    have deep : smaller < bound + 1 := Nat.lt_succ_of_lt inside
    have operands : ∀ strength, Agree smaller (grammar.expression interpreter strength)
        (grammar.expression interpreter strength) :=
      fun strength => (steady_expression strength).agree smaller
    exact agree_continueBy operands (fun node =>
      (agree_climb minimum node operands inside inside deep inside).trans
        (agree_resume minimum node inside).symm) deep inside left token
  · exact (still_pure left).steady.agree size

variable {minimum : Int} {left node : N} {token : Token} {tokens rest : List Token} {bound : Nat}

/-- Consuming the first token and going on reads on after it. -/
theorem consume_gives {α : Type} {value : α} {next : Token → Parser N α}
    (steady : ∀ token, Steady (next token)) :
    (consume none >>= next).Gives tokens value rest ↔
      ∃ token others, tokens = token :: others ∧ (next token).Gives others value rest := by
  simp only [gives_bind (steady_consume none) steady, gives_consume_any]

/-- What an action builds is interpreted without reading, and then read on from. -/
theorem interpreted_gives {action : Parser N N} {next : N → Parser N N} (steady : Steady action)
    (after : ∀ node, (next node).Steady) :
    (do
      let built ← action
      let start ← interpret interpreter built
      next start : Parser N N).Gives tokens node rest ↔
      ∃ built start middle, action.Gives tokens built middle ∧
        interpreted interpreter built = .ok start ∧ (next start).Gives middle node rest := by
  simp only [gives_bind steady fun built => (still_interpret interpreter built).steady.bind after,
    gives_bind (still_interpret interpreter _).steady after,
    (still_interpret interpreter _).gives_iff]
  constructor
  · -- Interpreting takes no token, so the list it leaves is the one it found.
    rintro ⟨built, middle, read, start, _, ⟨same, rfl⟩, rest⟩
    exact ⟨built, start, middle, read, same, rest⟩
  · rintro ⟨built, start, middle, read, same, rest⟩
    exact ⟨built, middle, read, start, middle, ⟨same, rfl⟩, rest⟩

/-- A rule starts an expression if the token has one, and its node is read on from. -/
theorem startBy_gives {operand : Int → Parser N N} {next : N → Parser N N}
    (steady : ∀ strength, (operand strength).Steady) (after : ∀ node, (next node).Steady) :
    (grammar.startBy interpreter operand bound next token).Gives tokens node rest ↔
      ∃ rule built start middle, grammar.head? token = some rule ∧
        (runHead operand bound token rule).Gives tokens built middle ∧
        interpreted interpreter built = .ok start ∧ (next start).Gives middle node rest := by
  unfold startBy
  split
  · -- No rule, no expression: the token is reported.
    rename_i missing
    simp [missing, (still_throw _).gives_iff]
  · rename_i rule found
    rw [interpreted_gives (steady_runHead steady bound token rule) after]
    constructor
    · rintro ⟨built, start, middle, read⟩
      exact ⟨rule, built, start, middle, found, read⟩
    · rintro ⟨other, built, start, middle, same, read⟩
      cases found.symm.trans same
      exact ⟨built, start, middle, read⟩

/-- A rule continues an expression if the token has one, and its node is read on from. -/
theorem continueBy_gives {operand : Int → Parser N N} {next : N → Parser N N}
    (steady : ∀ strength, (operand strength).Steady) (after : ∀ node, (next node).Steady) :
    (grammar.continueBy interpreter operand bound left next token).Gives tokens node rest ↔
      ∃ rule built start middle, grammar.tail? token = some rule ∧
        (runTail operand bound token left rule).Gives tokens built middle ∧
        interpreted interpreter built = .ok start ∧ (next start).Gives middle node rest := by
  unfold continueBy
  split
  · -- The token would be reported here as well.
    rename_i missing
    simp [missing, (still_throw _).gives_iff]
  · rename_i rule found
    rw [interpreted_gives (steady_runTail steady bound token left rule) after]
    constructor
    · rintro ⟨built, start, middle, read⟩
      exact ⟨rule, built, start, middle, found, read⟩
    · rintro ⟨other, built, start, middle, same, read⟩
      cases found.symm.trans same
      exact ⟨built, start, middle, read⟩

/-- No expression is read where there is no token. -/
theorem expression_gives_nil : ¬(grammar.expression interpreter minimum).Gives [] node rest := by
  rw [(agree_expression_start minimum (Nat.le_refl 0)).gives_iff (Nat.le_refl _),
    consume_gives (steady_startBy steady_expression (steady_resume minimum) 0)]
  rintro ⟨token, others, empty, -⟩
  cases empty

/-- An expression is read by the head rule of its first token and then resumed. -/
theorem expression_gives_cons (large : tokens.length < bound) :
    (grammar.expression interpreter minimum).Gives (token :: tokens) node rest ↔
      ∃ rule built start middle, grammar.head? token = some rule ∧
        (runHead (grammar.expression interpreter) bound token rule).Gives tokens built middle ∧
        interpreted interpreter built = .ok start ∧
        (grammar.resume interpreter minimum start).Gives middle node rest := by
  rw [(agree_expression_start minimum large).gives_iff (Nat.le_refl _),
    consume_gives (steady_startBy steady_expression (steady_resume minimum) bound),
    ← startBy_gives steady_expression (steady_resume minimum)]
  constructor
  · rintro ⟨_, _, same, given⟩
    cases same
    exact given
  · exact fun given => ⟨token, tokens, rfl, given⟩

/-- Whether an expression ends or goes on is decided by the next token alone. -/
theorem resume_gives (large : tokens.length ≤ bound) :
    (grammar.resume interpreter minimum left).Gives tokens node rest ↔
      if minimum < grammar.strengthOf tokens.head? then
        (do
          let token ← consume none
          grammar.continueBy interpreter (grammar.expression interpreter) bound left
            (grammar.resume interpreter minimum) token : Parser N N).Gives tokens node rest
      else left = node ∧ tokens = rest := by
  have steady : ∀ token, Steady (grammar.continueBy interpreter (grammar.expression interpreter)
      bound left (grammar.resume interpreter minimum) token) :=
    steady_continueBy steady_expression (steady_resume minimum) bound left
  -- The look ahead reads nothing, so the branch is chosen by the head of this very list.
  rw [(agree_resume_round minimum left large).gives_iff (Nat.le_refl _),
    gives_bind (steady_peek 0) fun ahead => by
      split
      · exact (steady_consume none).bind steady
      · exact (still_pure left).steady]
  simp only [gives_peek]
  constructor
  · rintro ⟨_, _, ⟨rfl, rfl⟩, given⟩
    split at given
    · rwa [if_pos ‹_›]
    · rw [if_neg ‹_›]
      rw [(still_pure left).gives_iff] at given
      exact ⟨Except.ok.inj given.1, given.2⟩
  · intro given
    refine ⟨_, _, ⟨rfl, rfl⟩, ?_⟩
    split at given
    · rwa [if_pos ‹_›]
    · rw [if_neg ‹_›, (still_pure left).gives_iff]
      exact ⟨congrArg _ given.1, given.2⟩

/-- An expression ends where the next token binds no tighter than the minimum. -/
theorem resume_gives_stop (weak : ¬minimum < grammar.strengthOf tokens.head?) :
    (grammar.resume interpreter minimum left).Gives tokens node rest ↔
      left = node ∧ tokens = rest := by
  rw [resume_gives (Nat.le_refl _), if_neg weak]

/-- Below zero nothing ends an expression, so it cannot end with the tokens. -/
theorem resume_gives_nil (negative : minimum < 0) :
    ¬(grammar.resume interpreter minimum left).Gives [] node rest := by
  -- The end of the input has strength zero, above the minimum, and then no token is there to take.
  rw [resume_gives (Nat.le_refl _), List.head?_nil, strengthOf, if_pos negative,
    consume_gives (steady_continueBy steady_expression (steady_resume minimum) _ left)]
  rintro ⟨token, others, empty, -⟩
  cases empty

/-- An expression goes on where the next token binds tighter than the minimum. -/
theorem resume_gives_step (large : tokens.length < bound)
    (strong : minimum < grammar.strengthOf (some token)) :
    (grammar.resume interpreter minimum left).Gives (token :: tokens) node rest ↔
      ∃ rule built next middle, grammar.tail? token = some rule ∧
        (runTail (grammar.expression interpreter) bound token left rule).Gives tokens built middle ∧
        interpreted interpreter built = .ok next ∧
        (grammar.resume interpreter minimum next).Gives middle node rest := by
  rw [resume_gives large, List.head?_cons, if_pos strong,
    consume_gives (steady_continueBy steady_expression (steady_resume minimum) bound left),
    ← continueBy_gives steady_expression (steady_resume minimum)]
  constructor
  · rintro ⟨_, _, same, given⟩
    cases same
    exact given
  · exact fun given => ⟨token, tokens, rfl, given⟩

/-- Without an interpreter an expression is resumed from the very node that its start builds. -/
theorem plain_expression_gives (large : tokens.length < bound) :
    (grammar.expression none minimum).Gives (token :: tokens) node rest ↔
      ∃ start middle, (∃ rule, grammar.head? token = some rule ∧
          (runHead (grammar.expression none) bound token rule).Gives tokens start middle) ∧
        (grammar.resume none minimum start).Gives middle node rest := by
  rw [expression_gives_cons large]
  simp only [interpreted, Except.ok.injEq]
  constructor
  · rintro ⟨rule, built, _, middle, found, read, rfl, resumed⟩
    exact ⟨built, middle, ⟨rule, found, read⟩, resumed⟩
  · rintro ⟨built, middle, ⟨rule, found, read⟩, resumed⟩
    exact ⟨rule, built, built, middle, found, read, rfl, resumed⟩

/-- Without an interpreter an expression goes on from the very node that a rule builds. -/
theorem plain_resume_gives (large : tokens.length < bound)
    (strong : minimum < grammar.strengthOf (some token)) :
    (grammar.resume none minimum left).Gives (token :: tokens) node rest ↔
      ∃ next middle, (∃ rule, grammar.tail? token = some rule ∧
          (runTail (grammar.expression none) bound token left rule).Gives tokens next middle) ∧
        (grammar.resume none minimum next).Gives middle node rest := by
  rw [resume_gives_step large strong]
  simp only [interpreted, Except.ok.injEq]
  constructor
  · rintro ⟨rule, built, _, middle, found, read, rfl, resumed⟩
    exact ⟨built, middle, ⟨rule, found, read⟩, resumed⟩
  · rintro ⟨built, middle, ⟨rule, found, read⟩, resumed⟩
    exact ⟨rule, built, built, middle, found, read, rfl, resumed⟩

/-- Whatever is done about the token ahead leaves it alone. -/
theorem steady_refuse (ahead : Option Token) : Steady (refuse ahead : Parser N Unit) :=
  related_refuse congruence_steady ahead

/-- Refusing excess tokens sees only the list. -/
theorem steady_refuseExcess : Steady (refuseExcess : Parser N Unit) :=
  (steady_peek 0).bind steady_refuse

/-- Nothing is refused only where no token is left. -/
theorem refuseExcess_gives {done : Unit} :
    (refuseExcess : Parser N Unit).Gives tokens done rest ↔ tokens = [] ∧ rest = [] := by
  rw [refuseExcess_eq, gives_bind (steady_peek 0) steady_refuse]
  simp only [gives_peek]
  constructor
  · rintro ⟨_, _, ⟨rfl, rfl⟩, given⟩
    -- The token ahead is refused, whichever it is.
    cases tokens with
    | nil => exact ⟨rfl, ((still_pure ()).gives_iff.1 given).2.symm⟩
    | cons token others => exact absurd ((still_throw _).gives_iff.1 given).1 (by simp)
  · rintro ⟨rfl, rfl⟩
    exact ⟨none, [], ⟨rfl, rfl⟩, (still_pure ()).gives_iff.2 ⟨rfl, rfl⟩⟩

/-- Where nothing is refused, no failure lies ahead. -/
theorem refuseExcess_calm {cursor : Cursor} {done : Unit}
    (passed : ((refuseExcess : Parser N Unit).on cursor).1 = .ok done) : cursor.failure = none := by
  rw [refuseExcess_eq, on_bind steady_refuse _ (steady_peek 0), on_peek] at passed
  obtain ⟨tokens, failure⟩ := cursor
  cases failure with
  | none => rfl
  | some failure =>
    -- Either a token is refused, or the look past the last one brings the failure up.
    cases tokens with
    | nil => simp [Cursor.peekAt, Cursor.peek, proceed] at passed
    | cons token others =>
      simp [Cursor.peekAt, Cursor.peek, proceed, refuse, (still_throw _).on] at passed

/-- Refusing excess tokens after an expression sees only the list. -/
theorem steady_refuseAfter (node : N) : Steady (refuseExcess >>= fun _ => pure node : Parser N N) :=
  steady_refuseExcess.bind fun _ => (still_pure node).steady

/-- The whole input is an expression, with nothing after it if it is to be used up. -/
theorem inputWithin_gives {depth : Nat} {exhaust : Bool} (deep : tokens.length < depth) :
    (grammar.inputWithin interpreter depth exhaust).Gives tokens node rest ↔
      (grammar.expression interpreter 0).Gives tokens node rest ∧ (exhaust = true → rest = []) := by
  rw [(agree_expression 0 deep).gives_iff (Nat.le_refl _)]
  -- Without the demand to use it up the rest of the input is not looked at.
  cases exhaust with
  | false =>
    have unfolded : grammar.inputWithin interpreter depth false =
        grammar.expressionWithin interpreter depth 0 >>= pure := rfl
    rw [unfolded, gives_bind (steady_expressionWithin depth 0) fun node => (still_pure node).steady]
    simp [(still_pure _).gives_iff]
  | true =>
    rw [inputWithin_whole, gives_bind (steady_expressionWithin depth 0) steady_refuseAfter]
    simp only [gives_bind steady_refuseExcess fun _ => (still_pure _).steady,
      (still_pure _).gives_iff, refuseExcess_gives, Except.ok.injEq, forall_const]
    constructor
    · rintro ⟨_, _, read, _, _, ⟨rfl, rfl⟩, rfl, rfl⟩
      exact ⟨read, rfl⟩
    · rintro ⟨read, rfl⟩
      exact ⟨node, [], read, (), [], ⟨rfl, rfl⟩, rfl, rfl⟩

/-- Reading a whole input sees only the list. -/
theorem steady_inputWithin (depth : Nat) (exhaust : Bool) :
    Steady (grammar.inputWithin interpreter depth exhaust) :=
  related_inputWithin congruence_steady grammar depth (steady_expressionWithin depth 0)
    exhaust

/-- An input that is read to its end has no failure there. -/
theorem inputWithin_calm {depth : Nat} {cursor : Cursor}
    (read : ((grammar.inputWithin interpreter depth true).on cursor).1 = .ok node) :
    cursor.failure = none := by
  rw [inputWithin_whole, on_bind steady_refuseAfter cursor (steady_expressionWithin depth 0)]
    at read
  have kept : ∀ {middle}, ((grammar.expressionWithin interpreter depth 0).on cursor).1 =
      .ok middle → _ = cursor.failure := (steady_expressionWithin depth 0).kept
  -- The expression passes over no failure, so the last look finds what there was.
  rcases known : (grammar.expressionWithin interpreter depth 0).on cursor with ⟨outcome, rest⟩
  rw [known] at read kept
  cases outcome with
  | error failure => cases read
  | ok middle =>
    rw [proceed, on_bind (fun _ => (still_pure middle).steady) rest steady_refuseExcess] at read
    rcases passed : (refuseExcess : Parser N Unit).on rest with ⟨answer, left⟩
    rw [passed] at read
    cases answer with
    | error failure => cases read
    | ok done =>
      have calm : rest.failure = none := refuseExcess_calm (congrArg Prod.fst passed)
      exact (kept rfl).symm.trans calm

/-- A run does what reading the whole input does on the list of what its source will deliver. -/
theorem run_on {source : Source} (ends : source.feed.Ends) (exhaust : Bool) :
    ((grammar.run interpreter source exhaust).1,
      (grammar.run interpreter source exhaust).2.buffer.cursor) =
      (grammar.inputWithin interpreter (source.feed.size + 1) exhaust).on source.feed.cursor := by
  -- A fresh buffer over the source shows what the source will deliver.
  have start := Buffer.shows_ofSource source ends
  have steady : Steady (grammar.inputWithin interpreter (source.feed.size + 1) exhaust) :=
    steady_inputWithin _ _
  obtain ⟨outcome, left⟩ :=
    steady.determined (show (⟨.ofSource source, []⟩ : ParseState N).buffer.Shows _ from start)
  exact Prod.ext outcome left.same

variable {source : Source} {exhaust : Bool}

/-- A run reads an expression and leaves tokens exactly if these can be read from its source. -/
theorem run_gives (ends : source.feed.Ends) (shown : source.feed.cursor = ⟨tokens, none⟩) :
    ((grammar.run interpreter source exhaust).1 = .ok node ∧
      (grammar.run interpreter source exhaust).2.buffer.cursor.tokens = rest) ↔
      (grammar.expression interpreter 0).Gives tokens node rest ∧ (exhaust = true → rest = []) := by
  -- The size of the source counts at least the tokens it delivers, so the depth is enough.
  have length := source.feed.cursor_length
  have known : _ = (grammar.inputWithin interpreter (source.feed.size + 1) exhaust).on _ :=
    run_on ends exhaust
  rw [shown] at length known
  rw [← inputWithin_gives (Nat.lt_succ_of_le length), (steady_inputWithin _ _).gives_iff, ← known]

/-- A run reads an expression exactly if some start of its source can be read as that. -/
theorem run_ok_iff (ends : source.feed.Ends) (shown : source.feed.cursor = ⟨tokens, none⟩) :
    (grammar.run interpreter source exhaust).1 = .ok node ↔
      ∃ rest, (grammar.expression interpreter 0).Gives tokens node rest ∧
        (exhaust = true → rest = []) := by
  simp only [← run_gives ends shown, exists_and_left, exists_eq', and_true]

/-- An input that is used up is read exactly if it has no failure and is one expression. -/
theorem run_whole_iff (ends : source.feed.Ends) :
    (grammar.run interpreter source true).1 = .ok node ↔
      source.feed.cursor.failure = none ∧
        (grammar.expression interpreter 0).Gives source.feed.cursor.tokens node [] := by
  rcases shown : source.feed.cursor with ⟨tokens, failure⟩
  cases failure with
  | none =>
    rw [run_ok_iff ends shown]
    simp
  | some failure =>
    -- A failure at the end of the tokens would have come up before they were used up.
    simp only [reduceCtorEq, false_and, iff_false]
    intro read
    have known : (_, _) = (grammar.inputWithin interpreter (source.feed.size + 1) true).on _ :=
      run_on ends true
    rw [shown] at known
    have passed : ((grammar.inputWithin interpreter (source.feed.size + 1) true).on
        ⟨tokens, some failure⟩).1 = .ok node := by
      rw [← known]
      exact read
    cases inputWithin_calm passed

end Grammar

end Climb
