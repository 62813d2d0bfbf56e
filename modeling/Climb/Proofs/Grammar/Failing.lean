import Climb.Proofs.Grammar.Promptness

/-! Where reading an expression fails, read off its parts. -/

namespace Climb

variable {N : Type} {token : Token} {tokens rest : List Token} {failure : Error} {bound : Nat}
  {left : N}

namespace Parser

/-- An action that ends without reading fails before its end or in it. -/
theorem fails_bind_still {α β : Type} {first : Parser N α} {next : α → Parser N β}
    {outcome : α → Except Error β} (before : Steady first)
    (still : ∀ middle, Still (next middle) (outcome middle)) :
    (first >>= next).Fails tokens failure rest ↔ first.Fails tokens failure rest ∨
      ∃ middle, first.Gives tokens middle rest ∧ outcome middle = .error failure := by
  rw [fails_bind before fun middle => (still middle).steady]
  simp only [(still _).fails_iff]
  -- The second part takes nothing, so its failure leaves what the first part left.
  refine or_congr_right ⟨?_, ?_⟩
  · rintro ⟨middle, _, read, failed, rfl⟩
    exact ⟨middle, read, failed⟩
  · rintro ⟨middle, read, failed⟩
    exact ⟨middle, rest, read, failed, rfl⟩

/-- An operator before its operand fails where the operand does, or when its node is built. -/
theorem runHead_operator_fails {operand : Int → Parser N N}
    (steady : ∀ strength, Steady (operand strength)) {label : String}
    {build : Token → N → Except Error N} {strength : Int} :
    (runHead operand bound token (.operator label build strength)).Fails tokens failure rest ↔
      (operand strength).Fails tokens failure rest ∨
        ∃ right, (operand strength).Gives tokens right rest ∧
          build token right = .error failure :=
  fails_bind_still (steady strength) fun _ => still_built _

/-- An operator between its operands fails where the right one does, or when its node is built. -/
theorem runTail_binary_fails {operand : Int → Parser N N}
    (steady : ∀ strength, Steady (operand strength)) {label : String}
    {build : Token → N → N → Except Error N} {strength : Int} {associativity : Associativity} :
    (runTail operand bound token left (.binary label build strength associativity)).Fails
        tokens failure rest ↔
      (operand (rightStrength strength associativity)).Fails tokens failure rest ∨
        ∃ right, (operand (rightStrength strength associativity)).Gives tokens right rest ∧
          build token left right = .error failure :=
  fails_bind_still (steady _) fun _ => still_built _

end Parser

namespace Grammar

open Climb.Parser

variable {grammar : Grammar N} {interpreter : Option (Interpreter N)} {minimum : Int}

/-- An action whose node is interpreted and resumed from fails in one of these three parts. -/
def FailsWithin (interpreter : Option (Interpreter N)) (action : Parser N N)
    (next : N → Parser N N) (tokens : List Token) (failure : Error) (rest : List Token) : Prop :=
  action.Fails tokens failure rest ∨
    ∃ built middle, action.Gives tokens built middle ∧
      ((interpreted interpreter built = .error failure ∧ middle = rest) ∨
        ∃ start, interpreted interpreter built = .ok start ∧ (next start).Fails middle failure rest)

/-- What an action builds is interpreted and then read on from, and each of the three can fail. -/
theorem interpreted_fails {action : Parser N N} {next : N → Parser N N} (steady : Steady action)
    (after : ∀ node, (next node).Steady) :
    (do
      let built ← action
      let start ← interpret interpreter built
      next start : Parser N N).Fails tokens failure rest ↔
      FailsWithin interpreter action next tokens failure rest := by
  -- Interpreting takes no token, so what follows it starts where the action stopped.
  simp only [FailsWithin, (still_interpret interpreter _).gives_iff,
    (still_interpret interpreter _).fails_iff,
    fails_bind (still_interpret interpreter _).steady after,
    fails_bind steady fun built => (still_interpret interpreter built).steady.bind after]
  refine or_congr_right (exists_congr fun built => exists_congr fun middle =>
    and_congr_right fun _ => or_congr_right ?_)
  constructor
  · rintro ⟨start, _, ⟨same, rfl⟩, failed⟩
    exact ⟨start, same, failed⟩
  · rintro ⟨start, same, failed⟩
    exact ⟨start, middle, ⟨same, rfl⟩, failed⟩

/-- Consuming the first token and going on fails for want of a token, or behind it. -/
theorem consume_fails {α : Type} {next : Token → Parser N α}
    (steady : ∀ token, Steady (next token)) :
    (consume none >>= next).Fails tokens failure rest ↔
      (tokens = [] ∧ failure = .parse (.endOfInput none) ∧ rest = []) ∨
        ∃ token others, tokens = token :: others ∧ (next token).Fails others failure rest := by
  simp only [fails_bind (steady_consume none) steady, fails_consume_any, gives_consume_any]

/-- A rule starts an expression unless the token has none, and then the token is refused. -/
theorem startBy_fails {operand : Int → Parser N N} {next : N → Parser N N}
    (steady : ∀ strength, (operand strength).Steady) (after : ∀ node, (next node).Steady) :
    (grammar.startBy interpreter operand bound next token).Fails tokens failure rest ↔
      (grammar.head? token = none ∧ failure = .parse (.noHeadRule token) ∧ tokens = rest) ∨
        ∃ rule, grammar.head? token = some rule ∧
          FailsWithin interpreter (runHead operand bound token rule) next tokens failure rest := by
  unfold startBy
  -- By the one entry for the token: none is refused, a rule is followed.
  split
  · rename_i missing
    simp [missing, (still_throw _).fails_iff, eq_comm]
  · rename_i rule found
    simp [found, interpreted_fails (steady_runHead steady bound token rule) after]

/-- A rule continues an expression unless the token has none, and then the token is refused. -/
theorem continueBy_fails {operand : Int → Parser N N} {next : N → Parser N N}
    (steady : ∀ strength, (operand strength).Steady) (after : ∀ node, (next node).Steady) :
    (grammar.continueBy interpreter operand bound left next token).Fails tokens failure rest ↔
      (grammar.tail? token = none ∧ failure = .parse (.noTailRule token) ∧ tokens = rest) ∨
        ∃ rule, grammar.tail? token = some rule ∧
          FailsWithin interpreter (runTail operand bound token left rule) next
            tokens failure rest := by
  unfold continueBy
  -- As for a start, with the entries of the second table.
  split
  · rename_i missing
    simp [missing, (still_throw _).fails_iff, eq_comm]
  · rename_i rule found
    simp [found, interpreted_fails (steady_runTail steady bound token left rule) after]

/-- An expression fails for want of a token, at one that starts none, or within what it reads. -/
theorem expression_fails (large : tokens.length ≤ bound) :
    (grammar.expression interpreter minimum).Fails tokens failure rest ↔
      (tokens = [] ∧ failure = .parse (.endOfInput none) ∧ rest = []) ∨
        ∃ token others, tokens = token :: others ∧
          ((grammar.head? token = none ∧ failure = .parse (.noHeadRule token) ∧ others = rest) ∨
            ∃ rule, grammar.head? token = some rule ∧
              FailsWithin interpreter (runHead (grammar.expression interpreter) bound token rule)
                (grammar.resume interpreter minimum) others failure rest) := by
  rw [(agree_expression_start minimum large).fails_iff (Nat.le_refl _),
    consume_fails (steady_startBy steady_expression (steady_resume minimum) bound)]
  simp only [startBy_fails steady_expression (steady_resume minimum)]

/-- Resuming fails only where the next token binds tighter than the minimum, or none is left. -/
theorem resume_fails (large : tokens.length ≤ bound) :
    (grammar.resume interpreter minimum left).Fails tokens failure rest ↔
      minimum < grammar.strengthOf tokens.head? ∧
        ((tokens = [] ∧ failure = .parse (.endOfInput none) ∧ rest = []) ∨
          ∃ token others, tokens = token :: others ∧
            ((grammar.tail? token = none ∧ failure = .parse (.noTailRule token) ∧ others = rest) ∨
              ∃ rule, grammar.tail? token = some rule ∧
                FailsWithin interpreter
                  (runTail (grammar.expression interpreter) bound token left rule)
                  (grammar.resume interpreter minimum) others failure rest)) := by
  have steady : ∀ token, Steady (grammar.continueBy interpreter (grammar.expression interpreter)
      bound left (grammar.resume interpreter minimum) token) :=
    steady_continueBy steady_expression (steady_resume minimum) bound left
  rw [(agree_resume_round minimum left large).fails_iff (Nat.le_refl _),
    fails_bind (steady_peek 0) fun ahead => by
      split
      · exact (steady_consume none).bind steady
      · exact (still_pure left).steady]
  simp only [gives_peek, not_fails_peek, false_or]
  constructor
  · -- The look ahead has seen the head of this very list.
    rintro ⟨_, _, ⟨rfl, rfl⟩, failed⟩
    split at failed
    · rename_i strong
      rw [consume_fails steady] at failed
      simp only [continueBy_fails steady_expression (steady_resume minimum)] at failed
      exact ⟨strong, failed⟩
    · cases ((still_pure left).fails_iff.1 failed).1
  · rintro ⟨strong, failed⟩
    refine ⟨_, _, ⟨rfl, rfl⟩, ?_⟩
    rw [if_pos strong, consume_fails steady]
    simp only [continueBy_fails steady_expression (steady_resume minimum)]
    exact failed

/-- Tokens are refused as excess exactly if there is one, and the first of them is named. -/
theorem refuseExcess_fails :
    (refuseExcess : Parser N Unit).Fails tokens failure rest ↔
      ∃ token behind, tokens = token :: behind ∧ failure = .parse (.excessToken token) ∧
        rest = tokens := by
  rw [refuseExcess_eq, fails_bind (steady_peek 0) steady_refuse]
  simp only [not_fails_peek, gives_peek, false_or]
  -- The look ahead takes nothing, so the first token is the one that is refused.
  constructor
  · rintro ⟨_, _, ⟨rfl, rfl⟩, failed⟩
    cases tokens with
    | nil => cases ((still_pure ()).fails_iff.1 failed).1
    | cons token behind =>
      obtain ⟨same, stays⟩ := (still_throw _).fails_iff.1 failed
      cases same
      exact ⟨token, behind, rfl, rfl, stays.symm⟩
  · rintro ⟨token, behind, rfl, rfl, rfl⟩
    exact ⟨_, _, ⟨rfl, rfl⟩, (still_throw _).fails_iff.2 ⟨rfl, rfl⟩⟩

variable {depth : Nat} {source : Source} {exhaust : Bool}

/-- A whole input fails where its expression does, or at the token behind it if none may be left. -/
theorem inputWithin_fails (deep : tokens.length < depth) :
    (grammar.inputWithin interpreter depth exhaust).Fails tokens failure rest ↔
      (grammar.expression interpreter 0).Fails tokens failure rest ∨
        exhaust = true ∧ ∃ node token behind,
          (grammar.expression interpreter 0).Gives tokens node (token :: behind) ∧
            failure = .parse (.excessToken token) ∧ rest = token :: behind := by
  have agree : Agree tokens.length (grammar.expression interpreter 0)
      (grammar.expressionWithin interpreter depth 0) := agree_expression 0 deep
  simp only [agree.fails_iff (Nat.le_refl _), agree.gives_iff (Nat.le_refl _)]
  -- Tokens may be left if the source need not be used up, and then nothing follows the expression.
  cases exhaust with
  | false =>
    have unfolded : grammar.inputWithin interpreter depth false =
        grammar.expressionWithin interpreter depth 0 >>= pure := rfl
    rw [unfolded, fails_bind_still (steady_expressionWithin depth 0) fun _ => still_pure _]
    simp
  | true =>
    rw [inputWithin_whole, fails_bind (steady_expressionWithin depth 0) steady_refuseAfter]
    simp only [true_and]
    refine or_congr_right ⟨?_, ?_⟩
    · rintro ⟨node, middle, read, failed⟩
      rw [fails_bind_still steady_refuseExcess fun _ => still_pure node] at failed
      -- Once nothing is refused, nothing can fail any more.
      rcases failed with failed | ⟨done, -, failed⟩
      · obtain ⟨token, behind, rfl, excess, stays⟩ := refuseExcess_fails.1 failed
        exact ⟨node, token, behind, read, excess, stays⟩
      · cases failed
    · rintro ⟨node, token, behind, read, excess, stays⟩
      refine ⟨node, token :: behind, read, ?_⟩
      rw [fails_bind_still steady_refuseExcess fun _ => still_pure node]
      exact .inl (refuseExcess_fails.2 ⟨token, behind, rfl, excess, stays⟩)

/-- A run fails exactly where its expression does, or at a token behind it if none may be left. -/
theorem run_error_iff (ends : source.feed.Ends) (shown : source.feed.cursor = ⟨tokens, none⟩) :
    (grammar.run interpreter source exhaust).1 = .error failure ↔
      (∃ rest, (grammar.expression interpreter 0).Fails tokens failure rest) ∨
        exhaust = true ∧ ∃ node token rest,
          (grammar.expression interpreter 0).Gives tokens node (token :: rest) ∧
            failure = .parse (.excessToken token) := by
  have length := source.feed.cursor_length
  have known : _ = (grammar.inputWithin interpreter (source.feed.size + 1) exhaust).on _ :=
    run_on ends exhaust
  rw [shown] at length known
  have deep : tokens.length < source.feed.size + 1 := Nat.lt_succ_of_le length
  -- The run has the outcome of the whole input over the tokens that the source delivers.
  have outcome : (grammar.run interpreter source exhaust).1 = .error failure ↔
      ∃ rest, (grammar.inputWithin interpreter (source.feed.size + 1) exhaust).Fails
        tokens failure rest := by
    have steady : Steady (grammar.inputWithin interpreter (source.feed.size + 1) exhaust) :=
      steady_inputWithin (source.feed.size + 1) exhaust
    -- A steady action ends on every list, with a node or with a failure.
    constructor
    · intro failed
      rcases steady.gives_or_fails tokens with ⟨node, rest, read⟩ | ⟨other, rest, fails⟩
      · have answer := congrArg Prod.fst (known.trans read)
        cases failed.symm.trans answer
      · have answer := congrArg Prod.fst (known.trans fails)
        cases failed.symm.trans answer
        exact ⟨rest, fails⟩
    · rintro ⟨rest, fails⟩
      exact congrArg Prod.fst (known.trans fails)
  rw [outcome]
  simp only [inputWithin_fails deep]
  constructor
  · rintro ⟨rest, failed | ⟨whole, node, token, behind, read, excess, -⟩⟩
    · exact .inl ⟨rest, failed⟩
    · exact .inr ⟨whole, node, token, behind, read, excess⟩
  · rintro (⟨rest, failed⟩ | ⟨whole, node, token, behind, read, excess⟩)
    · exact ⟨rest, .inl failed⟩
    · exact ⟨token :: behind, .inr ⟨whole, node, token, behind, read, excess, rfl⟩⟩

/-- A run that is to use its source up fails where its expression does, or at a token behind it. -/
theorem run_error (ends : source.feed.Ends) (shown : source.feed.cursor = ⟨tokens, none⟩)
    (failed : (grammar.run interpreter source true).1 = .error failure) :
    (∃ rest, (grammar.expression interpreter 0).Fails tokens failure rest) ∨
      ∃ node token rest, (grammar.expression interpreter 0).Gives tokens node (token :: rest) ∧
        failure = .parse (.excessToken token) := by
  simpa using (run_error_iff ends shown).1 failed

end Grammar

end Climb
