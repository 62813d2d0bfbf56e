import Climb.Proofs.Expr.Failures
import Climb.Proofs.Grammar.Termination

/-! Every call and every round of a loop takes a token, so calls nest no deeper than there are. -/

namespace Climb

variable {N : Type}

namespace Parser

variable {α σ : Type} {operand : Int → Parser N N}

/-- Whatever an action reads, it leaves fewer tokens than there were. -/
def Progresses (action : Parser N α) : Prop :=
  ∀ {tokens value rest}, action.Gives tokens value rest → rest.length < tokens.length

/--
What becomes of a round of a loop over a list does not depend on what further rounds would do, or it
is what these do, from some state on, with a shorter list.
-/
def Shortens (tokens : List Token) (outcome : (σ → Parser N α) → Except Error α × Cursor) : Prop :=
  (∃ answer, ∀ further : σ → Parser N α, (∀ next, Steady (further next)) →
    outcome further = answer) ∨
  ∃ next rest, rest.length < tokens.length ∧ ∀ further : σ → Parser N α,
    (∀ next, Steady (further next)) → outcome further = (further next).on ⟨rest, none⟩

/-- A loop that goes round only where that leaves fewer tokens, with what it does in one round. -/
structure Shrinks (loop : Nat → σ → Parser N α) (round : (σ → Parser N α) → σ → Parser N α) :
    Prop where
  rounds : ∀ bound, loop (bound + 1) = round (loop bound)
  shortens : ∀ state tokens, Shortens tokens fun further => (round further state).on ⟨tokens, none⟩

/-- One round of reading further items: one item after a separator, and then what further rounds
read. -/
def itemRound (operand : Int → Parser N N) (separator : TokenType)
    (further : List N → Parser N (List N)) (nodes : List N) : Parser N (List N) := do
  if ← accept separator then further (nodes ++ [← operand 0]) else return nodes

/-- A list without a failure at its end is read to a value, or the action fails. -/
theorem Steady.on_cases {action : Parser N α} (steady : Steady action) (tokens : List Token) :
    (∃ value rest, action.on ⟨tokens, none⟩ = (.ok value, ⟨rest, none⟩) ∧
        rest.length ≤ tokens.length) ∨
      ∃ failure after, action.on ⟨tokens, none⟩ = (.error failure, after) := by
  -- A steady action brings no failure to the end of the list.
  have calm := steady.calm tokens
  have length := steady.length ⟨tokens, none⟩
  rcases run : action.on ⟨tokens, none⟩ with ⟨outcome, rest, failure⟩
  simp only [run] at calm length
  subst calm
  cases outcome with
  | ok value => exact .inl ⟨value, rest, rfl, length⟩
  | error failure => exact .inr ⟨failure, _, rfl⟩

/-- A round that does not come to further rounds shortens. -/
theorem shortens_last {tokens : List Token}
    {outcome : (σ → Parser N α) → Except Error α × Cursor} (answer : Except Error α × Cursor)
    (last : ∀ further, (∀ next, Steady (further next)) → outcome further = answer) :
    Shortens tokens outcome :=
  .inl ⟨answer, last⟩

/-- A round that reads on after its first token, and then comes to further rounds, shortens. -/
theorem Steady.shortens {β : Type} {action : Parser N β} (steady : Steady action) {token : Token}
    {others : List Token} {outcome : (σ → Parser N α) → Except Error α × Cursor} (next : β → σ)
    (goesOn : ∀ further, (∀ next, Steady (further next)) →
      outcome further = proceed (fun value => further (next value)) (action.on ⟨others, none⟩)) :
    Shortens (token :: others) outcome := by
  rcases steady.on_cases others with ⟨value, rest, read, short⟩ | ⟨failure, stop, failed⟩
  · refine .inr ⟨next value, rest, Nat.lt_succ_of_le short, fun further after => ?_⟩
    rw [goesOn further after, read, proceed]
  · -- What fails to be read ends the loop.
    refine shortens_last (.error failure, stop) fun further after => ?_
    rw [goesOn further after, failed, proceed]

/-- A round over a list starts with the look for a separator. -/
theorem on_itemRound (steady : ∀ strength, Steady (operand strength)) {separator : TokenType}
    {further : List N → Parser N (List N)} (after : ∀ next, Steady (further next))
    (nodes : List N) (tokens : List Token) :
    (itemRound operand separator further nodes).on ⟨tokens, none⟩ =
      proceed (fun accepted =>
          if accepted = true then operand 0 >>= fun node => further (nodes ++ [node])
          else pure nodes)
        (Cursor.accept ⟨tokens, none⟩ separator) := by
  rw [itemRound, on_bind _ _ (steady_accept separator), on_accept]
  · -- Both branches are steady, so they may be run one after the other.
    intro accepted
    cases accepted with
    | true => exact (steady 0).bind fun node => after _
    | false => exact (still_pure nodes).steady

/-- Every further item takes a separator at least. -/
theorem shrinks_moreItems (steady : ∀ strength, Steady (operand strength))
    (separator : TokenType) :
    Shrinks (moreItems operand separator) (itemRound operand separator) where
  rounds _ := rfl
  shortens nodes tokens := by
    cases tokens with
    | nil =>
      -- At the end of the list the items are complete.
      refine shortens_last (.ok nodes, ⟨[], none⟩) fun further after => ?_
      rw [on_itemRound steady after, Cursor.accept, proceed]
      exact (still_pure nodes).on _
    | cons token others =>
      by_cases typed : token.type = separator
      · -- The separator is gone, and then an item is read.
        refine (steady 0).shortens (fun node => nodes ++ [node]) fun further after => ?_
        rw [on_itemRound steady after, Cursor.accept, if_pos typed, proceed]
        exact on_bind (fun node => after _) _ (steady 0)
      · -- Any other token ends the items and is left where it is.
        refine shortens_last (.ok nodes, ⟨token :: others, none⟩) fun further after => ?_
        rw [on_itemRound steady after, Cursor.accept, if_neg typed, proceed]
        exact (still_pure nodes).on _

end Parser

namespace Grammar

open Climb.Parser

variable {grammar : Grammar N} {interpreter : Option (Interpreter N)}
  {operand : Int → Parser N N}

/-- One round of climbing: an operator with what it takes, and then what further rounds read. -/
def climbRound (grammar : Grammar N) (interpreter : Option (Interpreter N))
    (operand : Int → Parser N N) (depth : Nat) (minimum : Int) (further : N → Parser N N)
    (left : N) : Parser N N := do
  let ahead ← Parser.peek 0
  if minimum < grammar.strengthOf ahead then
    let token ← Parser.consume none
    grammar.continueBy interpreter operand depth left further token
  else return left

/-- A round over a list starts with a look at its first token. -/
theorem on_climbRound (steady : ∀ strength, Steady (operand strength)) {depth : Nat} {minimum : Int}
    {further : N → Parser N N} (after : ∀ next, Steady (further next)) (left : N)
    (tokens : List Token) :
    (grammar.climbRound interpreter operand depth minimum further left).on ⟨tokens, none⟩ =
      if minimum < grammar.strengthOf tokens.head? then
        proceed (grammar.continueBy interpreter operand depth left further)
          (Cursor.consume ⟨tokens, none⟩ none)
      else (.ok left, ⟨tokens, none⟩) := by
  have look : (peek 0 : Parser N (Option Token)).on ⟨tokens, none⟩ =
      (.ok tokens.head?, ⟨tokens, none⟩) := gives_peek.2 ⟨rfl, rfl⟩
  have continues := @steady_continueBy N grammar interpreter operand _ steady after depth left
  -- The look leaves the list as it is.
  rw [climbRound, on_bind _ _ (steady_peek 0), look, proceed]
  · split
    · rw [on_bind continues _ (steady_consume none), on_consume]
    · exact (still_pure left).on _
  · intro ahead
    split
    · exact (steady_consume none).bind continues
    · exact (still_pure left).steady

/-- Every round of climbing takes an operator at least. -/
theorem shrinks_climb (steady : ∀ strength, Steady (operand strength)) (depth : Nat)
    (minimum : Int) : Shrinks (grammar.climb interpreter operand depth minimum)
      (grammar.climbRound interpreter operand depth minimum) where
  rounds _ := rfl
  shortens left tokens := by
    by_cases binds : minimum < grammar.strengthOf tokens.head?
    · cases tokens with
      | nil =>
        -- Past the end the strength is zero, so only a minimum below zero comes here.
        refine shortens_last (.error (.parse (.endOfInput none)), ⟨[], none⟩)
          fun further after => ?_
        rw [on_climbRound steady after, if_pos binds, Cursor.consume, Cursor.take, proceed]
      | cons token others =>
        cases found : grammar.tail? token with
        | none =>
          -- The strength is told by one table and the rule by another, so a rule may be missing.
          refine shortens_last (.error (.parse (.noTailRule token)), ⟨others, none⟩)
            fun further after => ?_
          rw [on_climbRound steady after, if_pos binds, Cursor.consume, Cursor.take, proceed,
            continueBy, found]
          exact (still_throw _).on _
        | some rule =>
          -- The rule may read more of the list, and then its node is interpreted.
          have reads : Steady (runTail operand depth token left rule >>= interpret interpreter) :=
            (steady_runTail steady depth token left rule).bind fun node =>
              (still_interpret interpreter node).steady
          refine reads.shortens id fun further after => ?_
          rw [on_climbRound steady after, if_pos binds, Cursor.consume, Cursor.take, proceed]
          simp only [continueBy, found, ← bind_assoc]
          exact on_bind after _ reads
    · -- What does not bind tightly enough ends the loop, and no token is taken.
      refine shortens_last (.ok left, ⟨tokens, none⟩) fun further after => ?_
      rw [on_climbRound steady after, if_neg binds]

/-- An expression takes its first token at least. -/
theorem progresses_expression (minimum : Int) :
    Progresses (grammar.expression interpreter minimum) := by
  intro tokens node rest given
  cases tokens with
  | nil => exact absurd given expression_gives_nil
  | cons token others =>
    -- Neither the rule nor what follows it gives a token back.
    obtain ⟨rule, built, start, middle, -, read, -, resumed⟩ :=
      (expression_gives_cons (Nat.lt_succ_self _)).1 given
    have first := read.length (steady_runHead steady_expression _ token rule)
    have second := resumed.length (steady_resume minimum start)
    simp only [List.length_cons]
    omega

/--
Reads one expression whose operators all bind tighter than the minimum, where calls nested more than
`depth` deep do something else. Loops go round at most `bound` times.
-/
def expressionOver (grammar : Grammar N) (interpreter : Option (Interpreter N))
    (beyond : Int → Parser N N) (bound : Nat) : Nat → Int → Parser N N
  | 0 => beyond
  | depth + 1 => fun minimum => do
    let token ← Parser.consume none
    let operand := grammar.expressionOver interpreter beyond bound depth
    grammar.startBy interpreter operand bound
      (grammar.climb interpreter operand bound minimum bound) token

/--
Reading an expression from a list makes no calls nested more than `depth` deep: whatever these do,
and however many more rounds loops may go than there are tokens, the outcome and what is left of the
list are the same.
-/
def NestsWithin (grammar : Grammar N) (interpreter : Option (Interpreter N)) (minimum : Int)
    (tokens : List Token) (depth : Nat) : Prop :=
  ∀ beyond bound, (∀ strength, Steady (beyond strength)) → tokens.length < bound →
    (grammar.expressionOver interpreter beyond bound depth minimum).on ⟨tokens, none⟩ =
      (grammar.expression interpreter minimum).on ⟨tokens, none⟩

/-- Reading over calls that see only the list sees only the list. -/
theorem steady_expressionOver {beyond : Int → Parser N N}
    (steady : ∀ strength, Steady (beyond strength)) (bound depth : Nat) :
    ∀ minimum, Steady (grammar.expressionOver interpreter beyond bound depth minimum) := by
  induction depth with
  | zero => exact steady
  | succ depth ih =>
    exact fun minimum => (steady_consume none).bind fun token =>
      steady_startBy ih (steady_climb ih bound minimum bound) bound token

/-- Calls nested deeper than there are tokens make no difference. -/
theorem agree_expressionOver {beyond : Int → Parser N N}
    (steady : ∀ strength, Steady (beyond strength)) {bound : Nat} :
    ∀ {depth size : Nat} (minimum : Int), size < depth → size < bound →
      Agree size (grammar.expressionOver interpreter beyond bound depth minimum)
        (grammar.expression interpreter minimum) := by
  intro depth
  -- A call one level down comes after a token is consumed, so the list is shorter there.
  induction depth with
  | zero => intro size minimum deep; omega
  | succ depth ih =>
    intro size minimum deep large
    have operandSteady := @steady_expressionOver N grammar interpreter beyond steady bound depth
    refine .trans ?_ (agree_expression_start minimum (Nat.le_of_lt large)).symm
    refine agree_consume
      (steady_startBy operandSteady (steady_climb operandSteady bound minimum bound) bound)
      (steady_startBy steady_expression (steady_resume minimum) bound) fun token smaller less => ?_
    have inside : smaller < bound := by omega
    have operands : ∀ strength, Agree smaller
        (grammar.expressionOver interpreter beyond bound depth strength)
        (grammar.expression interpreter strength) :=
      fun strength => ih strength (by omega) inside
    exact agree_startBy operands (fun node =>
      (agree_climb minimum node operands inside inside inside inside).trans
        (agree_resume minimum node inside).symm) inside inside token

/--
Reading an expression takes a token at least, as does every round of its loop and every round of
reading further items. So it ends: it does not run out of its depth, unless a rule or the
interpreter says so. Its calls nest at most one deeper than there are tokens, so that every greater
bound on the depth leads to the same outcome.
-/
theorem reading_progresses_and_nests_within_its_tokens (grammar : Grammar N)
    (interpreter : Option (Interpreter N)) (minimum : Int) :
    Progresses (grammar.expression interpreter minimum) ∧
    (∀ depth, Shrinks (grammar.climb interpreter (grammar.expression interpreter) depth minimum)
      (grammar.climbRound interpreter (grammar.expression interpreter) depth minimum)) ∧
    (∀ separator, Shrinks (moreItems (grammar.expression interpreter) separator)
      (itemRound (grammar.expression interpreter) separator)) ∧
    ∀ tokens : List Token,
      (grammar.LeavesDepth interpreter →
        ((grammar.expression interpreter minimum).on ⟨tokens, none⟩).1 ≠
          .error (.parse .tooDeep)) ∧
      ∀ depth, tokens.length < depth →
        grammar.NestsWithin interpreter minimum tokens depth ∧
        (grammar.expressionWithin interpreter depth minimum).on ⟨tokens, none⟩ =
          (grammar.expression interpreter minimum).on ⟨tokens, none⟩ := by
  refine ⟨progresses_expression minimum, fun depth => shrinks_climb steady_expression depth minimum,
    shrinks_moreItems steady_expression, fun tokens => ⟨fun leaves => ?_, fun depth deep => ?_⟩⟩
  · exact (leaves.ends_expression minimum tokens.length).ends (Nat.le_refl _) (by simp)
  · refine ⟨fun beyond bound steady large => ?_, ?_⟩
    · exact (agree_expressionOver steady minimum deep large).same _ (Nat.le_refl _)
    · exact ((agree_expression minimum deep).same _ (Nat.le_refl _)).symm

/-- A sign alone nests two deep, as its operand is asked for, and no less. Reading it ends. -/
theorem lone_sign_nests_two_deep :
    let tokens : List Token := [.ofKind .minus "-"]
    Expr.grammar.LeavesDepth none ∧
      ((Expr.grammar.expression none 0).on ⟨tokens, none⟩).1 ≠ .error (.parse .tooDeep) ∧
      Expr.grammar.NestsWithin none 0 tokens 2 ∧ ¬Expr.grammar.NestsWithin none 0 tokens 1 := by
  intro tokens
  obtain ⟨ends, nests⟩ :=
    (reading_progresses_and_nests_within_its_tokens Expr.grammar none 0).2.2.2 tokens
  have leaves : Expr.grammar.LeavesDepth none := Expr.leavesDepth fun failed => by cases failed
  refine ⟨leaves, ends leaves, (nests 2 (by decide)).1, fun shallow => ?_⟩
  -- Were one level enough, it would not matter that the operand of the sign gives up.
  have same := congrArg Prod.fst
    (shallow (fun _ => throw (.parse .tooDeep)) 2 (fun _ => (still_throw _).steady) (by decide))
  have gaveUp : ((Expr.grammar.expressionOver none (fun _ => throw (.parse .tooDeep)) 2 1 0).on
      ⟨tokens, none⟩).1 = .error (.parse .tooDeep) := rfl
  exact ends leaves (same.symm.trans gaveUp)

end Grammar

end Climb
