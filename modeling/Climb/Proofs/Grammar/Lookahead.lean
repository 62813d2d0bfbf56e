import Climb.Proofs.Expr.Failures
import Climb.Proofs.Grammar.Composition
import Climb.Proofs.Grammar.Depth
import Climb.Proofs.Grammar.PostOrder
import Climb.Proofs.Grammar.Reading

/-! Reading looks at one token after the last one that it takes, and at no more. -/

namespace Climb

variable {N : Type}

namespace Grammar

open Climb.Parser

/-- A grammar of leaves and operators looks no further than at the next token. -/
theorem IsOperators.isNear {grammar : Grammar N} (operators : grammar.IsOperators) :
    grammar.IsNear where
  heads {token rule} found := by
    have operator := operators.head found
    cases rule with
    | form label pattern build => exact operator.elim
    | _ => trivial
  tails {token rule} found := by
    have operator := operators.tail found
    cases rule with
    | form label pattern build strength => exact operator.elim
    | _ => trivial

/--
Reading an input from a supply comes to an answer, which is that at some depth and does not say
that the depth is not enough. A supply that never ends has no depth of its own.
-/
def Returns (grammar : Grammar N) (interpreter : Option (Interpreter N)) (feed : Feed)
    (exhaust : Bool) (answer : Except Error N × ParseState N) : Prop :=
  ∃ depth, grammar.runWithin interpreter depth { feed := feed } exhaust = answer ∧
    answer.1 ≠ .error (.parse .tooDeep)

variable {grammar : Grammar N} {interpreter : Option (Interpreter N)} {feed : Feed}
  {exhaust : Bool} {answer : Except Error N × ParseState N} {start : Feed} {node : N}

/-- The outcome of reading an input depends on no more than what its supply will deliver. -/
theorem runWithin_outcome {other : Feed} (ends : feed.Ends) (otherEnds : other.Ends)
    (same : feed.cursor = other.cursor) {depth nesting : Nat}
    (deep : feed.cursor.tokens.length < depth) (deeper : feed.cursor.tokens.length < nesting) :
    (grammar.runWithin interpreter depth { feed := feed } exhaust).1 =
      (grammar.runWithin interpreter nesting { feed := other } exhaust).1 := by
  -- Either outcome is that over the list of what will be delivered.
  have listed : ∀ {feed : Feed}, feed.Ends → ∀ depth,
      (grammar.runWithin interpreter depth { feed := feed } exhaust).1 =
        ((grammar.inputWithin interpreter depth exhaust).on feed.cursor).1 := fun ends depth =>
    ((steady_inputWithin depth exhaust).determined (Buffer.shows_ofSource ⟨_, 0, 0⟩ ends)).1
  have agree : Agree feed.cursor.tokens.length (grammar.inputWithin interpreter depth exhaust)
      (grammar.inputWithin interpreter nesting exhaust) :=
    related_inputWithin (congruence_agree _) grammar nesting
      (agree_expressionWithin 0 deep deeper) exhaust
  rw [listed ends, listed otherEnds, agree.same _ (Nat.le_refl _), same]

section

variable (near : grammar.IsNear)

include near

/-- Climbing ends with a look at the token that ends the expression. -/
theorem IsNear.climb_looked {operand : Int → Parser N N} {depth : Nat} {minimum : Int}
    (operands : ∀ strength, Composed (fun _ => True) (fun _ => True) (operand strength))
    (bound : Nat) :
    ∀ {left : N} {state after : ParseState N}, state.buffer.OneAhead start →
      grammar.climb interpreter operand depth minimum bound left state = (.ok node, after) →
        after.buffer.OneAhead start ∧ after.buffer.asked = after.buffer.consumed + 1 := by
  -- Every round begins with a look, and the round that ends the loop does nothing else.
  induction bound with
  | zero => exact fun _ done => (by cases done)
  | succ bound ih =>
    intro left state after place done
    rw [climb_succ] at done
    obtain ⟨ahead, between, looked, goesOn⟩ := bind_eq_ok done
    rw [peek_apply] at looked
    obtain ⟨seen, rfl⟩ := Prod.ext_iff.1 looked
    obtain ⟨seenPlace, -, last⟩ := place.peek seen
    split at goesOn
    · -- A round goes on behind the operator, and what comes last is the look of a later round.
      obtain ⟨token, taken, consumed, goesOn⟩ := bind_eq_ok goesOn
      rw [consume_apply] at consumed
      obtain ⟨answered, rfl⟩ := Prod.ext_iff.1 consumed
      have takenPlace := seenPlace.take (received_ok answered)
      cases found : grammar.tail? token with
      | none =>
        simp only [continueBy, found] at goesOn
        cases goesOn
      | some rule =>
        simp only [continueBy, found] at goesOn
        have keeps := near.keepsTo interpreter
        have congruence := @congruence_composed N (fun _ => True) (fun _ => True) fun _ => trivial
        obtain ⟨built, afterBuilt, run, goesOn⟩ := bind_eq_ok goesOn
        obtain ⟨next, afterNext, interpreted, goesOn⟩ := bind_eq_ok goesOn
        have reads := composed_reads (fun _ => trivial) operands depth
        have builtPlace :=
          (congruence.runTail reads left (keeps.tails trivial found)).oneAhead takenPlace run
        have nextPlace := (related_interpret congruence keeps built).oneAhead builtPlace interpreted
        exact ih nextPlace goesOn
    · cases goesOn
      exact ⟨seenPlace, last⟩

/-- Reading an expression ends with a look at the token that ends it. -/
theorem IsNear.expression_looked {depth : Nat} {minimum : Int} {state after : ParseState N}
    (place : state.buffer.OneAhead start)
    (done : grammar.expressionWithin interpreter depth minimum state = (.ok node, after)) :
    after.buffer.OneAhead start ∧ after.buffer.asked = after.buffer.consumed + 1 := by
  have keeps := near.keepsTo interpreter
  have congruence := @congruence_composed N (fun _ => True) (fun _ => True) fun _ => trivial
  cases depth with
  | zero => cases done
  | succ depth =>
    -- A first token is taken and its rule is run; the look is that of the loop behind.
    have operands := keeps.composed_expressionWithin (fun _ => trivial) depth
    rw [expressionWithin_succ] at done
    obtain ⟨token, taken, consumed, goesOn⟩ := bind_eq_ok done
    rw [consume_apply] at consumed
    obtain ⟨answered, rfl⟩ := Prod.ext_iff.1 consumed
    have takenPlace := place.take (received_ok answered)
    cases found : grammar.head? token with
    | none =>
      simp only [startBy, found] at goesOn
      cases goesOn
    | some rule =>
      simp only [startBy, found] at goesOn
      obtain ⟨built, afterBuilt, run, goesOn⟩ := bind_eq_ok goesOn
      obtain ⟨next, afterNext, interpreted, goesOn⟩ := bind_eq_ok goesOn
      have reads := composed_reads (fun _ => trivial) operands depth
      have builtPlace :=
        (congruence.runHead reads (keeps.heads trivial found)).oneAhead takenPlace run
      have nextPlace := (related_interpret congruence keeps built).oneAhead builtPlace interpreted
      exact near.climb_looked operands depth nextPlace goesOn

end

/-- Where the next token has been seen, looking at it again leaves everything as it is. -/
theorem peek_seen {state : ParseState N} (place : state.buffer.OneAhead start)
    (seen : state.buffer.asked = state.buffer.consumed + 1) :
    ∃ ahead, (Parser.peek 0 : Parser N (Option Token)) state = (.ok ahead, state) ∧
      start.ask state.buffer.consumed = .ok ahead := by
  cases waiting : state.buffer.queue with
  | nil =>
    -- Nothing waits, so it was the end that has been seen.
    have ended : state.buffer.source.ends = 1 := by
      simp only [Buffer.asked, Buffer.consumed, waiting, List.length_nil] at seen
      omega
    have pulled := Buffer.pull_over (place.exhausted.2 ended)
    refine ⟨none, ?_, place.spent ended⟩
    rw [peek_apply, Buffer.peek_pulled waiting, pulled]
    simp only [Except.toOption, Option.join_some, Option.toList_none, ← waiting]
  | cons token rest =>
    refine ⟨some token, ?_, place.waits token (by simp [waiting])⟩
    rw [peek_apply, Buffer.peek_queued_first waiting]

/-- Two supplies that answer alike for a while are read in step from the start. -/
theorem inStep_ofSource {other : Feed} {horizon : Nat}
    (alike : ∀ place < horizon, feed.ask place = other.ask place) :
    Buffer.InStep horizon none (.ofSource { feed := feed }) (.ofSource { feed := other }) where
  queue := rfl
  exhausted := rfl
  pulled := rfl
  within := Nat.zero_le _
  same further before := alike further (by simpa [Buffer.asked, Buffer.ofSource] using before)
  parting _ known := by cases known

/--
An expression that is read from a supply with `k` tokens depends on no more than the first `k + 1`
answers of the supply. The `k` tokens and the one after them, if there is one, are all that is taken
from it, and that token alone decides what becomes of an input that is to be used up.
-/
theorem reading_looks_one_token_ahead (near : grammar.IsNear) {state : ParseState N}
    (returned : grammar.Returns interpreter feed false (.ok node, state)) :
    (∀ place < state.buffer.consumed, ∃ token, feed.ask place = .ok (some token)) ∧
    state.buffer.source.pulled ≤ state.buffer.consumed + 1 ∧
    (∀ token, feed.ask state.buffer.consumed = .ok (some token) →
      state.buffer.source.pulled = state.buffer.consumed + 1) ∧
    (∀ other : Feed, (∀ place < state.buffer.consumed + 1, feed.ask place = other.ask place) →
      ∃ left : ParseState N, grammar.Returns interpreter other false (.ok node, left) ∧
        left.buffer.consumed = state.buffer.consumed) ∧
    ((feed.ask state.buffer.consumed = .ok none ∧
        grammar.Returns interpreter feed true (.ok node, state)) ∨
      ∃ token, feed.ask state.buffer.consumed = .ok (some token) ∧
        grammar.Returns interpreter feed true (.error (.parse (.excessToken token)), state)) := by
  obtain ⟨depth, done, enough⟩ := returned
  -- Reading that is not to use up its input is reading an expression and no more.
  have read : grammar.expressionWithin interpreter depth 0 ⟨.ofSource { feed := feed }, []⟩ =
      (.ok node, state) := by
    obtain ⟨_, _, read, returned⟩ := bind_eq_ok done
    cases returned
    exact read
  obtain ⟨behind, last⟩ := near.expression_looked (Buffer.oneAhead_ofSource feed) read
  obtain ⟨ahead, looked, answer⟩ := peek_seen behind last
  have narrow := behind.narrow
  simp only [Buffer.asked, Buffer.consumed] at last
  refine ⟨fun place before => ?_, ?_, fun token more => ?_, fun other alike => ?_, ?_⟩
  · exact behind.delivers place (Nat.lt_of_lt_of_le before (Nat.sub_le _ _))
  · simp only [Buffer.consumed]
    omega
  · -- Had the end been seen, there would be no such token.
    have unended : ¬state.buffer.source.ends = 1 := fun ended => by
      rw [behind.spent ended] at more
      cases more
    simp only [Buffer.consumed]
    omega
  · have alongside : Alongside _ none (grammar.inputWithin interpreter depth false)
        ⟨.ofSource { feed := feed }, []⟩ ⟨.ofSource { feed := other }, []⟩ :=
      ((near.keepsTo interpreter).composed_inputWithin (fun _ => trivial) depth false).parallel
        (inStep_ofSource alike)
    have run : grammar.inputWithin interpreter depth false ⟨.ofSource { feed := feed }, []⟩ =
        (.ok node, state) := done
    simp only [Alongside, run] at alongside
    cases alongside with
    | along outcome left =>
      exact ⟨_, ⟨depth, Prod.ext outcome.symm rfl, by simp⟩, left.consumed.symm⟩
    | beyond far fails =>
      -- What has been asked is just what the supplies have in common.
      simp only [Buffer.asked, Buffer.consumed] at far
      omega
    | broken unknown failed => cases failed
  · -- The look for an excess finds what has been seen already.
    have whole : grammar.runWithin interpreter depth { feed := feed } true =
        (refuse ahead >>= fun _ => pure node) state := by
      simp only [runWithin, inputWithin_whole, refuseExcess_eq, bind_apply, read, looked]
    cases ahead with
    | none => exact .inl ⟨answer, depth, whole, by simp⟩
    | some token => exact .inr ⟨token, answer, depth, whole, by simp⟩

/-- A sum is read from a supply that never ends, and the comma after it is seen and not used. -/
theorem sum_is_read_from_endless_commas :
    let name := Token.ofKind .name "a"
    let comma := Token.ofKind .comma ","
    let feed := Feed.endless fun place => [name, Token.ofKind .plus "+", name].getD place comma
    let state := (Expr.grammar.runWithin none 4 { feed := feed } false).2
    let sum := Expr.bin (.name (some "a")) (some "+") (.name (some "a"))
    Expr.grammar.IsNear ∧ Expr.grammar.Returns none feed false (.ok sum, state) ∧
      state.buffer.consumed = 3 ∧ state.buffer.source.pulled = 4 ∧
      Expr.grammar.Returns none feed true (.error (.parse (.excessToken comma)), state) := by
  intro name comma feed state sum
  have read : (Expr.grammar.runWithin none 4 { feed := feed } false).1 = .ok sum := by cbv
  have returned : Expr.grammar.Returns none feed false (.ok sum, state) :=
    ⟨4, Prod.ext read rfl, by simp⟩
  have consumed : state.buffer.consumed = 3 := by cbv
  have next : feed.ask 3 = .ok (some comma) := by cbv
  obtain ⟨-, -, taken, -, whole⟩ := reading_looks_one_token_ahead Expr.grammar_isNear returned
  rw [consumed] at taken whole
  refine ⟨Expr.grammar_isNear, returned, consumed, taken comma next, ?_⟩
  rcases whole with ⟨ended, -⟩ | ⟨token, more, refused⟩
  · rw [next] at ended
    cases ended
  · rw [next] at more
    cases more
    exact refused

end Grammar

end Climb
