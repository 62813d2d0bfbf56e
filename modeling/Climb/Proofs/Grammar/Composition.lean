import Climb.Proofs.Grammar.Interpretation
import Climb.Proofs.Token.Asking

/-! What all looks at the next token and all takings of it preserve, a whole reading preserves. -/

namespace Climb

variable {N : Type} {α β : Type}

/-- A step that looks no further than at the next token. -/
def Step.IsNear : Step → Prop
  | .peek distance => distance = 0
  | _ => True

/-- A rule that looks no further than at the next token. -/
def HeadRule.IsNear : HeadRule N → Prop
  | form _ pattern _ => ∀ step ∈ pattern, step.IsNear
  | _ => True

/-- A rule that looks no further than at the next token. -/
def TailRule.IsNear : TailRule N → Prop
  | form _ pattern _ _ => ∀ step ∈ pattern, step.IsNear
  | _ => True

/-- A step that looks at the next token at most looks nowhere else. -/
theorem Step.IsNear.looks {step : Step} (near : step.IsNear) : step.Looks (· = 0) := by
  cases step with
  | peek distance => exact near
  | _ => trivial

namespace Grammar

/-- A grammar whose rules look no further than at the next token. -/
structure IsNear (grammar : Grammar N) : Prop where
  heads : ∀ {token rule}, grammar.head? token = some rule → rule.IsNear
  tails : ∀ {token rule}, grammar.tail? token = some rule → rule.IsNear

/-- A grammar that looks at the next token at most may fail in all ways. -/
theorem IsNear.keepsTo {grammar : Grammar N} (near : grammar.IsNear)
    (interpreter : Option (Interpreter N)) :
    grammar.KeepsTo interpreter (· = 0) (fun _ => True) fun _ => True where
  heads {token rule} _ found := by
    have steps := near.heads found
    -- Only a form has steps that could look anywhere, and nothing is asked of the failures.
    cases rule with
    | form label pattern build => exact ⟨fun step member => (steps step member).looks, by simp⟩
    | _ => simp [HeadRule.KeepsTo]
  tails {token rule} _ found := by
    have steps := near.tails found
    cases rule with
    | form label pattern build strength =>
      exact ⟨fun step member => (steps step member).looks, by simp⟩
    | _ => simp [TailRule.KeepsTo]
  interprets _ := trivial

end Grammar

namespace Parser

/--
An action composed of looks at the next token and of taking it. On some tokens it fails in some ways
only, apart from what becomes of looking and taking.
-/
inductive Composed (tokens : Token → Prop) (failures : Error → Prop) :
    {α : Type} → Parser N α → Prop
  /-- An action that has nothing to do with the tokens that are left. -/
  | still {α : Type} {action : Parser N α} {outcome : Except Error α}
    (still : Still action outcome)
    (allowed : ∀ failure, outcome = .error failure → failures failure) : Composed _ _ action
  | look : Composed _ _ (peek 0)
  /-- What follows need only be composed for a token of which something is known. -/
  | take {β : Type} {expected : Option TokenType} {next : Token → Parser N β}
    (rest : ∀ token, tokens token → Composed tokens failures (next token)) :
    Composed _ _ (consume expected >>= next)
  | bind {α β : Type} {first : Parser N α} {next : α → Parser N β}
    (start : Composed tokens failures first)
    (rest : ∀ value, Composed tokens failures (next value)) : Composed _ _ (first >>= next)

variable {tokens : Token → Prop} {failures : Error → Prop} {horizon : Nat} {late : Option Error}
  {first second : ParseState N}

/-- Two runs of an action, on buffers that may be in step, have parallel outcomes. -/
def Alongside (horizon : Nat) (late : Option Error) (action : Parser N α)
    (first second : ParseState N) : Prop :=
  Buffer.Parallel horizon late ((action first).1, (action first).2.buffer)
    ((action second).1, (action second).2.buffer)

/-- Returning a value is composed of nothing. -/
theorem composed_pure (value : α) : Composed tokens failures (pure value : Parser N α) :=
  .still (still_pure value) (by simp)

/-- What consuming a token answers, once it has been taken. -/
def received (expected : Option TokenType) : Except Error (Option Token) → Except Error Token
  | .error failure => .error failure
  | .ok none => .error (.parse (.endOfInput expected))
  | .ok (some token) =>
    match expected with
    | none => .ok token
    | some type =>
      if token.type = type then .ok token else .error (.parse (.unexpectedToken token type))

/-- Consuming a token is taking it and then judging it. -/
theorem consume_apply (expected : Option TokenType) (state : ParseState N) :
    (consume expected : Parser N Token) state =
      (received expected state.buffer.take.1, { state with buffer := state.buffer.take.2 }) := by
  -- By what taking answers: the failure of the source, its end, or a token to be judged.
  rcases taken : state.buffer.take with ⟨failure | _ | token, after⟩
  · simp only [consume, onBuffer, Buffer.consume, taken, received]
  · simp only [consume, onBuffer, Buffer.consume, taken, received]
  · cases expected with
    | none => simp only [consume, onBuffer, Buffer.consume, taken, received]
    | some type =>
      simp only [consume, onBuffer, Buffer.consume, taken, received]
      split <;> rfl

/-- A token that is consumed is one that has been taken. -/
theorem received_ok {expected : Option TokenType} {answer : Except Error (Option Token)}
    {token : Token} (consumed : received expected answer = .ok token) :
    answer = .ok (some token) := by
  unfold received at consumed
  split at consumed
  · cases consumed
  · cases consumed
  · split at consumed
    · cases consumed
      rfl
    · split at consumed <;> cases consumed
      rfl

/-- Consuming fails as taking does, or by its judgement. -/
theorem received_error {expected : Option TokenType} {answer : Except Error (Option Token)}
    {failure : Error} (failed : received expected answer = .error failure) :
    answer = .error failure ∨ ∃ fault, failure = .parse fault := by
  unfold received at failed
  split at failed
  · cases failed
    exact .inl rfl
  · cases failed
    exact .inr ⟨_, rfl⟩
  · split at failed
    · cases failed
    · split at failed <;> cases failed
      exact .inr ⟨_, rfl⟩

/-- Accepting a token is looking at it and then taking it. -/
theorem accept_eq (type : TokenType) :
    (accept type : Parser N Bool) = (do
      let ahead ← peek 0
      if ahead.map Token.type = some type then
        let _ ← consume none
        return true
      else return false) := by
  funext state
  rw [bind_apply, peek_apply]
  rcases seen : state.buffer.peek 0 with ⟨failure | _ | token, after⟩
  · simp [accept, onBuffer, Buffer.accept, seen]
  · simp [accept, onBuffer, Buffer.accept, seen]
    rfl
  · -- What waits after the look is the token that was seen.
    obtain ⟨rest, waiting⟩ := Buffer.peek_waits seen
    simp only [accept, onBuffer, Buffer.accept, seen, Option.map_some, Option.some.injEq]
    split
    · simp only [bind_apply, consume_apply, Buffer.take_queued waiting, waiting, received]
      rfl
    · rfl

/-- Accepting a token is composed of a look and perhaps a taking. -/
theorem composed_accept (type : TokenType) :
    Composed tokens failures (accept type : Parser N Bool) := by
  -- The look is near, and the taking is of the token that was seen.
  rw [accept_eq]
  refine .bind .look fun ahead => ?_
  split
  · exact .take fun _ _ => composed_pure true
  · exact composed_pure false

/-- Being composed is passed on from elementary actions to all others. -/
theorem congruence_composed (faults : ∀ fault, failures (.parse fault)) :
    Congruence (· = 0) tokens failures
      fun {α} (action : Parser N α) _ => Composed tokens failures action where
  faults fault _ := faults fault
  still := .still
  take := .take
  accept := composed_accept
  near := rfl
  peek := by
    rintro _ rfl
    exact .look
  bind := .bind

/-- What rules read with is composed, if operands are. -/
theorem composed_reads (faults : ∀ fault, failures (.parse fault)) {operand : Int → Parser N N}
    (operands : ∀ strength, Composed tokens failures (operand strength)) (bound : Nat) :
    Congruence.Reads (fun {α} (action : Parser N α) _ => Composed tokens failures action)
      operand operand bound bound :=
  (congruence_composed faults).reads (faults _) operands bound

/-- No answer of the source is taken back. -/
theorem Composed.since {action : Parser N α} (composed : Composed (fun _ => True) failures action)
    (state : ParseState N) : state.buffer.Since (action state).2.buffer := by
  -- Also an action that fails only stops where it has come to.
  induction composed generalizing state with
  | still still allowed =>
    rw [still.buffer]
    exact .refl _
  | look => exact state.buffer.since_peek
  | take rest ih =>
    rename_i expected next
    have taken := state.buffer.since_take
    rw [bind_apply, consume_apply]
    cases received expected state.buffer.take.1 with
    | error failure => exact taken
    | ok token => exact taken.trans (ih token trivial ⟨state.buffer.take.2, state.seen⟩)
  | bind start rest startIh restIh =>
    rename_i first next
    have started := startIh state
    rw [bind_apply]
    rcases run : first state with ⟨_ | value, after⟩
    · simpa only [run] using started
    · simp only [run] at started
      exact started.trans (restIh value after)

/-- An action that succeeds leaves at most one answer of the source unused, if it finds it so. -/
theorem Composed.oneAhead {start : Feed} {action : Parser N α}
    (composed : Composed (fun _ => True) failures action) {state after : ParseState N} {value : α}
    (place : state.buffer.OneAhead start) (done : action state = (.ok value, after)) :
    after.buffer.OneAhead start := by
  -- A look goes ahead by one at most, and a taking uses that up.
  induction composed generalizing state after with
  | @still _ action outcome still allowed =>
    have same := still.buffer state
    rw [done] at same
    exact same ▸ place
  | look =>
    rw [peek_apply] at done
    obtain ⟨seen, rfl⟩ := Prod.ext_iff.1 done
    exact (place.peek seen).1
  | take rest ih =>
    obtain ⟨token, between, consumed, goesOn⟩ := bind_eq_ok done
    rw [consume_apply] at consumed
    obtain ⟨taken, rfl⟩ := Prod.ext_iff.1 consumed
    exact ih token trivial (place.take (received_ok taken)) goesOn
  | bind start rest startIh restIh =>
    obtain ⟨middle, between, started, goesOn⟩ := bind_eq_ok done
    exact restIh middle (startIh place started) goesOn

/-- An action brings up nothing but what the source supplies and the failures that are its own. -/
theorem Composed.fails {action : Parser N α} (composed : Composed tokens failures action)
    (faults : ∀ fault, failures (.parse fault)) {state : ParseState N}
    (supplies : state.buffer.Supplies tokens failures) :
    (action state).2.buffer.Supplies tokens failures ∧
      ∀ failure, (action state).1 = .error failure → failures failure := by
  -- By the parts of the action; what one part has left is what the next one starts from.
  induction composed generalizing state with
  | still still allowed =>
    rw [still.buffer, still.answer]
    exact ⟨supplies, allowed⟩
  | look =>
    rw [peek_apply]
    exact supplies.peek
  | take rest ih =>
    rename_i expected next
    obtain ⟨left, delivers, fails⟩ := supplies.take
    rw [bind_apply, consume_apply]
    cases judged : received expected state.buffer.take.1 with
    | error failure =>
      -- It could not be taken, or it was taken and is not of the expected type.
      refine ⟨left, ?_⟩
      rintro _ ⟨⟩
      rcases received_error judged with failed | ⟨fault, rfl⟩
      · exact fails failure failed
      · exact faults fault
    | ok token => exact ih token (delivers token (received_ok judged)) left
  | bind start rest startIh restIh =>
    rename_i first next
    have started := startIh supplies
    rw [bind_apply]
    rcases run : first state with ⟨failure | value, after⟩ <;> simp only [run] at started
    · simpa using started
    · exact restIh value started.1

/-- Consuming a token does the same on buffers in step, unless it asks for too much. -/
theorem consume_parallel (expected : Option TokenType)
    (alike : Buffer.InStep horizon late first.buffer second.buffer) :
    Alongside horizon late (consume expected) first second := by
  -- The same token is judged in the same way.
  unfold Alongside
  rw [consume_apply, consume_apply]
  cases Buffer.take_parallel alike with
  | along outcome left => exact .along (congrArg (received expected) outcome) left
  | beyond far fails =>
    refine .beyond far fun failure known => ?_
    obtain ⟨failed, ended⟩ := fails failure known
    exact ⟨by rw [failed]; rfl, ended⟩
  | broken unknown failed => exact .broken unknown (by rw [failed]; rfl)

/-- What starts alongside goes on alongside. -/
theorem Alongside.bind {action : Parser N α} {next : α → Parser N β}
    (started : Alongside horizon late action first second)
    (rest : ∀ value {one other : ParseState N}, Buffer.InStep horizon late one.buffer other.buffer →
      Alongside horizon late (next value) one other)
    (since : ∀ value (state : ParseState N), state.buffer.Since (next value state).2.buffer) :
    Alongside horizon late (action >>= next) first second := by
  unfold Alongside at started ⊢
  rw [bind_apply, bind_apply]
  rcases run : action first with ⟨outcome, after⟩
  rcases otherRun : action second with ⟨answer, otherAfter⟩
  simp only [run, otherRun] at started
  -- Three ways to begin: with one outcome, with the first run out of reach, or with the failure to
  -- come.
  cases started with
  | along same left =>
    obtain rfl : outcome = answer := same
    cases outcome with
    | error failure => exact .along rfl left
    | ok value => exact rest value left
  | beyond far fails =>
    -- What is out of reach stays so, and the failure of the second source is passed on.
    refine .beyond ?_ fun failure known => ?_
    · cases outcome with
      | error failure => exact far
      | ok value => exact Nat.lt_of_lt_of_le far (since value after).asked
    · obtain ⟨failed, ended⟩ := fails failure known
      obtain rfl : answer = .error failure := failed
      refine ⟨rfl, ?_⟩
      cases outcome with
      | error failure => exact ended
      | ok value => exact Nat.lt_of_lt_of_le ended (since value after).ends
  | broken unknown failed =>
    obtain rfl : outcome = _ := failed
    exact .broken unknown rfl

/-- An action does the same on buffers in step, unless it asks for too much. -/
theorem Composed.parallel {action : Parser N α}
    (composed : Composed (fun _ => True) failures action)
    (alike : Buffer.InStep horizon late first.buffer second.buffer) :
    Alongside horizon late action first second := by
  -- Looks and takings are parallel on buffers, and the rest leaves the buffers alone.
  induction composed generalizing first second with
  | still still allowed =>
    unfold Alongside
    rw [still.buffer, still.answer, still.buffer, still.answer]
    exact .along rfl alike
  | look => exact Buffer.peek_parallel alike
  | take rest ih =>
    exact (consume_parallel _ alike).bind (fun token => ih token trivial)
      fun token => (rest token trivial).since
  | bind start rest startIh restIh =>
    exact (startIh alike).bind restIh fun value => (rest value).since

end Parser

namespace Grammar

open Climb.Parser

variable {grammar : Grammar N} {interpreter : Option (Interpreter N)} {tokens : Token → Prop}
  {failures : Error → Prop}

/-- Reading an expression is composed, where looks go to the next token at most. -/
theorem KeepsTo.composed_expressionWithin
    (keeps : grammar.KeepsTo interpreter (· = 0) tokens failures)
    (faults : ∀ fault, failures (.parse fault)) (depth : Nat) (minimum : Int) :
    Composed tokens failures (grammar.expressionWithin interpreter depth minimum) :=
  related_expressionWithin (congruence_composed faults) keeps (faults _) depth minimum

/-- Reading an input is composed, where looks go to the next token at most. -/
theorem KeepsTo.composed_inputWithin
    (keeps : grammar.KeepsTo interpreter (· = 0) tokens failures)
    (faults : ∀ fault, failures (.parse fault)) (depth : Nat) (exhaust : Bool) :
    Composed tokens failures (grammar.inputWithin interpreter depth exhaust) :=
  related_inputWithin (congruence_composed faults) grammar depth
    (keeps.composed_expressionWithin faults depth 0) exhaust

end Grammar

end Climb
