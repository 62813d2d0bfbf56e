import Climb.Grammar.Parser
import Climb.Proofs.Token.Cursor

/-! Reading an expression depends on nothing but the list of tokens that are left. -/

namespace Climb

variable {N : Type}

/-- A parse that has not begun, over given tokens. -/
def ParseState.ofCursor (cursor : Cursor) : ParseState N :=
  ⟨.ofSource { feed := .listed cursor.tokens cursor.failure }, []⟩

/-- A parse that has not begun shows the tokens it was given. -/
theorem ParseState.ofCursor_shows (cursor : Cursor) :
    (ofCursor cursor : ParseState N).buffer.Shows cursor :=
  Buffer.shows_ofSource ⟨.listed cursor.tokens cursor.failure, 0, 0⟩ trivial

namespace Parser

variable {α β : Type}

/-- What an action answers over a list of tokens, and what it leaves of the list. -/
def on (action : Parser N α) (cursor : Cursor) : Except Error α × Cursor :=
  let answer := action (.ofCursor cursor)
  (answer.1, answer.2.buffer.cursor)

/-- An action that sees only the tokens that are left, takes them in order and adds no failure. -/
structure Steady (action : Parser N α) : Prop where
  /-- The list of what is left decides the outcome, whatever the state looks like inside. -/
  determined : ∀ {state : ParseState N} {cursor : Cursor}, state.buffer.Shows cursor →
    (action state).1 = (action.on cursor).1 ∧
      (action state).2.buffer.Shows (action.on cursor).2
  /-- Tokens go from the front of the list only. -/
  suffix : ∀ cursor, (action.on cursor).2.tokens <:+ cursor.tokens
  /-- A list that ends in no failure still does afterwards. -/
  calm : ∀ tokens, (action.on ⟨tokens, none⟩).2.failure = none
  /-- A failure at the end of the list is never passed over. -/
  kept : ∀ {cursor value}, (action.on cursor).1 = .ok value →
    (action.on cursor).2.failure = cursor.failure

/-- An action never leaves more tokens than it found. -/
theorem Steady.length {action : Parser N α} (steady : Steady action) (cursor : Cursor) :
    (action.on cursor).2.tokens.length ≤ cursor.tokens.length :=
  (steady.suffix cursor).length_le

/-- An action that leaves the tokens alone. -/
structure Still (action : Parser N α) (outcome : Except Error α) : Prop where
  answer : ∀ state, (action state).1 = outcome
  buffer : ∀ state, (action state).2.buffer = state.buffer

/-- What an action answers that leaves the tokens alone. -/
theorem Still.on {action : Parser N α} {outcome : Except Error α} (still : Still action outcome)
    (cursor : Cursor) : action.on cursor = (outcome, cursor) := by
  have left : (action (.ofCursor cursor)).2.buffer.cursor = cursor := by
    rw [still.buffer]
    exact (ParseState.ofCursor_shows cursor).same
  exact Prod.ext (still.answer _) left

/-- An action that leaves the tokens alone depends on nothing else. -/
theorem Still.steady {action : Parser N α} {outcome : Except Error α}
    (still : Still action outcome) : Steady action where
  determined {state cursor} shown := by
    -- One outcome in every state, and the tokens that the state has.
    rw [still.on, still.answer, still.buffer]
    exact ⟨rfl, shown⟩
  suffix cursor := by simp [still.on]
  calm tokens := by rw [still.on]
  kept {cursor value} _ := by rw [still.on]

/-- Returning a value leaves the tokens alone. -/
theorem still_pure (value : α) : Still (pure value : Parser N α) (.ok value) :=
  ⟨fun _ => rfl, fun _ => rfl⟩

/-- Failing leaves the tokens alone. -/
theorem still_throw (failure : Error) : Still (throw failure : Parser N α) (.error failure) :=
  ⟨fun _ => rfl, fun _ => rfl⟩

/-- Building a node leaves the tokens alone. -/
theorem still_built (outcome : Except Error α) : Still (built outcome : Parser N α) outcome :=
  ⟨fun _ => rfl, fun _ => rfl⟩

/-- What an interpreter answers for a node; without one the node stays as it is. -/
def interpreted (interpreter : Option (Interpreter N)) (node : N) : Except Error N :=
  match interpreter with
  | none => .ok node
  | some step => step node

/-- Interpreting a node leaves the tokens alone. -/
theorem still_interpret (interpreter : Option (Interpreter N)) (node : N) :
    Still (interpret interpreter node) (interpreted interpreter node) := by
  cases interpreter <;> exact ⟨fun _ => rfl, fun _ => rfl⟩

/-- An operation of the buffer does to the list what it is specified to do. -/
theorem on_onBuffer {operation : Buffer → Except Error α × Buffer}
    {expected : Cursor → Except Error α × Cursor}
    (specified : ∀ {buffer cursor}, buffer.Shows cursor →
      Buffer.Matches (operation buffer) (expected cursor)) (cursor : Cursor) :
    (onBuffer operation : Parser N α).on cursor = expected cursor := by
  obtain ⟨outcome, left⟩ := specified (ParseState.ofCursor_shows (N := N) cursor)
  exact Prod.ext outcome left.same

/-- An operation of the buffer that is specified on lists sees nothing else. -/
theorem steady_onBuffer {operation : Buffer → Except Error α × Buffer}
    {expected : Cursor → Except Error α × Cursor}
    (specified : ∀ {buffer cursor}, buffer.Shows cursor →
      Buffer.Matches (operation buffer) (expected cursor))
    (suffix : ∀ cursor, (expected cursor).2.tokens <:+ cursor.tokens)
    (calm : ∀ tokens, (expected ⟨tokens, none⟩).2.failure = none)
    (kept : ∀ {cursor value}, (expected cursor).1 = .ok value →
      (expected cursor).2.failure = cursor.failure) :
    Steady (onBuffer operation : Parser N α) where
  determined shown := by
    -- The specification holds for any buffer that shows the list, so also for a fresh one.
    rw [on_onBuffer specified]
    exact ⟨(specified shown).outcome, (specified shown).left⟩
  suffix cursor := by rw [on_onBuffer specified]; exact suffix cursor
  calm tokens := by rw [on_onBuffer specified]; exact calm tokens
  kept found := by
    rw [on_onBuffer specified] at found ⊢
    exact kept found

/-- Consuming a token consumes it from the list. -/
theorem on_consume (expected : Option TokenType) (cursor : Cursor) :
    (consume expected : Parser N Token).on cursor = cursor.consume expected :=
  on_onBuffer (fun shown => Buffer.consume_matches shown expected) cursor

/-- Accepting a token accepts it from the list. -/
theorem on_accept (type : TokenType) (cursor : Cursor) :
    (accept type : Parser N Bool).on cursor = cursor.accept type :=
  on_onBuffer (fun shown => Buffer.accept_matches shown type) cursor

/-- Looking ahead looks ahead in the list. -/
theorem on_peek (distance : Int) (cursor : Cursor) :
    (peek distance : Parser N (Option Token)).on cursor = cursor.peekAt distance :=
  on_onBuffer (fun shown => Buffer.peekAt_matches shown distance) cursor

/-- Consuming a token sees only the list. -/
theorem steady_consume (expected : Option TokenType) : Steady (consume expected : Parser N Token) :=
  steady_onBuffer (fun shown => Buffer.consume_matches shown expected)
    (fun cursor => by rw [cursor.consume_left]; exact cursor.take_suffix)
    (fun tokens => by rw [Cursor.consume_left]; cases tokens <;> rfl)
    Cursor.consume_kept

/-- Accepting a token sees only the list. -/
theorem steady_accept (type : TokenType) : Steady (accept type : Parser N Bool) :=
  steady_onBuffer (fun shown => Buffer.accept_matches shown type)
    (fun cursor => cursor.accept_suffix type)
    (fun tokens => by
      cases tokens with
      | nil => rfl
      | cons token rest => simp only [Cursor.accept]; split <;> rfl)
    Cursor.accept_kept

/-- Looking ahead sees only the list. -/
theorem steady_peek (distance : Int) : Steady (peek distance : Parser N (Option Token)) :=
  steady_onBuffer (fun shown => Buffer.peekAt_matches shown distance)
    (fun cursor => by
      simp only [Cursor.peekAt]
      split
      · exact List.suffix_refl _
      · simp [cursor.peek_tokens])
    (fun tokens => by
      simp only [Cursor.peekAt]
      split
      · rfl
      · exact Cursor.peek_calm tokens _)
    (fun {cursor ahead} found => by
      simp only [Cursor.peekAt] at found ⊢
      split
      · rfl
      · rename_i forward
        rw [if_neg forward] at found
        exact Cursor.peek_kept found)

/-- What an action does whose first part is done: the second part goes on, or a failure stays. -/
def proceed (next : α → Parser N β) : Except Error α × Cursor → Except Error β × Cursor
  | (.ok value, after) => (next value).on after
  | (.error failure, after) => (.error failure, after)

/-- One action after another is run in the state the first leaves. -/
theorem bind_apply (first : Parser N α) (next : α → Parser N β) (state : ParseState N) :
    (first >>= next) state = match first state with
      | (.ok value, after) => next value after
      | (.error failure, after) => (.error failure, after) := by
  -- The monad hands the state of the first action on, whether it failed or not.
  have unfolded : (first >>= next) state =
      ExceptT.bindCont next (first state).1 (first state).2 := rfl
  rcases run : first state with ⟨outcome, after⟩
  rw [unfolded, run]
  cases outcome with
  | error failure => rfl
  | ok value => rfl

/-- One action after another works on what the first leaves of the list. -/
theorem on_bind {first : Parser N α} {next : α → Parser N β} (steady : ∀ value, Steady (next value))
    (cursor : Cursor) (before : Steady first) :
    (first >>= next).on cursor = proceed next (first.on cursor) := by
  -- Only what the first part leaves is known, not the state it leaves it in; the second part
  -- is steady, so that is enough.
  have left := (before.determined (ParseState.ofCursor_shows cursor)).2
  rcases run : first (.ofCursor cursor) with ⟨outcome, after⟩
  have known : first.on cursor = (outcome, after.buffer.cursor) := by simp only [on, run]
  rw [known] at left ⊢
  simp only [run] at left
  -- A failure of the first part is the answer, with no step of the second.
  cases outcome with
  | error failure => simp only [on, bind_apply, run, proceed]
  | ok value =>
    obtain ⟨same, shown⟩ := (steady value).determined left
    simp only [proceed]
    refine Prod.ext ?_ ?_
    · simpa only [on, bind_apply, run] using same
    · simpa only [on, bind_apply, run] using shown.same

/-- One steady action after another is steady. -/
theorem Steady.bind {first : Parser N α} {next : α → Parser N β} (before : Steady first)
    (steady : ∀ value, Steady (next value)) : Steady (first >>= next) where
  determined {state cursor} shown := by
    obtain ⟨same, left⟩ := before.determined shown
    rw [on_bind steady cursor before]
    rcases run : first state with ⟨outcome, after⟩
    rcases known : first.on cursor with ⟨answer, rest⟩
    simp only [run, known] at same left
    -- The same outcome from the state and from the list, so both take the same branch.
    subst same
    cases outcome with
    | error failure => simpa only [bind_apply, run, proceed] using ⟨trivial, left⟩
    | ok value => simpa only [bind_apply, run, proceed] using (steady value).determined left
  suffix cursor := by
    rw [on_bind steady cursor before]
    have start := before.suffix cursor
    rcases known : first.on cursor with ⟨outcome, rest⟩
    rw [known] at start
    cases outcome with
    | error failure => exact start
    | ok value => exact ((steady value).suffix rest).trans start
  calm tokens := by
    rw [on_bind steady _ before]
    have start := before.calm tokens
    rcases known : first.on ⟨tokens, none⟩ with ⟨outcome, rest, failure⟩
    simp only [known] at start
    subst start
    cases outcome with
    | error failure => rfl
    | ok value => exact (steady value).calm rest
  kept {cursor value} found := by
    rw [on_bind steady cursor before] at found ⊢
    -- Success of the whole is success of both parts, and neither passes the failure over.
    have start : ∀ {middle}, (first.on cursor).1 = .ok middle →
        (first.on cursor).2.failure = cursor.failure := before.kept
    rcases known : first.on cursor with ⟨outcome, rest⟩
    rw [known] at found start
    cases outcome with
    | error failure => cases found
    | ok middle => exact ((steady middle).kept found).trans (start rfl)

/-- Discarding an answer is going on without it. -/
theorem discard_eq (action : Parser N α) : discard action = action >>= fun _ => pure () := by
  funext state
  rw [bind_apply]
  -- Discarding is a map over the answer, which has to be unfolded down to the state.
  simp only [discard, Functor.discard, Functor.mapConst, Function.comp_apply, ExceptT.map,
    ExceptT.mk, bind, StateT.bind]
  rcases action state with ⟨outcome, after⟩
  cases outcome with
  | error failure => rfl
  | ok value => rfl

/-- Looking at the next token is an operation of the buffer. -/
theorem peek_apply (state : ParseState N) :
    (peek 0 : Parser N (Option Token)) state =
      ((state.buffer.peek 0).1, { state with buffer := (state.buffer.peek 0).2 }) := rfl

/-- Asking for the end is looking at the next token. -/
theorem atEnd_eq : (atEnd : Parser N Bool) = (do return (← peek 0).isNone) := by
  funext state
  rw [bind_apply, peek_apply]
  rcases seen : state.buffer.peek 0 with ⟨failure | ahead, after⟩
  · simp only [atEnd, onBuffer, Buffer.atEnd, seen]
  · simp only [atEnd, onBuffer, Buffer.atEnd, seen]
    rfl

end Parser

end Climb
