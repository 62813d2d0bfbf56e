import Climb.Proofs.Token.Scanner
import Climb.Token.Buffer

/-! A lookahead buffer behaves like a cursor on the plain list of tokens that are left. -/

namespace Climb

/-- The tokens that are left, and the failure that comes after the last of them, if any. -/
structure Cursor where
  tokens : List Token
  failure : Option Error

namespace Cursor

/-- Removes the next token; past the last one the failure comes once, and then the end. -/
def take : Cursor → Except Error (Option Token) × Cursor
  | ⟨token :: rest, failure⟩ => (.ok (some token), ⟨rest, failure⟩)
  | ⟨[], none⟩ => (.ok none, ⟨[], none⟩)
  | ⟨[], some failure⟩ => (.error failure, ⟨[], none⟩)

/-- The token a distance ahead. Looking past the last token brings the failure forward. -/
def peek (cursor : Cursor) (distance : Nat) : Except Error (Option Token) × Cursor :=
  match cursor.tokens[distance]?, cursor.failure with
  | some token, _ => (.ok (some token), cursor)
  | none, none => (.ok none, cursor)
  | none, some failure => (.error failure, ⟨cursor.tokens, none⟩)

/-- The token a signed distance ahead; looking back is refused. -/
def peekAt (cursor : Cursor) (distance : Int) : Except Error (Option Token) × Cursor :=
  if distance < 0 then (.error (.value (.negativeDistance distance)), cursor)
  else cursor.peek distance.toNat

/-- Whether no token is left. -/
def atEnd (cursor : Cursor) : Except Error Bool × Cursor :=
  let (outcome, after) := cursor.peek 0
  (outcome.map Option.isNone, after)

/-- Removes and returns the next token, which is gone also if it is not of the expected type. -/
def consume (cursor : Cursor) (expected : Option TokenType) : Except Error Token × Cursor :=
  match cursor.take with
  | (.error failure, after) => (.error failure, after)
  | (.ok none, after) => (.error (.parse (.endOfInput expected)), after)
  | (.ok (some token), after) =>
    match expected with
    | none => (.ok token, after)
    | some type =>
      if token.type = type then (.ok token, after)
      else (.error (.parse (.unexpectedToken token type)), after)

/-- Removes the next token only if it has the given type, and says whether it did. -/
def accept : Cursor → TokenType → Except Error Bool × Cursor
  | ⟨token :: rest, failure⟩, type =>
    if token.type = type then (.ok true, ⟨rest, failure⟩)
    else (.ok false, ⟨token :: rest, failure⟩)
  | ⟨[], none⟩, _ => (.ok false, ⟨[], none⟩)
  | ⟨[], some failure⟩, _ => (.error failure, ⟨[], none⟩)

/-- Taking a token leaves the rest of the list. -/
theorem take_suffix (cursor : Cursor) : cursor.take.2.tokens <:+ cursor.tokens := by
  match cursor with
  | ⟨token :: rest, failure⟩ => exact List.suffix_cons token rest
  | ⟨[], none⟩ => exact List.suffix_refl _
  | ⟨[], some failure⟩ => exact List.suffix_refl _

/-- Consuming a token leaves what taking it leaves. -/
theorem consume_left (cursor : Cursor) (expected : Option TokenType) :
    (cursor.consume expected).2 = cursor.take.2 := by
  -- A token is gone before its type is looked at.
  rcases taken : cursor.take with ⟨answer, after⟩
  match answer, expected with
  | .error failure, _ => simp [consume, taken]
  | .ok none, _ => simp [consume, taken]
  | .ok (some token), none => simp [consume, taken]
  | .ok (some token), some type =>
    simp only [consume, taken]
    split <;> rfl

/-- Looking ahead leaves every token where it is. -/
theorem peek_tokens (cursor : Cursor) (distance : Nat) :
    (cursor.peek distance).2.tokens = cursor.tokens := by
  simp only [peek]
  split <;> rfl

/-- Accepting a token leaves a suffix of the list. -/
theorem accept_suffix (cursor : Cursor) (type : TokenType) :
    (cursor.accept type).2.tokens <:+ cursor.tokens := by
  -- Only a token that is accepted leaves the list.
  match cursor with
  | ⟨token :: rest, failure⟩ =>
    simp only [accept]
    split
    · exact List.suffix_cons token rest
    · exact List.suffix_refl _
  | ⟨[], none⟩ => exact List.suffix_refl _
  | ⟨[], some failure⟩ => exact List.suffix_refl _

/-- Looking ahead adds no failure. -/
theorem peek_calm (tokens : List Token) (distance : Nat) :
    (peek ⟨tokens, none⟩ distance).2.failure = none := by
  simp only [peek]
  -- Where no failure is ahead, none can be brought forward.
  split
  · rfl
  · rfl
  · rename_i failed
    simp at failed

/-- A token that is consumed leaves the failure ahead where it is. -/
theorem consume_kept {cursor : Cursor} {expected : Option TokenType} {token : Token}
    (found : (cursor.consume expected).1 = .ok token) :
    (cursor.consume expected).2.failure = cursor.failure := by
  rw [consume_left]
  -- Only an empty list brings its failure up, and then nothing is found.
  match cursor with
  | ⟨token :: rest, failure⟩ => rfl
  | ⟨[], none⟩ => rfl
  | ⟨[], some failure⟩ => simp [consume, take] at found

/-- A token that is accepted or not leaves the failure ahead where it is. -/
theorem accept_kept {cursor : Cursor} {type : TokenType} {accepted : Bool}
    (found : (cursor.accept type).1 = .ok accepted) :
    (cursor.accept type).2.failure = cursor.failure := by
  -- Only an empty list brings its failure up, and then nothing is answered.
  match cursor with
  | ⟨token :: rest, failure⟩ =>
    simp only [accept]
    split <;> rfl
  | ⟨[], none⟩ => rfl
  | ⟨[], some failure⟩ => simp [accept] at found

/-- A look ahead that finds something, or the end, leaves the failure ahead where it is. -/
theorem peek_kept {cursor : Cursor} {distance : Nat} {ahead : Option Token}
    (found : (cursor.peek distance).1 = .ok ahead) :
    (cursor.peek distance).2.failure = cursor.failure := by
  simp only [peek] at found ⊢
  split
  · rfl
  · rfl
  · -- The failure is answered in place of a token.
    rename_i missing failed
    rw [missing, failed] at found
    cases found

end Cursor

namespace Feed

/-- Whether a supply ends. -/
def Ends : Feed → Prop
  | endless _ => False
  | _ => True

/-- What a supply that ends will deliver. -/
def cursor : Feed → Cursor
  | listed tokens failure => ⟨tokens, failure⟩
  | scanned text => ⟨text.tokens.1, text.tokens.2.1⟩
  | endless _ => ⟨[], none⟩

/-- Taking the next token of a supply takes it from the list of what is left. -/
theorem next_cursor {feed : Feed} (ends : feed.Ends) :
    feed.next.1 = feed.cursor.take.1 ∧ feed.next.2.Ends ∧
      feed.next.2.cursor = feed.cursor.take.2 := by
  match feed with
  | listed (token :: rest) failure => exact ⟨rfl, trivial, rfl⟩
  | listed [] none => exact ⟨rfl, trivial, rfl⟩
  | listed [] (some failure) => exact ⟨rfl, trivial, rfl⟩
  | endless supply => exact ends.elim
  | scanned text =>
    -- A text delivers its tokens one by one, each taken from the list of them all.
    rcases found : text.next with ⟨outcome, after⟩
    match outcome with
    | .ok none =>
      -- Nothing is left of the text, so it stays at its end.
      have stopped := Scanner.tokens_nil (Scanner.next_end found)
      simp [Feed.next, found, cursor, Scanner.tokens_end found, Cursor.take, Ends, stopped]
    | .error fault =>
      simp [Feed.next, found, cursor, Scanner.tokens_fault found, Cursor.take, Ends]
    | .ok (some token) =>
      simp [Feed.next, found, cursor, Scanner.tokens_cons found, Cursor.take, Ends]

/-- The size of a supply bounds the tokens it will deliver. -/
theorem cursor_length (feed : Feed) : feed.cursor.tokens.length ≤ feed.size := by
  cases feed with
  | listed tokens failure => exact Nat.le_refl _
  | scanned text => exact text.tokens_length
  | endless supply => exact Nat.zero_le _

end Feed

namespace Buffer

/-- What the source of a buffer will still be asked for. -/
def pending (buffer : Buffer) : Cursor :=
  if buffer.exhausted then ⟨[], none⟩ else buffer.source.feed.cursor

/-- What a buffer will still deliver: its queue before the rest of its source. -/
def cursor (buffer : Buffer) : Cursor :=
  ⟨buffer.queue ++ buffer.pending.tokens, buffer.pending.failure⟩

/-- The buffer has a source that ends, and the cursor is what it will still deliver. -/
structure Shows (buffer : Buffer) (cursor : Cursor) : Prop where
  ends : buffer.source.feed.Ends
  same : buffer.cursor = cursor

/-- A fresh buffer shows everything that its source will deliver. -/
theorem shows_ofSource (source : Source) (ends : source.feed.Ends) :
    (ofSource source).Shows source.feed.cursor :=
  ⟨ends, by simp [cursor, pending, ofSource]⟩

/-- The size of a buffer bounds the tokens it will deliver. -/
theorem Shows.length {buffer : Buffer} {cursor : Cursor} (shown : buffer.Shows cursor) :
    cursor.tokens.length ≤ buffer.size := by
  have feed := buffer.source.feed.cursor_length
  rw [← shown.same]
  simp only [Buffer.cursor, pending, size, List.length_append]
  -- A source that has reported its end has nothing more to deliver.
  split
  · simp
  · omega

/-- Pulling a token takes it from what is pending and leaves the queue alone. -/
theorem pull_pending {buffer : Buffer} (ends : buffer.source.feed.Ends) :
    buffer.pull.1 = buffer.pending.take.1 ∧ buffer.pull.2.source.feed.Ends ∧
      buffer.pull.2.pending = buffer.pending.take.2 ∧ buffer.pull.2.queue = buffer.queue := by
  obtain ⟨outcome, ended, left⟩ := Feed.next_cursor ends
  by_cases exhausted : buffer.exhausted
  · -- A source that has reported its end is not asked again.
    simp [pull, pending, exhausted, Cursor.take, ends]
  · rcases found : buffer.source.feed.next with ⟨answer, feed⟩
    rw [found] at outcome ended left
    match answer with
    | .ok none =>
      -- Only an empty list without a failure answers that it has ended.
      have empty : buffer.source.feed.cursor = ⟨[], none⟩ := by
        rcases view : buffer.source.feed.cursor with ⟨_ | ⟨token, rest⟩, _ | failure⟩ <;>
          simp [view, Cursor.take] at outcome
        rfl
      simp [pull, pending, exhausted, Source.next, found, empty, Cursor.take, ended]
    | .error failure =>
      simpa [pull, pending, exhausted, Source.next, found] using ⟨outcome, ended, left⟩
    | .ok (some token) =>
      simpa [pull, pending, exhausted, Source.next, found] using ⟨outcome, ended, left⟩

/-- An operation on a buffer answers like one on a cursor and leaves what that one leaves. -/
structure Matches {α : Type} (actual : Except Error α × Buffer)
    (expected : Except Error α × Cursor) : Prop where
  outcome : actual.1 = expected.1
  left : actual.2.Shows expected.2

variable {buffer : Buffer} {cursor : Cursor}

/-- Taking a token from a buffer takes it from the list of what is left. -/
theorem take_matches (shown : buffer.Shows cursor) : Matches buffer.take cursor.take := by
  obtain ⟨ends, rfl⟩ := shown
  obtain ⟨outcome, ended, left, queue⟩ := pull_pending ends
  -- The queue is served first, and the source only once it is empty.
  cases waiting : buffer.queue with
  | nil =>
    -- With an empty queue, what is pending is all that is left.
    have same : buffer.cursor = buffer.pending := by simp [Buffer.cursor, waiting]
    simp only [take, waiting, same]
    exact ⟨outcome, ended, by simp [Buffer.cursor, queue, waiting, left]⟩
  | cons token rest =>
    -- A queued token comes before anything the source has.
    have pending : ({ buffer with queue := rest } : Buffer).pending = buffer.pending := rfl
    simp only [take, waiting, Buffer.cursor, List.cons_append, Cursor.take]
    exact ⟨rfl, ends, by simp [Buffer.cursor, pending]⟩

/-- Consuming from a buffer consumes from the list of what is left. -/
theorem consume_matches (shown : buffer.Shows cursor) (expected : Option TokenType) :
    Matches (buffer.consume expected) (cursor.consume expected) := by
  obtain ⟨outcome, left⟩ := take_matches shown
  rcases taken : buffer.take with ⟨answer, after⟩
  rcases wanted : cursor.take with ⟨answer', after'⟩
  simp only [taken, wanted] at outcome left
  subst outcome
  simp only [consume, Cursor.consume, taken, wanted]
  -- Whatever comes of the token, it is gone from both.
  cases answer with
  | error failure => exact ⟨rfl, left⟩
  | ok found =>
    cases found with
    | none => exact ⟨rfl, left⟩
    | some token =>
      cases expected with
      | none => exact ⟨rfl, left⟩
      | some type =>
        dsimp only
        split <;> exact ⟨rfl, left⟩

/-- What filling the queue comes to, given what is pending. -/
theorem fill_matches : ∀ (missing : Nat) {buffer : Buffer}, buffer.source.feed.Ends →
    (missing ≤ buffer.pending.tokens.length →
      (fill missing buffer).1 = .ok true ∧ (fill missing buffer).2.Shows buffer.cursor ∧
        (fill missing buffer).2.queue = buffer.queue ++ buffer.pending.tokens.take missing) ∧
    (buffer.pending.tokens.length < missing →
      Matches (fill missing buffer)
        (match buffer.pending.failure with
        | none => (.ok false, buffer.cursor)
        | some failure => (.error failure, ⟨buffer.cursor.tokens, none⟩))) := by
  -- Each pull moves one pending token to the queue, which keeps the list of what is left.
  intro missing
  induction missing with
  | zero =>
    -- Nothing is missing, so nothing is pulled.
    intro buffer ends
    exact ⟨fun _ => ⟨rfl, ⟨ends, rfl⟩, by simp [fill]⟩, fun few => by omega⟩
  | succ missing ih =>
    intro buffer ends
    obtain ⟨outcome, ended, left, queue⟩ := pull_pending ends
    rcases pulled : buffer.pull with ⟨answer, after⟩
    simp only [pulled] at outcome ended left queue
    rcases view : buffer.pending with ⟨_ | ⟨token, rest⟩, failure⟩
    · -- Nothing is pending: the source is at its end, or fails and then is.
      refine ⟨fun enough => by simp at enough, fun _ => ?_⟩
      cases failure with
      | none =>
        simp only [view, Cursor.take] at outcome left
        subst outcome
        simp only [fill, pulled]
        exact ⟨rfl, ended, by simp [Buffer.cursor, left, queue, view]⟩
      | some failure =>
        simp only [view, Cursor.take] at outcome left
        subst outcome
        simp only [fill, pulled]
        exact ⟨rfl, ended, by simp [Buffer.cursor, left, queue, view]⟩
    · -- There is a token, which moves from the source to the queue.
      simp only [view, Cursor.take] at outcome left
      subst outcome
      -- The buffer after the pull, whose queue is longer by the token.
      let next : Buffer := { after with queue := after.queue ++ [token] }
      have nextPending : next.pending = ⟨rest, failure⟩ := left
      have nextQueue : next.queue = buffer.queue ++ [token] := by
        simp only [next] at queue ⊢
        rw [queue]
      have nextCursor : next.cursor = buffer.cursor := by
        simp [Buffer.cursor, nextPending, nextQueue, view]
      have step : fill (missing + 1) buffer = fill missing next := by
        simp only [fill, pulled, next]
      obtain ⟨enough, few⟩ := ih (show next.source.feed.Ends from ended)
      rw [step]
      simp only [nextPending, nextCursor, nextQueue] at enough few
      refine ⟨fun many => ?_, fun less => ?_⟩
      · obtain ⟨filled, shown, queued⟩ := enough (by simpa using many)
        exact ⟨filled, shown, by simp [queued]⟩
      · exact few (by simpa using less)

/-- Looking ahead in a buffer looks ahead in the list of what is left. -/
theorem peek_matches (shown : buffer.Shows cursor) (distance : Nat) :
    Matches (buffer.peek distance) (cursor.peek distance) := by
  obtain ⟨ends, rfl⟩ := shown
  obtain ⟨enough, few⟩ := fill_matches (distance + 1 - buffer.queue.length) ends
  -- Either the source can fill the queue up to the place, or it ends before.
  by_cases reach : distance + 1 - buffer.queue.length ≤ buffer.pending.tokens.length
  · obtain ⟨filled, shown, queue⟩ := enough reach
    rcases found : fill (distance + 1 - buffer.queue.length) buffer with ⟨answer, after⟩
    simp only [found] at filled shown queue
    subst filled
    have inside : distance < buffer.cursor.tokens.length := by
      simp only [Buffer.cursor, List.length_append]
      omega
    -- The queue is now the start of the list, and long enough to hold the place.
    have queued : after.queue[distance]? = some (buffer.cursor.tokens[distance]) := by
      rw [← List.getElem?_eq_getElem inside, queue]
      simp only [Buffer.cursor]
      by_cases near : distance < buffer.queue.length
      · rw [List.getElem?_append_left near, List.getElem?_append_left near]
      · have far : buffer.queue.length ≤ distance := by omega
        rw [List.getElem?_append_right far, List.getElem?_append_right far,
          List.getElem?_take_of_lt (by omega)]
    have ahead : buffer.cursor.peek distance
        = (.ok (some buffer.cursor.tokens[distance]), buffer.cursor) := by
      simp only [Cursor.peek, List.getElem?_eq_getElem inside]
    simp only [peek, found, ahead, queued]
    exact ⟨rfl, shown⟩
  · have outside : buffer.cursor.tokens[distance]? = none := by
      rw [List.getElem?_eq_none]
      simp only [Buffer.cursor, List.length_append]
      omega
    have short := few (by omega)
    have same : buffer.cursor.failure = buffer.pending.failure := rfl
    rcases found : fill (distance + 1 - buffer.queue.length) buffer with ⟨answer, after⟩
    rw [found] at short
    simp only [peek, found, Cursor.peek, outside, same]
    -- The source ended or failed before the place was reached.
    cases known : buffer.pending.failure with
    | none =>
      rw [known] at short
      obtain ⟨rfl : answer = _, left⟩ := short
      exact ⟨rfl, left⟩
    | some failure =>
      rw [known] at short
      obtain ⟨rfl : answer = _, left⟩ := short
      exact ⟨rfl, left⟩

/-- Looking a signed distance ahead does the same on both. -/
theorem peekAt_matches (shown : buffer.Shows cursor) (distance : Int) :
    Matches (buffer.peekAt distance) (cursor.peekAt distance) := by
  simp only [peekAt, Cursor.peekAt]
  -- A look back is refused by both before they look at anything.
  split
  · exact ⟨rfl, shown⟩
  · exact peek_matches shown distance.toNat

/-- Asking a buffer for its end asks whether the list is empty. -/
theorem atEnd_matches (shown : buffer.Shows cursor) : Matches buffer.atEnd cursor.atEnd := by
  -- The end is found by a look at the next token.
  obtain ⟨outcome, left⟩ := peek_matches shown 0
  rcases found : buffer.peek 0 with ⟨answer, after⟩
  simp only [found] at outcome left
  simp only [atEnd, Cursor.atEnd, found, ← outcome]
  cases answer <;> exact ⟨rfl, left⟩

/-- A token that has been looked at waits in the queue. -/
theorem peek_queued {after : Buffer} {token : Token} {distance : Nat}
    (found : buffer.peek distance = (.ok (some token), after)) :
    after.queue[distance]? = some token := by
  -- The answer of a look ahead is read off the queue.
  simp only [peek] at found
  split at found <;> simp only [Prod.mk.injEq, Except.ok.injEq, reduceCtorEq, false_and] at found
  rw [← found.2]
  exact found.1

/-- Dropping the front of a queue moves past the first token of what is left. -/
theorem Shows.drop {token : Token} {rest : List Token} {failure : Option Error}
    (shown : buffer.Shows ⟨token :: rest, failure⟩) (queued : buffer.queue[0]? = some token) :
    ({ buffer with queue := buffer.queue.drop 1 } : Buffer).Shows ⟨rest, failure⟩ := by
  obtain ⟨ends, same⟩ := shown
  refine ⟨ends, ?_⟩
  -- The token is the first of the queue, since the look at it put it there.
  cases waiting : buffer.queue with
  | nil => simp [waiting] at queued
  | cons first others =>
    have pending : ({ buffer with queue := others } : Buffer).pending = buffer.pending := rfl
    simp only [Buffer.cursor, waiting, List.cons_append, Cursor.mk.injEq, List.cons.injEq] at same
    simp [Buffer.cursor, pending, same]

/-- Accepting a token does the same on both. -/
theorem accept_matches (shown : buffer.Shows cursor) (type : TokenType) :
    Matches (buffer.accept type) (cursor.accept type) := by
  -- A buffer looks at the next token and then drops it from the queue.
  obtain ⟨outcome, left⟩ := peek_matches shown 0
  rcases found : buffer.peek 0 with ⟨answer, after⟩
  match cursor with
  | ⟨[], none⟩ =>
    simp only [found, Cursor.peek, List.getElem?_nil] at outcome left
    subst outcome
    simp only [accept, found]
    exact ⟨rfl, left⟩
  | ⟨[], some failure⟩ =>
    simp only [found, Cursor.peek, List.getElem?_nil] at outcome left
    subst outcome
    simp only [accept, found]
    exact ⟨rfl, left⟩
  | ⟨token :: rest, failure⟩ =>
    simp only [found, Cursor.peek, List.getElem?_cons_zero] at outcome left
    subst outcome
    simp only [accept, found, Cursor.accept]
    split
    · exact ⟨rfl, left.drop (peek_queued found)⟩
    · exact ⟨rfl, left⟩

end Buffer

end Climb
