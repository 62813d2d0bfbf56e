import Climb.Token.Source

/-! Lookahead: tokens that have been looked at wait in a queue until they are consumed. -/

namespace Climb

/-- A view on a source that can look ahead any distance and reads each place once. -/
structure Buffer where
  /-- Tokens taken from the source and not consumed yet. -/
  queue : List Token
  /-- Whether the source has reported its end. -/
  exhausted : Bool
  source : Source

namespace Buffer

/-- A buffer that has read nothing. -/
def ofSource (source : Source) : Buffer :=
  ⟨[], false, source⟩

/-- A bound on the tokens not consumed yet. -/
def size (buffer : Buffer) : Nat :=
  buffer.queue.length + buffer.source.feed.size

/-- Takes a token from the source, which is never asked again after its end. -/
def pull (buffer : Buffer) : Except Error (Option Token) × Buffer :=
  if buffer.exhausted then (.ok none, buffer)
  else
    match buffer.source.next with
    | (.ok none, source) => (.ok none, { buffer with exhausted := true, source := source })
    | (outcome, source) => (outcome, { buffer with source := source })

/-- Pulls up to a number of tokens into the queue; false if the source ended before that. -/
def fill : Nat → Buffer → Except Error Bool × Buffer
  | 0, buffer => (.ok true, buffer)
  | missing + 1, buffer =>
    match buffer.pull with
    | (.error failure, after) => (.error failure, after)
    | (.ok none, after) => (.ok false, after)
    | (.ok (some token), after) =>
      fill missing { after with queue := after.queue ++ [token] }

/-- The token a distance ahead, or none past the end of the input. -/
def peek (buffer : Buffer) (distance : Nat) : Except Error (Option Token) × Buffer :=
  match fill (distance + 1 - buffer.queue.length) buffer with
  | (.error failure, after) => (.error failure, after)
  | (.ok false, after) => (.ok none, after)
  | (.ok true, after) => (.ok after.queue[distance]?, after)

/-- The token a signed distance ahead; looking back is refused. -/
def peekAt (buffer : Buffer) (distance : Int) : Except Error (Option Token) × Buffer :=
  if distance < 0 then (.error (.value (.negativeDistance distance)), buffer)
  else buffer.peek distance.toNat

/-- Whether the input has been consumed to its end. -/
def atEnd (buffer : Buffer) : Except Error Bool × Buffer :=
  match buffer.peek 0 with
  | (.error failure, after) => (.error failure, after)
  | (.ok token, after) => (.ok token.isNone, after)

/-- Removes the next token, from the queue or else from the source. -/
def take (buffer : Buffer) : Except Error (Option Token) × Buffer :=
  match buffer.queue with
  | token :: rest => (.ok (some token), { buffer with queue := rest })
  | [] => buffer.pull

/-- Removes and returns the next token, which is gone also if it is not of the expected type. -/
def consume (buffer : Buffer) (expected : Option TokenType) : Except Error Token × Buffer :=
  match buffer.take with
  | (.error failure, after) => (.error failure, after)
  | (.ok none, after) => (.error (.parse (.endOfInput expected)), after)
  | (.ok (some token), after) =>
    match expected with
    | none => (.ok token, after)
    | some type =>
      if token.type = type then (.ok token, after)
      else (.error (.parse (.unexpectedToken token type)), after)

/-- Removes the next token only if it has the given type, and says whether it did. -/
def accept (buffer : Buffer) (type : TokenType) : Except Error Bool × Buffer :=
  match buffer.peek 0 with
  | (.error failure, after) => (.error failure, after)
  | (.ok none, after) => (.ok false, after)
  | (.ok (some token), after) =>
    if token.type = type then (.ok true, { after with queue := after.queue.drop 1 })
    else (.ok false, after)

/-- A buffer's own state. -/
def display (buffer : Buffer) : String :=
  "TokenBuffer(queued=[" ++ String.intercalate ", " (buffer.queue.map Token.display) ++
    "], exhausted=" ++ (if buffer.exhausted then "True" else "False") ++ ")"

end Buffer

end Climb
