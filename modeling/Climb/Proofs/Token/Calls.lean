import Climb.Proofs.Token.Cursor

/-! Calls on a lookahead buffer, in any order, against the plain list of tokens that are left. -/

namespace Climb

/-- A call on a buffer. -/
inductive Call where
  /-- Look a signed distance ahead. -/
  | peek (distance : Int)
  /-- Remove the next token, which may be expected to have a type. -/
  | consume (expected : Option TokenType)
  /-- Remove the next token if it has a type. -/
  | accept (type : TokenType)
  /-- Ask whether the input has been consumed to its end. -/
  | atEnd
deriving Repr, DecidableEq

/-- What a call returns. -/
inductive Answer where
  /-- The token that a look ahead found, if any. -/
  | ahead (token : Option Token)
  /-- The token that was removed. -/
  | taken (token : Token)
  /-- Yes or no. -/
  | said (reply : Bool)
deriving Repr, DecidableEq

namespace Call

/-- How many of the tokens that are left a call has to see. -/
def needs : Call → Nat
  | peek distance => (distance + 1).toNat
  | consume _ | accept _ | atEnd => 1

/-- What a call returns or fails with on a plain list of tokens, and what it leaves of the list. -/
def onList : Call → List Token → Except Error Answer × List Token
  | peek distance, left =>
    if distance < 0 then (.error (.value (.negativeDistance distance)), left)
    else (.ok (.ahead left[distance.toNat]?), left)
  | consume expected, [] => (.error (.parse (.endOfInput expected)), [])
  | consume none, token :: rest => (.ok (.taken token), rest)
  | consume (some type), token :: rest =>
    -- A token of another type is gone as well.
    if token.type = type then (.ok (.taken token), rest)
    else (.error (.parse (.unexpectedToken token type)), rest)
  | accept _, [] => (.ok (.said false), [])
  | accept type, token :: rest =>
    if token.type = type then (.ok (.said true), rest) else (.ok (.said false), token :: rest)
  | atEnd, left => (.ok (.said left.isEmpty), left)

/-- What calls in turn leave of a list of tokens. -/
def leaves : List Call → List Token → List Token
  | [], left => left
  | call :: calls, left => leaves calls (call.onList left).2

/-- Whether some of the calls, at its turn, needs a token past the last. -/
def overrun : List Call → List Token → Bool
  | [], _ => false
  | call :: calls, left => left.length < call.needs || overrun calls (call.onList left).2

/-- A call removes the first token of a list or none. -/
theorem onList_suffix (call : Call) (left : List Token) : (call.onList left).2 <:+ left := by
  -- A look ahead leaves the list whole, and so does whatever meets an empty one.
  cases call with
  | peek distance =>
    simp only [onList]
    split <;> exact List.suffix_refl left
  | atEnd => exact List.suffix_refl left
  | consume expected =>
    cases left with
    | nil => exact List.suffix_refl []
    | cons token rest =>
      -- The first token is gone whatever was expected.
      cases expected with
      | none => exact List.suffix_cons token rest
      | some type =>
        simp only [onList]
        split <;> exact List.suffix_cons token rest
  | accept type =>
    cases left with
    | nil => exact List.suffix_refl []
    | cons token rest =>
      simp only [onList]
      split
      · exact List.suffix_cons token rest
      · exact List.suffix_refl _

/-- A list with fewer than one token is empty. -/
theorem nothing_left {left : List Token} (short : left.length < 1) : left = [] :=
  List.eq_nil_iff_length_eq_zero.mpr (Nat.lt_one_iff.mp short)

/-- A call that needs a token past the last removes nothing. -/
theorem onList_short {call : Call} {left : List Token} (short : left.length < call.needs) :
    (call.onList left).2 = left := by
  -- Only two kinds of call remove a token, and they need no other than that one.
  cases call with
  | peek distance =>
    simp only [onList]
    split <;> rfl
  | atEnd => rfl
  | consume expected =>
    obtain rfl := nothing_left short
    rfl
  | accept type =>
    obtain rfl := nothing_left short
    rfl

/-- Calls in turn leave an end of the list: nothing is lost, repeated or moved. -/
theorem leaves_suffix (calls : List Call) (left : List Token) : leaves calls left <:+ left := by
  -- Along the calls, each of which leaves an end of what the one before left.
  induction calls generalizing left with
  | nil => exact List.suffix_refl left
  | cons call calls ih => exact (ih (call.onList left).2).trans (call.onList_suffix left)

end Call

/-- Makes a call on a cursor. -/
def Cursor.call (cursor : Cursor) : Call → Except Error Answer × Cursor
  | .peek distance => ((cursor.peekAt distance).1.map .ahead, (cursor.peekAt distance).2)
  | .consume expected => ((cursor.consume expected).1.map .taken, (cursor.consume expected).2)
  | .accept type => ((cursor.accept type).1.map .said, (cursor.accept type).2)
  | .atEnd => (cursor.atEnd.1.map .said, cursor.atEnd.2)

namespace Cursor

/-- A call that needs no token past the last, or finds no failure there, is answered from the list
of tokens and leaves the failure where it is. -/
theorem call_answered {request : Call} {left : List Token} {failure : Option Error}
    (answered : request.needs ≤ left.length ∨ failure = none) :
    (⟨left, failure⟩ : Cursor).call request
      = ((request.onList left).1, ⟨(request.onList left).2, failure⟩) := by
  -- Where there is a token to see, the failure is not looked at.
  cases request with
  | peek distance =>
    simp only [call, peekAt, Call.onList]
    by_cases back : distance < 0
    · -- A look back is refused before anything is looked at.
      rw [if_pos back, if_pos back]
      rfl
    · rw [if_neg back, if_neg back]
      simp only [Cursor.peek]
      cases found : left[distance.toNat]? with
      | some token => rfl
      | none =>
        -- The place is past the last token, so the list has no failure after it.
        have past : left.length ≤ distance.toNat := List.getElem?_eq_none_iff.mp found
        have calm : failure = none := by
          rcases answered with near | calm
          · simp only [Call.needs] at near
            omega
          · exact calm
        rw [calm]
        rfl
  | consume expected =>
    cases left with
    | nil =>
      -- One token is needed and none is left, so there is no failure.
      obtain rfl : failure = none := by simpa [Call.needs] using answered
      rfl
    | cons token rest =>
      cases expected with
      | none => rfl
      | some type =>
        simp only [call, consume, take, Call.onList]
        split <;> rfl
  | accept type =>
    cases left with
    | nil =>
      obtain rfl : failure = none := by simpa [Call.needs] using answered
      rfl
    | cons token rest =>
      simp only [call, accept, Call.onList]
      split <;> rfl
  | atEnd =>
    cases left with
    | nil =>
      obtain rfl : failure = none := by simpa [Call.needs] using answered
      rfl
    | cons token rest => rfl

/-- A call that needs a token past the last brings up the failure that is there, and removes
nothing. -/
theorem call_overrun {request : Call} {left : List Token} {failure : Error}
    (short : left.length < request.needs) :
    (⟨left, some failure⟩ : Cursor).call request = (.error failure, ⟨left, none⟩) := by
  cases request with
  | peek distance =>
    -- The place is past the last token, and it is not behind.
    simp only [Call.needs] at short
    have ahead : ¬distance < 0 := by omega
    have past : left[distance.toNat]? = none := List.getElem?_eq_none_iff.mpr (by omega)
    simp only [call, peekAt, if_neg ahead, Cursor.peek, past]
    rfl
  | consume expected =>
    obtain rfl := Call.nothing_left short
    rfl
  | accept type =>
    obtain rfl := Call.nothing_left short
    rfl
  | atEnd =>
    obtain rfl := Call.nothing_left short
    rfl

end Cursor

namespace Buffer

/-- Makes a call on a buffer. -/
def call (buffer : Buffer) : Call → Except Error Answer × Buffer
  | .peek distance => ((buffer.peekAt distance).1.map .ahead, (buffer.peekAt distance).2)
  | .consume expected => ((buffer.consume expected).1.map .taken, (buffer.consume expected).2)
  | .accept type => ((buffer.accept type).1.map .said, (buffer.accept type).2)
  | .atEnd => (buffer.atEnd.1.map .said, buffer.atEnd.2)

/-- Makes calls in turn: the answers to them, and the buffer after the last. -/
def calls : List Call → Buffer → List (Except Error Answer) × Buffer
  | [], buffer => ([], buffer)
  | request :: requests, buffer =>
    let (answer, next) := buffer.call request
    let (answers, last) := calls requests next
    (answer :: answers, last)

variable {buffer : Buffer} {cursor : Cursor}

/-- Operations that match still do with their results renamed. -/
theorem Matches.map {α β : Type} {actual : Except Error α × Buffer}
    {expected : Except Error α × Cursor} (matched : Matches actual expected) (rename : α → β) :
    Matches (actual.1.map rename, actual.2) (expected.1.map rename, expected.2) :=
  ⟨congrArg (Except.map rename) matched.outcome, matched.left⟩

/-- Every call on a buffer does what it does on the list of what is left. -/
theorem call_matches (shown : buffer.Shows cursor) (request : Call) :
    Matches (buffer.call request) (cursor.call request) := by
  cases request with
  | peek distance => exact (peekAt_matches shown distance).map Answer.ahead
  | consume expected => exact (consume_matches shown expected).map Answer.taken
  | accept type => exact (accept_matches shown type).map Answer.said
  | atEnd => exact (atEnd_matches shown).map Answer.said

/-- Calls in turn leave the buffer with what they leave of the list, and with the failure after it
unless one of them has come to it. -/
theorem calls_left (requests : List Call) {left : List Token} {failure : Option Error}
    (shown : buffer.Shows ⟨left, failure⟩) :
    (calls requests buffer).2.Shows
      ⟨Call.leaves requests left, if Call.overrun requests left then none else failure⟩ := by
  -- Along the calls; the list that is left and the failure after it carry the induction.
  induction requests generalizing buffer left failure with
  | nil => exact shown
  | cons request requests ih =>
    have next := (call_matches shown request).left
    by_cases short : left.length < request.needs
    · -- The source is asked past its last token, where it fails at most once.
      have kept := Call.onList_short short
      have calm : ((⟨left, failure⟩ : Cursor).call request).2 = ⟨left, none⟩ := by
        cases failure with
        | none => rw [Cursor.call_answered (.inr rfl), kept]
        | some failure => rw [Cursor.call_overrun short]
      rw [calm] at next
      have last := ih next
      simp only [calls, Call.leaves, Call.overrun, short, kept, decide_true, Bool.true_or, if_true]
      simpa only [ite_self] using last
    · -- All that the call needs is there, so the failure stays ahead.
      rw [Cursor.call_answered (.inl (Nat.not_lt.mp short))] at next
      have last := ih next
      simpa only [calls, Call.leaves, Call.overrun, short, decide_false, Bool.false_or] using last

/-- As many calls to consume as there are tokens left deliver them all, in their order. -/
theorem calls_drain {left : List Token} {failure : Option Error}
    (shown : buffer.Shows ⟨left, failure⟩) :
    (calls (List.replicate left.length (.consume none)) buffer).1
      = left.map fun token => .ok (.taken token) := by
  -- Along the list: each call removes its first token, and the failure stays ahead.
  induction left generalizing buffer with
  | nil => rfl
  | cons token rest ih =>
    obtain ⟨outcome, next⟩ := call_matches shown (.consume none)
    have inside : (Call.consume none).needs ≤ (token :: rest).length := Nat.le_add_left 1 _
    rw [Cursor.call_answered (.inl inside)] at outcome next
    simp only [List.length_cons, List.replicate_succ, calls, outcome, ih next]
    rfl

/--
Calls are answered from the tokens that are left. After any calls, whatever they were, a buffer on a
source answers the next one as the list of the tokens left does, except that the failure of the
source is raised by the first call that needs a token past the last. What is left is always an end
of the tokens of the source, and all of it is still delivered, in its order.
-/
theorem calls_are_answered_from_the_tokens_left (tokens : List Token) (failure : Option Error)
    (before : List Call) (request : Call) :
    let buffer := (calls before (ofSource { feed := .listed tokens failure })).2
    let left := Call.leaves before tokens
    (buffer.call request).1
        = (match failure with
          | some error =>
            if left.length < request.needs && !Call.overrun before tokens then .error error
            else (request.onList left).1
          | none => (request.onList left).1) ∧
      left <:+ tokens ∧
      (calls (List.replicate left.length (.consume none)) buffer).1
        = left.map fun token => .ok (.taken token) := by
  intro buffer left
  have shown := calls_left before
    (shows_ofSource ({ feed := .listed tokens failure } : Source) trivial)
  refine ⟨?_, Call.leaves_suffix before tokens, calls_drain shown⟩
  have outcome := (call_matches shown request).outcome
  rw [outcome]
  -- The failure is ahead unless a call before has come to it.
  cases failure with
  | none =>
    rw [ite_self]
    exact congrArg Prod.fst (Cursor.call_answered (.inr rfl))
  | some error =>
    by_cases passed : Call.overrun before tokens
    · simp only [passed, Bool.not_true, Bool.and_false]
      exact congrArg Prod.fst (Cursor.call_answered (.inr rfl))
    · -- It is still ahead, so the call meets it exactly if it needs a token past the last.
      by_cases short : left.length < request.needs
      · simp only [passed, short]
        exact congrArg Prod.fst (Cursor.call_overrun short)
      · simp only [passed, short]
        exact congrArg Prod.fst (Cursor.call_answered (.inl (Nat.not_lt.mp short)))

-- A look two ahead meets the failure after two tokens, which both are still delivered.
example (first second : Token) (failure : Error) :
    (calls [.peek 2, .consume none, .peek 1, .consume none, .atEnd]
      (ofSource { feed := .listed [first, second] (some failure) })).1
      = [.error failure, .ok (.taken first), .ok (.ahead none), .ok (.taken second),
        .ok (.said true)] := rfl

end Buffer

end Climb
