import Climb.Proofs.Token.Asking
import Climb.Proofs.Token.Calls

/-! A source is read up to the furthest place that a call has to see, and no further. -/

namespace Climb

namespace Call

/-- Up to which place of the source a call has to see, after some tokens have been consumed. A look
back sees nothing. -/
def reach (consumed : Nat) : Call → Nat
  | peek distance => if distance < 0 then 0 else consumed + distance.toNat + 1
  | consume _ | accept _ | atEnd => consumed + 1

/-- The furthest place up to which calls in turn have to see, where `total` tokens were there at the
start and some are left of them. -/
def furthest (total : Nat) : List Call → List Token → Nat
  | [], _ => 0
  | call :: calls, left =>
    max (call.reach (total - left.length)) (furthest total calls (call.onList left).2)

end Call

namespace Buffer

/-- A buffer whose source has been read up to a place, or has ended before that. -/
structure Reached (tokens : List Token) (place : Nat) (buffer : Buffer) : Prop where
  supply : buffer.source.feed.Ends
  pending : buffer.pending = ⟨tokens.drop buffer.source.pulled, none⟩
  pulled : buffer.source.pulled = min place tokens.length
  ends : buffer.source.ends = if tokens.length < place then 1 else 0
  exhausted : buffer.exhausted = decide (tokens.length < place)

variable {buffer : Buffer} {tokens left : List Token} {place further : Nat}

/-- A buffer that has read nothing has reached no place. -/
theorem reached_ofSource {feed : Feed} (ends : feed.Ends)
    (supplies : feed.cursor = ⟨tokens, none⟩) :
    Reached tokens 0 (ofSource { feed := feed }) where
  supply := ends
  pending := by simpa [pending, ofSource] using supplies
  pulled := by simp [ofSource]
  ends := by simp [ofSource]
  exhausted := by simp [ofSource]

/-- A look ahead leaves the buffer that filling the queue leaves. -/
theorem peek_left (buffer : Buffer) (distance : Nat) :
    (buffer.peek distance).2 = (fill (distance + 1 - buffer.queue.length) buffer).2 := by
  unfold peek
  rcases fill (distance + 1 - buffer.queue.length) buffer with ⟨failure | _ | _, after⟩ <;> rfl

/-- Consuming a token leaves the buffer that taking it leaves. -/
theorem consume_left (buffer : Buffer) (expected : Option TokenType) :
    (buffer.consume expected).2 = buffer.take.2 := by
  unfold consume
  rcases buffer.take with ⟨failure | _ | token, after⟩
  · rfl
  · rfl
  · -- A token is gone before its type is looked at.
    cases expected with
    | none => rfl
    | some type =>
      dsimp only
      split <;> rfl

/-- Accepting a token leaves the buffer that a look at it leaves, but for the queue. -/
theorem accept_left (buffer : Buffer) (type : TokenType) :
    ∃ queue, (buffer.accept type).2 = { (buffer.peek 0).2 with queue := queue } := by
  unfold accept
  rcases buffer.peek 0 with ⟨failure | _ | token, after⟩
  · exact ⟨_, rfl⟩
  · exact ⟨_, rfl⟩
  · dsimp only
    split <;> exact ⟨_, rfl⟩

/-- Asking for the end leaves the buffer that a look at the next token leaves. -/
theorem atEnd_left (buffer : Buffer) : buffer.atEnd.2 = (buffer.peek 0).2 := by
  unfold atEnd
  rcases buffer.peek 0 with ⟨failure | ahead, after⟩ <;> rfl

namespace Reached

/-- What waits in the queue plays no part in how far the source has been read. -/
theorem withQueue (reached : Reached tokens place buffer) (queue : List Token) :
    Reached tokens place { buffer with queue := queue } :=
  ⟨reached.supply, reached.pending, reached.pulled, reached.ends, reached.exhausted⟩

/-- A source that has ended is read up to every place there may be. -/
theorem past (reached : Reached tokens place buffer) (ended : tokens.length < place)
    (more : place ≤ further) : Reached tokens further buffer where
  supply := reached.supply
  pending := reached.pending
  pulled := by rw [reached.pulled]; omega
  ends := by rw [reached.ends, if_pos ended, if_pos (by omega)]
  exhausted := by rw [reached.exhausted, decide_eq_true ended, decide_eq_true (by omega)]

/-- No more tokens have been taken than places reached. -/
theorem pulled_le (reached : Reached tokens place buffer) : buffer.source.pulled ≤ place := by
  rw [reached.pulled]
  exact Nat.min_le_left _ _

/-- Pulling reads one place further, unless the source has ended before. -/
theorem pull (reached : Reached tokens place buffer) :
    buffer.pull.1 = .ok tokens[buffer.source.pulled]? ∧
      Reached tokens (max place (buffer.source.pulled + 1)) buffer.pull.2 := by
  obtain ⟨supply, pending, pulled, ends, exhausted⟩ := reached
  obtain ⟨outcome, supplies, rest, -⟩ := pull_pending supply
  rw [pending] at outcome rest
  by_cases past : tokens.length < place
  · -- The end is remembered, and the source is not asked.
    have spent : buffer.exhausted = true := by rw [exhausted, decide_eq_true past]
    have all : buffer.source.pulled = tokens.length := by omega
    have same : max place (buffer.source.pulled + 1) = place := by omega
    rw [pull_over spent, same, all, List.getElem?_eq_none (Nat.le_refl _)]
    exact ⟨rfl, supply, pending, pulled, ends, exhausted⟩
  · have active : buffer.exhausted = false := by rw [exhausted, decide_eq_false past]
    have here : buffer.source.pulled = place := by omega
    rw [here, Nat.max_eq_right (Nat.le_succ place)]
    rw [here] at outcome rest
    rw [if_neg past] at ends
    rcases found : buffer.source.feed.next with ⟨answer, feed⟩
    by_cases more : place < tokens.length
    · -- The next token is there, and is counted.
      rw [List.drop_eq_getElem_cons more] at outcome rest
      obtain rfl : answer = .ok (some tokens[place]) := by
        match answer with
        | .error failure => rw [pull_failure active found] at outcome; exact outcome
        | .ok none => rw [pull_end active found] at outcome; exact outcome
        | .ok (some token) => rw [pull_token active found] at outcome; exact outcome
      rw [pull_token active found] at rest supplies ⊢
      rw [List.getElem?_eq_getElem more]
      refine ⟨rfl, supplies, ?_, ?_, ?_, ?_⟩
      · rw [rest]
        simp only [Cursor.take, here]
      · simp only [here]
        omega
      · simp only [ends]
        rw [if_neg (by omega)]
      · simp only [active]
        rw [eq_comm, decide_eq_false_iff_not]
        omega
    · -- The source reports its end, which is counted and remembered.
      have none : tokens.drop place = [] := List.drop_eq_nil_of_le (by omega)
      rw [none] at outcome rest
      obtain rfl : answer = .ok .none := by
        match answer with
        | .error failure => rw [pull_failure active found] at outcome; exact outcome
        | .ok .none => rfl
        | .ok (some token) => rw [pull_token active found] at outcome; exact outcome
      rw [pull_end active found] at rest supplies ⊢
      rw [List.getElem?_eq_none (by omega)]
      refine ⟨rfl, supplies, ?_, ?_, ?_, ?_⟩
      · rw [rest]
        simp only [Cursor.take, here, none]
      · simp only [here]
        omega
      · simp only [ends]
        rw [if_pos (by omega)]
      · rw [eq_comm, decide_eq_true_iff]
        omega

/-- Filling the queue reads as many places further as are missing, unless the source ends before. -/
theorem fill (missing : Nat) : ∀ {place : Nat} {buffer : Buffer}, Reached tokens place buffer →
    Reached tokens (max place (buffer.source.pulled + missing)) (fill missing buffer).2 := by
  -- Each pull reads one place further, and the first one past the end ends the filling.
  induction missing with
  | zero =>
    intro place buffer reached
    rw [Nat.add_zero, Nat.max_eq_left reached.pulled_le]
    exact reached
  | succ missing ih =>
    intro place buffer reached
    obtain ⟨outcome, next⟩ := reached.pull
    rcases pulled : buffer.pull with ⟨answer, after⟩
    simp only [pulled] at outcome next
    subst outcome
    cases found : tokens[buffer.source.pulled]? with
    | none =>
      have beyond := List.getElem?_eq_none_iff.1 found
      simp only [Buffer.fill, pulled, found]
      exact next.past (by omega) (by omega)
    | some token =>
      obtain ⟨inside, -⟩ := List.getElem?_eq_some_iff.1 found
      have place' := next.pulled
      have before := reached.pulled
      have later := ih (next.withQueue (after.queue ++ [token]))
      have same : max (max place (buffer.source.pulled + 1)) (after.source.pulled + missing)
          = max place (buffer.source.pulled + (missing + 1)) := by omega
      rw [same] at later
      simpa only [Buffer.fill, pulled, found] using later

/-- What waits in the queue is what has been taken and not consumed. -/
theorem queue_length (reached : Reached tokens place buffer) (shown : buffer.Shows ⟨left, none⟩)
    (suffix : left <:+ tokens) :
    buffer.source.pulled = tokens.length - left.length + buffer.queue.length := by
  have whole := congrArg (fun cursor => cursor.tokens.length) shown.same
  simp only [Buffer.cursor, reached.pending, List.length_append, List.length_drop] at whole
  have shorter := suffix.length_le
  have pulled := reached.pulled
  omega

/-- Looking ahead reads up to the place that is looked at. -/
theorem peek (reached : Reached tokens place buffer) (shown : buffer.Shows ⟨left, none⟩)
    (suffix : left <:+ tokens) (distance : Nat) :
    Reached tokens (max place (tokens.length - left.length + distance + 1))
      (buffer.peek distance).2 := by
  -- What waits in the queue need not be pulled for the look.
  have waiting := reached.queue_length shown suffix
  have near := reached.pulled_le
  have filled := reached.fill (distance + 1 - buffer.queue.length)
  have same : max place (buffer.source.pulled + (distance + 1 - buffer.queue.length))
      = max place (tokens.length - left.length + distance + 1) := by omega
  rw [peek_left, ← same]
  exact filled

/-- Taking a token reads up to the next place. -/
theorem take (reached : Reached tokens place buffer) (shown : buffer.Shows ⟨left, none⟩)
    (suffix : left <:+ tokens) :
    Reached tokens (max place (tokens.length - left.length + 1)) buffer.take.2 := by
  have waiting := reached.queue_length shown suffix
  cases queue : buffer.queue with
  | nil =>
    -- Nothing waits, so the next place is the next one of the source.
    rw [queue, List.length_nil, Nat.add_zero] at waiting
    rw [take_pulled queue, ← waiting]
    exact reached.pull.2
  | cons token rest =>
    -- A token that waits has been reached before.
    have near := reached.pulled_le
    rw [queue, List.length_cons] at waiting
    rw [take_queued queue, Nat.max_eq_left (by omega)]
    exact reached.withQueue rest

/-- A call reads up to the place that it has to see, and no further. -/
theorem call (reached : Reached tokens place buffer) (shown : buffer.Shows ⟨left, none⟩)
    (suffix : left <:+ tokens) (request : Call) :
    Reached tokens (max place (request.reach (tokens.length - left.length)))
      (buffer.call request).2 := by
  -- Accepting and asking for the end look one place ahead; a negative look does not reach the
  -- source.
  cases request with
  | peek distance =>
    simp only [Buffer.call, peekAt, Call.reach]
    split
    · rw [Nat.max_eq_left (Nat.zero_le place)]
      exact reached
    · exact reached.peek shown suffix distance.toNat
  | consume expected =>
    simp only [Buffer.call, consume_left, Call.reach]
    exact reached.take shown suffix
  | accept type =>
    obtain ⟨queue, same⟩ := buffer.accept_left type
    simp only [Buffer.call, same, Call.reach]
    exact (reached.peek shown suffix 0).withQueue queue
  | atEnd =>
    simp only [Buffer.call, atEnd_left, Call.reach]
    exact reached.peek shown suffix 0

/-- Calls in turn read up to the furthest place that one of them has to see. -/
theorem calls (requests : List Call) : ∀ {place : Nat} {buffer : Buffer} {left : List Token},
    Reached tokens place buffer → buffer.Shows ⟨left, none⟩ → left <:+ tokens →
      Reached tokens (max place (Call.furthest tokens.length requests left))
        (calls requests buffer).2 := by
  induction requests with
  | nil =>
    intro place buffer left reached _ _
    rw [Call.furthest, Nat.max_eq_left (Nat.zero_le place)]
    exact reached
  | cons request requests ih =>
    intro place buffer left reached shown suffix
    -- What the call leaves of the list is what the later ones start from.
    have next := (call_matches shown request).left
    rw [Cursor.call_answered (.inr rfl)] at next
    have later := ih (reached.call shown suffix request) next
      ((request.onList_suffix left).trans suffix)
    rw [Nat.max_assoc] at later
    exact later

end Reached

/-- Past the end of the source, filling the queue changes nothing. -/
theorem fill_over (spent : buffer.exhausted = true) (missing : Nat) :
    (fill missing buffer).2 = buffer := by
  -- The first pull answers that the source is over, and the filling stops.
  cases missing with
  | zero => rfl
  | succ missing => simp only [fill, pull_over spent]

/-- Past the end of the source, taking a token leaves the source alone. -/
theorem take_over (spent : buffer.exhausted = true) :
    buffer.take.2.exhausted = true ∧ buffer.take.2.source = buffer.source := by
  -- What waits in the queue may still be taken.
  cases queue : buffer.queue with
  | nil =>
    rw [take_pulled queue, pull_over spent]
    exact ⟨spent, rfl⟩
  | cons token rest =>
    rw [take_queued queue]
    exact ⟨spent, rfl⟩

/-- Past the end of the source, a call leaves the source alone. -/
theorem call_over (spent : buffer.exhausted = true) (request : Call) :
    (buffer.call request).2.exhausted = true ∧
      (buffer.call request).2.source = buffer.source := by
  have seen : ∀ distance, (buffer.peek distance).2 = buffer := fun distance => by
    rw [peek_left, fill_over spent]
  cases request with
  | peek distance =>
    simp only [call, peekAt]
    split
    · exact ⟨spent, rfl⟩
    · rw [seen]
      exact ⟨spent, rfl⟩
  | consume expected =>
    simp only [call, consume_left]
    exact take_over spent
  | accept type =>
    obtain ⟨queue, same⟩ := buffer.accept_left type
    rw [call, same, seen]
    exact ⟨spent, rfl⟩
  | atEnd =>
    rw [call, atEnd_left, seen]
    exact ⟨spent, rfl⟩

/-- Once its source has ended, a buffer leaves it alone whatever is called. -/
theorem calls_over (requests : List Call) : ∀ {buffer : Buffer}, buffer.exhausted = true →
    (calls requests buffer).2.source = buffer.source := by
  induction requests with
  | nil => exact fun _ => rfl
  | cons request requests ih =>
    intro buffer spent
    obtain ⟨still, same⟩ := call_over spent request
    exact (ih still).trans same

/--
A source is read up to the furthest place that a call has to see, and each place once. After any
calls on a buffer over a source of some tokens, as many of them have been taken as the furthest
place says, or all. Those that have not been consumed wait in the queue. The source has reported its
end once if the furthest place is past the last token, and then it is not asked again; else it has
not reported its end.
-/
theorem source_is_read_up_to_the_furthest_place {feed : Feed} {tokens : List Token}
    (ends : feed.Ends) (supplies : feed.cursor = ⟨tokens, none⟩) (requests : List Call) :
    let buffer := (calls requests (ofSource { feed := feed })).2
    let furthest := Call.furthest tokens.length requests tokens
    let consumed := tokens.length - (Call.leaves requests tokens).length
    buffer.source.pulled = min furthest tokens.length ∧
      buffer.queue = (tokens.take buffer.source.pulled).drop consumed ∧
      buffer.source.ends = (if tokens.length < furthest then 1 else 0) ∧
      (0 < buffer.source.ends → ∀ more, (calls more buffer).2.source = buffer.source) := by
  intro buffer furthest consumed
  have fresh : (ofSource { feed := feed }).Shows ⟨tokens, none⟩ :=
    supplies ▸ shows_ofSource { feed := feed } ends
  -- A fresh buffer has reached no place, so the furthest of the calls is what is left.
  have reached : Reached tokens furthest buffer := by
    have whole := (reached_ofSource ends supplies).calls requests fresh (List.suffix_refl tokens)
    rwa [Nat.max_eq_right (Nat.zero_le _)] at whole
  have shown : buffer.Shows ⟨Call.leaves requests tokens, none⟩ := by
    simpa only [ite_self] using calls_left requests fresh
  have suffix := Call.leaves_suffix requests tokens
  refine ⟨reached.pulled, ?_, reached.ends, fun reported more => calls_over more ?_⟩
  · -- What is left is the queue before what has not been taken.
    have waiting := reached.queue_length shown suffix
    have few := reached.pulled
    have inside : consumed ≤ (tokens.take buffer.source.pulled).length := by
      rw [List.length_take]
      omega
    have parts : tokens.drop consumed
        = (tokens.take buffer.source.pulled).drop consumed ++ tokens.drop buffer.source.pulled := by
      rw [← List.drop_append_of_le_length inside, List.take_append_drop]
    have whole : buffer.queue ++ tokens.drop buffer.source.pulled = tokens.drop consumed := by
      have same := congrArg Cursor.tokens shown.same
      simp only [cursor, reached.pending] at same
      rw [same]
      exact List.suffix_iff_eq_drop.1 suffix
    exact List.append_cancel_right (whole.trans parts)
  · rw [reached.exhausted]
    rw [reached.ends] at reported
    by_cases past : tokens.length < furthest
    · exact decide_eq_true past
    · rw [if_neg past] at reported
      exact absurd reported (Nat.lt_irrefl 0)

/-- Two tokens of a short text are consumed, one of which is of the wrong type. A look far past the
end brings its report, and the look after that does not ask again. -/
theorem far_look_ends_a_short_text :
    let feed : Feed := .scanned (.ofString "a+b")
    let tokens : List Token := [.ofKind .name "a", .ofKind .plus "+", .ofKind .name "b"]
    let requests : List Call := [.peek 1, .consume (some (.kind .number)), .accept (.kind .plus),
      .peek (-1), .peek 6, .peek 9]
    let buffer := (calls requests (ofSource { feed := feed })).2
    feed.Ends ∧ feed.cursor = ⟨tokens, none⟩ ∧
      Call.furthest 3 requests tokens = 12 ∧ Call.leaves requests tokens = tokens.drop 2 ∧
      buffer.source.pulled = 3 ∧ buffer.queue = [.ofKind .name "b"] ∧ buffer.source.ends = 1 := by
  intro feed tokens requests
  have supplies : feed.cursor = ⟨tokens, none⟩ := rfl
  have furthest : Call.furthest tokens.length requests tokens = 12 := by decide
  have left : Call.leaves requests tokens = tokens.drop 2 := by decide
  have ends : feed.Ends := trivial
  have read := source_is_read_up_to_the_furthest_place ends supplies requests
  simp only [furthest, left] at read
  -- The buffer is not to be computed, since all that is said of it is known.
  revert read
  generalize (calls requests (ofSource { feed := feed })).2 = buffer
  intro read
  obtain ⟨pulled, queue, ended, -⟩ := read
  rw [show min 12 tokens.length = 3 from rfl] at pulled
  rw [pulled] at queue
  rw [if_pos (show tokens.length < 12 by decide)] at ended
  exact ⟨ends, supplies, furthest, left, pulled, queue, ended⟩

end Buffer

end Climb
