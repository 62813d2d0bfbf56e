import Climb.Proofs.Token.Cursor

/-! Sources that give the same answers cannot be told apart by what is asked of them. -/

namespace Climb

namespace Feed

/-- What a supply answers when it has been asked a number of times before. -/
def ask : Nat → Feed → Except Error (Option Token)
  | 0, feed => feed.next.1
  | earlier + 1, feed => ask earlier feed.next.2

/-- What is left of a supply answers as it would have, one question later. -/
theorem ask_next {feed after : Feed} {answer : Except Error (Option Token)}
    (found : feed.next = (answer, after)) (place : Nat) :
    after.ask place = feed.ask (place + 1) := by
  simp only [ask, found]

/-- The next answer of a supply is its first. -/
theorem ask_zero {feed after : Feed} {answer : Except Error (Option Token)}
    (found : feed.next = (answer, after)) : feed.ask 0 = answer := by
  simp only [ask, found]

/-- A text answers like the list of its tokens, followed by its fault if it has one. -/
theorem ask_scanned (earlier : Nat) (text : Scanner) :
    (scanned text).ask earlier = (listed text.tokens.1 text.tokens.2.1).ask earlier := by
  -- One token after another; at the end or a fault both have come to an end of the same kind.
  induction earlier generalizing text with
  | zero =>
    rcases found : text.next with ⟨outcome, after⟩
    match outcome with
    | .ok none => simp [ask, Feed.next, found, Scanner.tokens_end found]
    | .error fault => simp [ask, Feed.next, found, Scanner.tokens_fault found]
    | .ok (some token) => simp [ask, Feed.next, found, Scanner.tokens_cons found]
  | succ earlier ih =>
    rcases found : text.next with ⟨outcome, after⟩
    match outcome with
    | .ok none =>
      obtain ⟨none, calm⟩ := Scanner.tokens_nil (Scanner.next_end found)
      simp [ask, Feed.next, found, Scanner.tokens_end found, ih, none, calm]
    | .error fault => simp [ask, Feed.next, found, Scanner.tokens_fault found]
    | .ok (some token) => simp [ask, Feed.next, found, Scanner.tokens_cons found, ih]

/-- A list answers with its tokens, whatever comes behind them. -/
theorem ask_listed {tokens : List Token} {earlier : Nat} (inside : earlier < tokens.length)
    (failure : Option Error) :
    (listed tokens failure).ask earlier = .ok (some tokens[earlier]) := by
  -- One question earlier, the list has one token more.
  induction earlier generalizing tokens with
  | zero =>
    cases tokens with
    | nil => simp at inside
    | cons token rest => rfl
  | succ earlier ih =>
    cases tokens with
    | nil => simp at inside
    | cons token rest => exact ih (Nat.lt_of_succ_lt_succ inside)

/-- A list that is asked past its last token answers with what comes behind it. -/
theorem ask_listed_past (tokens : List Token) (failure : Option Error) :
    (listed tokens failure).ask tokens.length =
      match failure with
      | none => .ok none
      | some failure => .error failure := by
  induction tokens with
  | nil => cases failure <;> rfl
  | cons token rest ih => exact ih

/-- A list has only its tokens and its failure to answer with. -/
theorem ask_listed_only (earlier : Nat) (tokens : List Token) (failure : Option Error) :
    (∀ token, (listed tokens failure).ask earlier = .ok (some token) → token ∈ tokens) ∧
      ∀ fault, (listed tokens failure).ask earlier = .error fault → failure = some fault := by
  induction earlier generalizing tokens failure with
  | zero => cases tokens <;> cases failure <;> simp [ask, next, eq_comm]
  | succ earlier ih =>
    -- One question further the list is shorter, or is empty and has failed if it does.
    cases tokens with
    | cons first rest =>
      obtain ⟨delivers, fails⟩ := ih rest failure
      exact ⟨fun token answer => List.mem_cons_of_mem _ (delivers token answer), fails⟩
    | nil =>
      obtain ⟨delivers, fails⟩ := ih [] none
      cases failure with
      | none => exact ⟨delivers, fails⟩
      | some failure => exact ⟨delivers, fun fault answer => by simpa using fails fault answer⟩

end Feed

namespace Buffer

/-- How many answers of its source a buffer has got, apart from failures. -/
def asked (buffer : Buffer) : Nat :=
  buffer.source.pulled + buffer.source.ends

/-- How many tokens have gone through a buffer. -/
def consumed (buffer : Buffer) : Nat :=
  buffer.source.pulled - buffer.queue.length

variable {buffer : Buffer} {feed : Feed}

/-- Past the end a source is not asked. -/
theorem pull_over (spent : buffer.exhausted = true) : buffer.pull = (.ok none, buffer) := by
  simp only [pull, spent, if_true]

/-- The end of a source is written down. -/
theorem pull_end (active : buffer.exhausted = false)
    (answer : buffer.source.feed.next = (.ok none, feed)) :
    buffer.pull = (.ok none, { buffer with
      exhausted := true, source := ⟨feed, buffer.source.pulled, buffer.source.ends + 1⟩ }) := by
  simp only [pull, active, Source.next, answer]
  rfl

/-- A token of a source is counted. -/
theorem pull_token {token : Token} (active : buffer.exhausted = false)
    (answer : buffer.source.feed.next = (.ok (some token), feed)) :
    buffer.pull = (.ok (some token), { buffer with
      source := ⟨feed, buffer.source.pulled + 1, buffer.source.ends⟩ }) := by
  simp only [pull, active, Source.next, answer]
  rfl

/-- A failure of a source is passed on. -/
theorem pull_failure {failure : Error} (active : buffer.exhausted = false)
    (answer : buffer.source.feed.next = (.error failure, feed)) :
    buffer.pull = (.error failure, { buffer with
      source := ⟨feed, buffer.source.pulled, buffer.source.ends⟩ }) := by
  simp only [pull, active, Source.next, answer]
  rfl

/-- Pulling leaves the queue alone. -/
theorem pull_queue (buffer : Buffer) : buffer.pull.2.queue = buffer.queue := by
  unfold pull
  split
  · rfl
  · split <;> rfl

/-- A token that waits is the next one, and the source is not asked. -/
theorem peek_queued_first {token : Token} {rest : List Token}
    (waits : buffer.queue = token :: rest) : buffer.peek 0 = (.ok (some token), buffer) := by
  simp [peek, fill, waits]

/-- Where no token waits, the next one is pulled and then waits. -/
theorem peek_pulled (empty : buffer.queue = []) :
    buffer.peek 0 = (buffer.pull.1,
      { buffer.pull.2 with queue := (buffer.pull.1.toOption.join).toList }) := by
  -- Whatever is answered, only a token joins the queue.
  have one : 0 + 1 - buffer.queue.length = 1 := by simp [empty]
  have queue := buffer.pull_queue
  rcases pulled : buffer.pull with ⟨_ | _ | token, ⟨waiting, exhausted, source⟩⟩ <;>
    simp only [pulled, empty] at queue <;> subst queue <;>
    simp only [peek, one, fill, pulled, List.nil_append, List.getElem?_cons_zero] <;> rfl

/-- A token that has been seen waits. -/
theorem peek_waits {token : Token} {after : Buffer}
    (seen : buffer.peek 0 = (.ok (some token), after)) :
    ∃ rest, after.queue = token :: rest := by
  cases waiting : buffer.queue with
  | nil =>
    rw [peek_pulled waiting] at seen
    obtain ⟨pulled, rfl⟩ := Prod.ext_iff.1 seen
    exact ⟨[], by rw [show buffer.pull.1 = .ok (some token) from pulled]; rfl⟩
  | cons first rest =>
    rw [peek_queued_first waiting] at seen
    cases seen
    exact ⟨rest, waiting⟩

/-- Taking a token takes one that waits. -/
theorem take_queued {token : Token} {rest : List Token} (waits : buffer.queue = token :: rest) :
    buffer.take = (.ok (some token), { buffer with queue := rest }) := by
  simp only [take, waits]

/-- Where no token waits, one is taken from the source. -/
theorem take_pulled (empty : buffer.queue = []) : buffer.take = buffer.pull := by
  simp only [take, empty]

end Buffer

/-- A buffer has got all the answers that another has got, and perhaps more. -/
structure Buffer.Since (before after : Buffer) : Prop where
  pulled : before.source.pulled ≤ after.source.pulled
  ends : before.source.ends ≤ after.source.ends

/-- A buffer on a supply whose tokens have all gone through it, but for one that may wait. -/
structure Buffer.OneAhead (start : Feed) (buffer : Buffer) : Prop where
  narrow : buffer.queue.length + buffer.source.ends ≤ 1
  counted : buffer.queue.length ≤ buffer.source.pulled
  exhausted : buffer.exhausted = true ↔ buffer.source.ends = 1
  waits : ∀ token ∈ buffer.queue, start.ask buffer.consumed = .ok (some token)
  spent : buffer.source.ends = 1 → start.ask buffer.consumed = .ok none
  delivers : ∀ place < buffer.source.pulled, ∃ token, start.ask place = .ok (some token)
  rest : ∀ further, buffer.source.feed.ask further = start.ask (buffer.asked + further)

/-- A buffer that has nothing but some tokens and failures to come up with. -/
structure Buffer.Supplies (tokens : Token → Prop) (failures : Error → Prop) (buffer : Buffer) :
    Prop where
  waiting : ∀ token ∈ buffer.queue, tokens token
  delivers : ∀ place token, buffer.source.feed.ask place = .ok (some token) → tokens token
  fails : ∀ place failure, buffer.source.feed.ask place = .error failure → failures failure

/-- After a number of answers in all, the first source ends and the second one fails. -/
structure Buffer.Parting (horizon : Nat) (failure : Error) (one other : Buffer) : Prop where
  unended : one.source.ends = 0
  delivers : ∀ further, one.asked + further < horizon →
    ∃ token, one.source.feed.ask further = .ok (some token)
  ends : ∀ further, one.asked + further = horizon → one.source.feed.ask further = .ok none
  fails : ∀ further, one.asked + further = horizon →
    other.source.feed.ask further = .error failure

/--
Two buffers that have got the same answers so far, and whose sources go on alike up to a number of
answers in all. What comes after that may be known to be the end of one and a failure of the other.
-/
structure Buffer.InStep (horizon : Nat) (late : Option Error) (one other : Buffer) : Prop where
  queue : one.queue = other.queue
  exhausted : one.exhausted = other.exhausted
  pulled : one.source.pulled = other.source.pulled
  within : one.asked ≤ horizon
  same : ∀ further, one.asked + further < horizon →
    one.source.feed.ask further = other.source.feed.ask further
  parting : ∀ failure ∈ late, Parting horizon failure one other

/--
Two outcomes of an operation on buffers in step: they are the same, with the buffers in step again;
or the first buffer has asked for too much, and the second fails if its source is known to; or the
first has failed, where nothing was known.
-/
inductive Buffer.Parallel {α : Type} (horizon : Nat) (late : Option Error)
    (one other : Except Error α × Buffer) : Prop
  | along (outcome : one.1 = other.1) (left : InStep horizon late one.2 other.2)
  | beyond (far : horizon < one.2.asked)
    (fails : ∀ failure ∈ late, other.1 = .error failure ∧ 0 < one.2.source.ends)
  | broken (unknown : late = none) {failure : Error} (failed : one.1 = .error failure)

namespace Buffer

variable {horizon : Nat} {late : Option Error} {buffer one other before after : Buffer}
  {tokens : Token → Prop} {failures : Error → Prop} {start : Feed} {α β : Type}

/-- A buffer has got what it has got. -/
theorem Since.refl (buffer : Buffer) : buffer.Since buffer :=
  ⟨Nat.le_refl _, Nat.le_refl _⟩

/-- What has been got is kept. -/
theorem Since.trans {between : Buffer} (first : Since before between)
    (second : Since between after) : Since before after :=
  ⟨Nat.le_trans first.pulled second.pulled, Nat.le_trans first.ends second.ends⟩

/-- No answer has been taken back. -/
theorem Since.asked (since : Since before after) : before.asked ≤ after.asked :=
  Nat.add_le_add since.pulled since.ends

/-- Pulling takes no answer back. -/
theorem since_pull (buffer : Buffer) : buffer.Since buffer.pull.2 := by
  cases state : buffer.exhausted with
  | true => rw [pull_over state]; exact ⟨Nat.le_refl _, Nat.le_refl _⟩
  | false =>
    rcases answer : buffer.source.feed.next with ⟨_ | _ | token, feed⟩
    · rw [pull_failure state answer]; exact ⟨Nat.le_refl _, Nat.le_refl _⟩
    · rw [pull_end state answer]; exact ⟨Nat.le_refl _, Nat.le_succ _⟩
    · rw [pull_token state answer]; exact ⟨Nat.le_succ _, Nat.le_refl _⟩

/-- Looking at the next token takes no answer back. -/
theorem since_peek (buffer : Buffer) : buffer.Since (buffer.peek 0).2 := by
  cases waiting : buffer.queue with
  | nil => rw [peek_pulled waiting]; exact ⟨buffer.since_pull.pulled, buffer.since_pull.ends⟩
  | cons token rest => rw [peek_queued_first waiting]; exact ⟨Nat.le_refl _, Nat.le_refl _⟩

/-- Taking a token takes no answer back. -/
theorem since_take (buffer : Buffer) : buffer.Since buffer.take.2 := by
  cases waiting : buffer.queue with
  | nil => rw [take_pulled waiting]; exact buffer.since_pull
  | cons token rest => rw [take_queued waiting]; exact ⟨Nat.le_refl _, Nat.le_refl _⟩

/-- A token that is pulled is a token of the source, and a failure one of its failures. -/
theorem Supplies.pull (supplies : buffer.Supplies tokens failures) :
    buffer.pull.2.Supplies tokens failures ∧
      (∀ token, buffer.pull.1 = .ok (some token) → tokens token) ∧
      ∀ failure, buffer.pull.1 = .error failure → failures failure := by
  obtain ⟨waiting, delivers, fails⟩ := supplies
  cases state : buffer.exhausted with
  | true =>
    rw [pull_over state]
    exact ⟨⟨waiting, delivers, fails⟩, by simp, by simp⟩
  | false =>
    rcases found : buffer.source.feed.next with ⟨answer, feed⟩
    -- What the source supplies later, it supplied before.
    have laterDelivers : ∀ place token, feed.ask place = .ok (some token) → tokens token :=
      fun place token answer => delivers _ token ((Feed.ask_next found place).symm.trans answer)
    have laterFails : ∀ place failure, feed.ask place = .error failure → failures failure :=
      fun place failure answer => fails _ failure ((Feed.ask_next found place).symm.trans answer)
    match answer with
    | .error failure =>
      rw [pull_failure state found]
      refine ⟨⟨waiting, laterDelivers, laterFails⟩, by simp, ?_⟩
      simpa using fails 0 failure (Feed.ask_zero found)
    | .ok none =>
      rw [pull_end state found]
      exact ⟨⟨waiting, laterDelivers, laterFails⟩, by simp, by simp⟩
    | .ok (some token) =>
      rw [pull_token state found]
      refine ⟨⟨waiting, laterDelivers, laterFails⟩, ?_, by simp⟩
      simpa using delivers 0 token (Feed.ask_zero found)

/-- Looking at the next token brings up nothing but what the source supplies. -/
theorem Supplies.peek (supplies : buffer.Supplies tokens failures) :
    (buffer.peek 0).2.Supplies tokens failures ∧
      ∀ failure, (buffer.peek 0).1 = .error failure → failures failure := by
  cases waiting : buffer.queue with
  | nil =>
    obtain ⟨left, delivers, fails⟩ := supplies.pull
    rw [peek_pulled waiting]
    refine ⟨⟨fun token queued => ?_, left.delivers, left.fails⟩, fails⟩
    -- What waits now is the token that has been pulled.
    rcases pulled : buffer.pull.1 with failure | _ | next <;>
      simp [pulled, Except.toOption] at queued
    subst queued
    exact delivers _ pulled
  | cons token rest =>
    rw [peek_queued_first waiting]
    exact ⟨supplies, by simp⟩

/-- Taking a token takes one that the source supplies. -/
theorem Supplies.take (supplies : buffer.Supplies tokens failures) :
    buffer.take.2.Supplies tokens failures ∧
      (∀ token, buffer.take.1 = .ok (some token) → tokens token) ∧
      ∀ failure, buffer.take.1 = .error failure → failures failure := by
  cases waiting : buffer.queue with
  | nil =>
    rw [take_pulled waiting]
    exact supplies.pull
  | cons token rest =>
    have queued : ∀ other ∈ token :: rest, tokens other := waiting ▸ supplies.waiting
    rw [take_queued waiting]
    refine ⟨⟨fun other among => queued other (List.mem_cons_of_mem _ among), supplies.delivers,
      supplies.fails⟩, ?_, by simp⟩
    simpa using queued token List.mem_cons_self

/-- A buffer that has read nothing is not ahead at all. -/
theorem oneAhead_ofSource (feed : Feed) : (ofSource { feed := feed }).OneAhead feed where
  narrow := Nat.zero_le _
  counted := Nat.zero_le _
  exhausted := by simp [ofSource]
  waits := by simp [ofSource]
  spent := by simp [ofSource]
  delivers := by simp [ofSource]
  rest := by simp [ofSource, asked]

/-- Where no token waits, pulling goes ahead by one answer. -/
theorem OneAhead.pull {ahead : Option Token} (place : buffer.OneAhead start)
    (empty : buffer.queue = []) (pulled : buffer.pull.1 = .ok ahead) :
    start.ask buffer.consumed = .ok ahead ∧
      buffer.pull.2.source.pulled = buffer.source.pulled + ahead.toList.length ∧
      buffer.pull.2.source.ends + ahead.toList.length = 1 ∧
      (buffer.pull.2.exhausted = true ↔ buffer.pull.2.source.ends = 1) ∧
      (∀ place < buffer.pull.2.source.pulled, ∃ token, start.ask place = .ok (some token)) ∧
      ∀ further, buffer.pull.2.source.feed.ask further =
        start.ask (buffer.pull.2.asked + further) := by
  obtain ⟨narrow, counted, exhausted, waits, spent, delivers, rest⟩ := place
  have consumed : buffer.consumed = buffer.source.pulled := by simp [Buffer.consumed, empty]
  cases state : buffer.exhausted with
  | true =>
    have ended := exhausted.1 state
    rw [pull_over state] at pulled ⊢
    obtain rfl : none = ahead := by simpa using pulled
    exact ⟨spent ended, by simp, by simpa using ended, exhausted, delivers, rest⟩
  | false =>
    have active : buffer.source.ends = 0 := by
      have unended : ¬buffer.source.ends = 1 := fun ended => by
        simp [exhausted.2 ended] at state
      omega
    have asked : buffer.asked = buffer.source.pulled := by simp [Buffer.asked, active]
    rcases found : buffer.source.feed.next with ⟨answer, feed⟩
    -- The source is asked what the supply would have been asked after as many tokens.
    have first : start.ask buffer.source.pulled = answer := by
      rw [← Feed.ask_zero found, rest 0, asked, Nat.add_zero]
    have later : ∀ further, feed.ask further = start.ask (buffer.source.pulled + 1 + further) := by
      intro further
      rw [Feed.ask_next found, rest, asked]
      congr 1
      omega
    match answer with
    | .error failure =>
      rw [pull_failure state found] at pulled
      cases pulled
    | .ok none =>
      rw [pull_end state found] at pulled ⊢
      obtain rfl : none = ahead := by simpa using pulled
      refine ⟨consumed ▸ first, by simp, by simp [active], by simp [active], delivers, ?_⟩
      simpa [Buffer.asked, active] using later
    | .ok (some token) =>
      rw [pull_token state found] at pulled ⊢
      obtain rfl : some token = ahead := by simpa using pulled
      refine ⟨consumed ▸ first, by simp, by simp [active], by simp [active, state], ?_, ?_⟩
      · intro place before
        rcases Nat.lt_succ_iff_lt_or_eq.1 before with earlier | rfl
        · exact delivers place earlier
        · exact ⟨token, first⟩
      · simpa [Buffer.asked, active] using later

/-- After a look at the next token, that token or the end is all that the buffer is ahead by. -/
theorem OneAhead.peek {ahead : Option Token} (place : buffer.OneAhead start)
    (seen : (buffer.peek 0).1 = .ok ahead) :
    (buffer.peek 0).2.OneAhead start ∧ (buffer.peek 0).2.queue = ahead.toList ∧
      (buffer.peek 0).2.asked = (buffer.peek 0).2.consumed + 1 := by
  have narrow := place.narrow
  cases waiting : buffer.queue with
  | nil =>
    rw [peek_pulled waiting] at seen ⊢
    obtain ⟨answer, pulled, ended, exhausted, delivers, rest⟩ := place.pull waiting seen
    simp only [consumed, waiting, List.length_nil, Nat.sub_zero] at answer
    have queue : buffer.pull.1.toOption.join.toList = ahead.toList := by
      rw [show buffer.pull.1 = .ok ahead from seen]
      rfl
    rw [queue]
    -- A token that was pulled waits, and the end is remembered.
    cases ahead with
    | none =>
      simp only [Option.toList_none, List.length_nil, Nat.add_zero] at pulled ended
      refine ⟨⟨by simp [ended], by simp, exhausted, by simp, fun _ => ?_, delivers, rest⟩, rfl, ?_⟩
      · simpa [consumed, pulled] using answer
      · simp [asked, consumed, ended]
    | some token =>
      simp only [Option.toList_some, List.length_singleton, Nat.add_eq_right] at pulled ended
      refine ⟨⟨by simp [ended], by simp [pulled], exhausted, ?_, by simp [ended], delivers, rest⟩,
        rfl, ?_⟩
      · simpa [consumed, pulled] using answer
      · simp [asked, consumed, pulled, ended]
  | cons token rest =>
    rw [peek_queued_first waiting] at seen ⊢
    -- What waits is the one token that the buffer may be ahead by.
    obtain rfl : some token = ahead := by simpa using seen
    have counted := place.counted
    simp only [waiting, List.length_cons] at narrow counted
    obtain rfl : rest = [] := List.eq_nil_of_length_eq_zero (by omega)
    refine ⟨place, waiting, ?_⟩
    simp only [asked, consumed, waiting, List.length_cons, List.length_nil]
    omega

/-- Taking a token leaves a buffer that is ahead by nothing. -/
theorem OneAhead.take {ahead : Option Token} (place : buffer.OneAhead start)
    (taken : buffer.take.1 = .ok ahead) : buffer.take.2.OneAhead start := by
  have narrow := place.narrow
  cases waiting : buffer.queue with
  | nil =>
    rw [take_pulled waiting] at taken ⊢
    -- What is pulled goes straight through, and the queue stays empty.
    obtain ⟨answer, pulled, ended, exhausted, delivers, rest⟩ := place.pull waiting taken
    have empty : buffer.pull.2.queue = [] := buffer.pull_queue.trans waiting
    simp only [consumed, waiting, List.length_nil, Nat.sub_zero] at answer
    refine ⟨?_, by simp [empty], exhausted, by simp [empty], ?_, delivers, rest⟩
    · simp only [empty, List.length_nil]
      omega
    · intro spent
      obtain rfl : ahead = none := by
        cases ahead with
        | none => rfl
        | some token => simp at *; omega
      simpa [consumed, empty, pulled] using answer
  | cons token rest =>
    -- It was the only one that waited, and with it all tokens have gone through.
    obtain ⟨_, counted, exhausted, waits, spent, delivers, later⟩ := place
    rw [take_queued waiting]
    simp only [waiting, List.length_cons] at narrow counted
    obtain rfl : rest = [] := List.eq_nil_of_length_eq_zero (by omega)
    refine ⟨by simp only [List.length_nil]; omega, by simp, exhausted, by simp, ?_,
      delivers, later⟩
    intro ended
    simp only at ended
    omega

/-- One answer further, the sources part where they did. -/
theorem Parting.later {failure : Error} {token : Token} {feed otherFeed : Feed}
    {answer : Except Error (Option Token)} (parting : Parting horizon failure one other)
    (found : one.source.feed.next = (.ok (some token), feed))
    (otherFound : other.source.feed.next = (answer, otherFeed)) :
    Parting horizon failure
      { one with source := ⟨feed, one.source.pulled + 1, one.source.ends⟩ }
      { other with source := ⟨otherFeed, other.source.pulled + 1, other.source.ends⟩ } := by
  -- The place where they part is the same, and nearer by the answer that has been given.
  obtain ⟨unended, delivers, ends, fails⟩ := parting
  simp only [asked] at delivers ends fails
  refine ⟨unended, ?_, ?_, ?_⟩ <;> intro further place <;> simp only [asked] at place
  · rw [Feed.ask_next found]
    exact delivers _ (by omega)
  · rw [Feed.ask_next found]
    exact ends _ (by omega)
  · rw [Feed.ask_next otherFound]
    exact fails _ (by omega)

/-- An answer that the sources have in common leaves the buffers in step. -/
theorem pull_within (alike : InStep horizon late one other) (active : one.exhausted = false)
    (room : one.asked < horizon) : Parallel horizon late one.pull other.pull := by
  obtain ⟨queue, exhausted, pulled, within, same, parting⟩ := alike
  have otherActive : other.exhausted = false := exhausted.symm.trans active
  rcases found : one.source.feed.next with ⟨answer, feed⟩
  rcases otherFound : other.source.feed.next with ⟨otherAnswer, otherFeed⟩
  obtain rfl : answer = otherAnswer := by
    rw [← Feed.ask_zero found, ← Feed.ask_zero otherFound]
    exact same 0 room
  have later : ∀ further, one.asked + 1 + further < horizon →
      feed.ask further = otherFeed.ask further := by
    intro further room
    rw [Feed.ask_next found, Feed.ask_next otherFound]
    exact same _ (by omega)
  -- Where the sources are known to part later, this answer is a token.
  have delivers : ∀ failure ∈ late, ∃ token, answer = .ok (some token) := by
    intro failure known
    obtain ⟨token, answered⟩ := (parting failure known).delivers 0 room
    exact ⟨token, (Feed.ask_zero found).symm.trans answered⟩
  simp only [asked] at room later
  -- By the common answer: a failure breaks off both, an end is remembered by both, and a token is
  -- counted.
  match answer with
  | .error failure =>
    cases late with
    | none => exact .broken rfl (by rw [pull_failure active found])
    | some failure => simpa using delivers failure rfl
  | .ok none =>
    rw [pull_end active found, pull_end otherActive otherFound]
    refine .along rfl ⟨queue, rfl, pulled, ?_, ?_, ?_⟩
    · simp only [asked]
      omega
    · intro further room
      exact later further (by simp only [asked] at room; omega)
    · intro failure known
      simpa using delivers failure known
  | .ok (some token) =>
    rw [pull_token active found, pull_token otherActive otherFound]
    refine .along rfl ⟨queue, exhausted, congrArg (· + 1) pulled, ?_, ?_, ?_⟩
    · simp only [asked]
      omega
    · intro further room
      exact later further (by simp only [asked] at room; omega)
    · intro failure known
      exact (parting failure known).later found otherFound

/-- Where the common answers are used up, one more asks for too much, or fails. -/
theorem pull_beyond (alike : InStep horizon late one other) (active : one.exhausted = false)
    (full : one.asked = horizon) : Parallel horizon late one.pull other.pull := by
  have otherActive : other.exhausted = false := alike.exhausted.symm.trans active
  rcases found : one.source.feed.next with ⟨answer, feed⟩
  rcases otherFound : other.source.feed.next with ⟨otherAnswer, otherFeed⟩
  -- Sources that are known to part do so here.
  have parts : ∀ failure ∈ late, answer = .ok none ∧ otherAnswer = .error failure := by
    intro failure known
    have parting := alike.parting failure known
    rw [← Feed.ask_zero found, ← Feed.ask_zero otherFound]
    exact ⟨parting.ends 0 full, parting.fails 0 full⟩
  simp only [asked] at full
  -- The first buffer asks past what is shared, so nothing is known of its answer but what parting
  -- says.
  match answer with
  | .error failure =>
    cases late with
    | none => exact .broken rfl (by rw [pull_failure active found])
    | some failure => simpa using (parts failure rfl).1
  | .ok none =>
    rw [pull_end active found]
    refine .beyond (by simp only [asked]; omega) fun failure known => ?_
    obtain ⟨-, rfl⟩ := parts failure known
    rw [pull_failure otherActive otherFound]
    exact ⟨rfl, Nat.succ_pos _⟩
  | .ok (some token) =>
    rw [pull_token active found]
    refine .beyond (by simp only [asked]; omega) fun failure known => ?_
    simpa using (parts failure known).1

/-- Pulling from buffers in step has one outcome, unless it asks for too much. -/
theorem pull_parallel (alike : InStep horizon late one other) :
    Parallel horizon late one.pull other.pull := by
  cases state : one.exhausted with
  | true =>
    -- Neither source is asked again after its end.
    rw [pull_over state, pull_over (alike.exhausted.symm.trans state)]
    exact .along rfl alike
  | false =>
    rcases Nat.lt_or_eq_of_le alike.within with room | full
    · exact pull_within alike state room
    · exact pull_beyond alike state full

/-- As many tokens have gone through one as through the other. -/
theorem InStep.consumed (alike : InStep horizon late one other) :
    one.consumed = other.consumed := by
  simp only [Buffer.consumed, alike.queue, alike.pulled]

/-- A queue plays no part in what the sources still answer. -/
theorem InStep.withQueue (alike : InStep horizon late one other) (queue : List Token) :
    InStep horizon late { one with queue := queue } { other with queue := queue } :=
  ⟨rfl, alike.exhausted, alike.pulled, alike.within, alike.same, fun failure known =>
    let parting := alike.parting failure known
    ⟨parting.unended, parting.delivers, parting.ends, parting.fails⟩⟩

/-- Buffers in step see the same next token, unless it is out of reach. -/
theorem peek_parallel (alike : InStep horizon late one other) :
    Parallel horizon late (one.peek 0) (other.peek 0) := by
  -- What waits is the same in both queues; where nothing does, both pull.
  cases waiting : one.queue with
  | nil =>
    rw [peek_pulled waiting, peek_pulled (alike.queue.symm.trans waiting)]
    cases pull_parallel alike with
    | along outcome left =>
      rw [← outcome]
      exact .along rfl (left.withQueue _)
    | beyond far fails => exact .beyond far fails
    | broken unknown failed => exact .broken unknown failed
  | cons token rest =>
    rw [peek_queued_first waiting, peek_queued_first (alike.queue.symm.trans waiting)]
    exact .along rfl alike

/-- Buffers in step deliver the same next token, unless it is out of reach. -/
theorem take_parallel (alike : InStep horizon late one other) :
    Parallel horizon late one.take other.take := by
  -- As for a look, except that nothing is put back.
  cases waiting : one.queue with
  | nil =>
    rw [take_pulled waiting, take_pulled (alike.queue.symm.trans waiting)]
    exact pull_parallel alike
  | cons token rest =>
    rw [take_queued waiting, take_queued (alike.queue.symm.trans waiting)]
    exact .along rfl (alike.withQueue rest)

end Buffer

end Climb
