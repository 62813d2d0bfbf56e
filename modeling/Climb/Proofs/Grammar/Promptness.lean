import Climb.Proofs.Grammar.Forms

/-! What is read does not depend on the tokens behind the next one. -/

namespace Climb

/-- The failure is that the tokens have ended too early. -/
def Error.IsEnd (failure : Error) : Prop :=
  ∃ expected, failure = .parse (.endOfInput expected)

/-- The failure is that a token, which has been taken, does not fit where it stands. -/
inductive Error.Blames : Error → Token → Prop
  | noHeadRule (token : Token) : Blames (.parse (.noHeadRule token)) token
  | unexpectedToken (token : Token) (expected : TokenType) :
    Blames (.parse (.unexpectedToken token expected)) token

/-- A failure at a token is none at the end. -/
theorem Error.Blames.not_isEnd {failure : Error} {token : Token} (blames : failure.Blames token) :
    ¬failure.IsEnd := by
  rintro ⟨expected, rfl⟩
  cases blames

namespace Parser

variable {N α β : Type} {tokens rest : List Token} {failure : Error}

/-- The action fails on a list of tokens and leaves the rest of it. -/
def Fails (action : Parser N α) (tokens : List Token) (failure : Error) (rest : List Token) :
    Prop :=
  action.on ⟨tokens, none⟩ = (.error failure, ⟨rest, none⟩)

/-- What reads a value does not fail. -/
theorem Gives.not_fails {action : Parser N α} {value : α} {left : List Token}
    (given : action.Gives tokens value rest) : ¬action.Fails tokens failure left := by
  intro failed
  rw [Fails, given] at failed
  cases failed

/-- An action reads a value or fails. -/
theorem Steady.gives_or_fails {action : Parser N α} (steady : Steady action)
    (tokens : List Token) :
    (∃ value rest, action.Gives tokens value rest) ∨
      ∃ failure rest, action.Fails tokens failure rest := by
  -- A steady action brings no failure into the rest, so the outcome alone decides.
  have calm := steady.calm tokens
  rcases run : action.on ⟨tokens, none⟩ with ⟨outcome, rest, failure⟩
  simp only [run] at calm
  subst calm
  cases outcome with
  | ok value => exact .inl ⟨value, rest, run⟩
  | error failure => exact .inr ⟨failure, rest, run⟩

/-- An action that leaves the tokens alone fails with its outcome. -/
theorem Still.fails_iff {action : Parser N α} {outcome : Except Error α}
    (still : Still action outcome) :
    action.Fails tokens failure rest ↔ outcome = .error failure ∧ tokens = rest := by
  simp [Fails, still.on]

/-- One action after another fails where the first does or where the second does behind it. -/
theorem fails_bind {first : Parser N α} {next : α → Parser N β} (before : Steady first)
    (steady : ∀ middle, Steady (next middle)) :
    (first >>= next).Fails tokens failure rest ↔ first.Fails tokens failure rest ∨
      ∃ value middle, first.Gives tokens value middle ∧ (next value).Fails middle failure rest := by
  have calm := before.calm tokens
  simp only [Fails, Gives, on_bind steady _ before]
  rcases run : first.on ⟨tokens, none⟩ with ⟨outcome, middle, late⟩
  simp only [run] at calm
  subst calm
  cases outcome with
  | error other => simp [proceed]
  | ok value =>
    -- The first part has one answer, and the second part starts on what it left.
    constructor
    · exact fun failed => .inr ⟨value, middle, rfl, failed⟩
    · rintro (failed | ⟨_, _, same, failed⟩)
      · cases failed
      · cases same
        exact failed

/-- Actions that agree on a list fail alike on it. -/
theorem Agree.fails_iff {one other : Parser N α} {size : Nat} (agree : Agree size one other)
    (short : tokens.length ≤ size) :
    one.Fails tokens failure rest ↔ other.Fails tokens failure rest := by
  simp only [Fails, agree.same ⟨tokens, none⟩ short]

/-- Consuming any token fails only at the end. -/
theorem fails_consume_any :
    (consume none : Parser N Token).Fails tokens failure rest ↔
      tokens = [] ∧ failure = .parse (.endOfInput none) ∧ rest = [] := by
  cases tokens with
  | nil => simp [Fails, on_consume, Cursor.consume, Cursor.take, eq_comm]
  | cons token others => simp [Fails, on_consume, Cursor.consume, Cursor.take]

/-- Consuming a token of a type fails at the end, or at a token of another type. -/
theorem fails_consume {type : TokenType} :
    (consume (some type) : Parser N Token).Fails tokens failure rest ↔
      (tokens = [] ∧ failure = .parse (.endOfInput (some type)) ∧ rest = []) ∨
        ∃ token, tokens = token :: rest ∧ token.type ≠ type ∧
          failure = .parse (.unexpectedToken token type) := by
  cases tokens with
  | nil => simp [Fails, on_consume, Cursor.consume, Cursor.take, eq_comm]
  | cons token others =>
    simp only [Fails, on_consume, Cursor.consume, Cursor.take]
    split
    · rename_i typed
      simp [typed]
    · -- Any other type is refused, and the token that has it is gone.
      rename_i other
      simp only [Prod.mk.injEq, Except.error.injEq, Cursor.mk.injEq, and_true, reduceCtorEq,
        false_and, List.cons.injEq, false_or]
      constructor
      · rintro ⟨rfl, rfl⟩
        exact ⟨token, ⟨rfl, rfl⟩, other, rfl⟩
      · rintro ⟨_, ⟨rfl, rfl⟩, -, rfl⟩
        exact ⟨rfl, rfl⟩

/-- Accepting a token never fails. -/
theorem not_fails_accept {type : TokenType} :
    ¬(accept type : Parser N Bool).Fails tokens failure rest := by
  intro failed
  cases tokens with
  | nil => simp [Fails, on_accept, Cursor.accept] at failed
  | cons token others =>
    simp only [Fails, on_accept, Cursor.accept] at failed
    split at failed <;> cases failed

/-- Looking at the next token never fails. -/
theorem not_fails_peek : ¬(peek 0 : Parser N (Option Token)).Fails tokens failure rest := by
  intro failed
  cases tokens <;> simp [Fails, on_peek, Cursor.peekAt, Cursor.peek] at failed

/--
On a list of tokens, an action looks one token ahead and no further. If it leaves tokens, those
behind the next one do not matter to it. If it fails before the end, it does so at the token it has
just taken, and those behind that one do not matter either.
-/
structure Prompt (action : Parser N α) (tokens : List Token) : Prop where
  settled : ∀ {before rest : List Token} {next : Token} {value : α},
    tokens = before ++ next :: rest → action.Gives tokens value (next :: rest) →
      ∀ other, action.Gives (before ++ next :: other) value (next :: other)
  blamed : ∀ {failure : Error} {rest : List Token}, action.Fails tokens failure rest →
    failure.IsEnd ∨ ∃ before token, tokens = before ++ token :: rest ∧ failure.Blames token ∧
      ∀ other, action.Fails (before ++ token :: other) failure other

/-- What a prompt action reads before a token, it reads there whatever comes behind. -/
theorem Prompt.more {action : Parser N α} {next : Token} {value : α}
    (prompt : Prompt action tokens) (steady : Steady action)
    (given : action.Gives tokens value (next :: rest)) (more : List Token) :
    action.Gives (tokens ++ more) value (next :: (rest ++ more)) := by
  -- Behind the next token there may be anything, so also the rest with more tokens.
  obtain ⟨before, split⟩ := given.suffix steady
  have anew := prompt.settled split.symm given (rest ++ more)
  rw [← split]
  simpa only [List.append_assoc, List.cons_append] using anew

/-- An action that only returns a value is prompt. -/
theorem Still.prompt {action : Parser N α} {value : α} (still : Still action (.ok value))
    (tokens : List Token) : Prompt action tokens where
  settled {before rest next result} split given := by
    -- Nothing was taken, so nothing stands before the next token.
    obtain ⟨same, stays⟩ := still.gives_iff.1 given
    obtain rfl : before = [] := by
      have lengths := congrArg List.length (split.symm.trans stays)
      simp only [List.length_append, List.length_cons] at lengths
      exact List.length_eq_zero_iff.1 (by omega)
    exact fun other => still.gives_iff.2 ⟨same, rfl⟩
  blamed failed := by
    cases (still.fails_iff.1 failed).1

/-- Prompt actions follow each other promptly. -/
theorem Prompt.bind {first : Parser N α} {next : α → Parser N β} (before : Steady first)
    (steady : ∀ value, Steady (next value)) (start : Prompt first tokens)
    (goesOn : ∀ value middle, first.Gives tokens value middle → Prompt (next value) middle) :
    Prompt (first >>= next) tokens := by
  -- The first part leaves at least one token wherever the second leaves one or takes one.
  have settles : ∀ {value middle taken ahead rest}, first.Gives tokens value middle →
      middle = taken ++ ahead :: rest → ∃ front, tokens = front ++ (taken ++ ahead :: rest) ∧
        ∀ other, first.Gives (front ++ (taken ++ ahead :: other)) value
          (taken ++ ahead :: other) := by
    rintro value _ taken ahead rest given rfl
    obtain ⟨front, split⟩ := given.suffix before
    refine ⟨front, split.symm, ?_⟩
    cases taken with
    | nil => exact start.settled split.symm given
    | cons token others => exact fun other => start.settled split.symm given _
  constructor
  · intro front rest ahead value split given other
    obtain ⟨middle, left, one, two⟩ := (gives_bind before steady).1 given
    -- What the first part leaves ends in what the second leaves.
    obtain ⟨taken, rfl⟩ := two.suffix (steady middle)
    obtain ⟨begin, whole, anew⟩ := settles one rfl
    have again := (goesOn _ _ one).settled rfl two other
    obtain rfl : front = begin ++ taken := by
      have same := split.symm.trans whole
      rw [← List.append_assoc] at same
      exact List.append_cancel_right same
    rw [List.append_assoc]
    exact (gives_bind before steady).2 ⟨_, _, anew other, again⟩
  · intro failure rest failed
    rcases (fails_bind before steady).1 failed with failed | ⟨value, middle, one, failed⟩
    · -- A failure of the first part is one of the whole, wherever it comes.
      rcases start.blamed failed with ends | ⟨front, token, split, blames, stays⟩
      · exact .inl ends
      · exact .inr ⟨front, token, split, blames, fun other =>
          (fails_bind before steady).2 (.inl (stays other))⟩
    · rcases (goesOn _ _ one).blamed failed with ends | ⟨taken, token, split, blames, stays⟩
      · exact .inl ends
      · obtain ⟨begin, whole, anew⟩ := settles one split
        refine .inr ⟨begin ++ taken, token, by simpa using whole, blames, fun other => ?_⟩
        rw [List.append_assoc]
        exact (fails_bind before steady).2 (.inr ⟨value, _, anew other, stays other⟩)

/-- An action is prompt that agrees on lists of every size with one that is prompt. -/
theorem prompt_of_agree {action : Parser N α} (bounded : Nat → Parser N α)
    (agree : ∀ size, tokens.length ≤ size → Agree size action (bounded size))
    (prompt : ∀ size, tokens.length ≤ size → Prompt (bounded size) tokens) :
    Prompt action tokens := by
  -- Whatever is put in place of the rest, there is a size that covers both lists.
  have covers : ∀ list : List Token, ∃ size, tokens.length ≤ size ∧ list.length ≤ size :=
    fun list => ⟨max tokens.length list.length, Nat.le_max_left _ _, Nat.le_max_right _ _⟩
  constructor
  · intro before rest next value split given other
    obtain ⟨size, small, large⟩ := covers (before ++ next :: other)
    have same := ((agree size small).gives_iff small).1 given
    exact ((agree size small).gives_iff large).2 ((prompt size small).settled split same other)
  · intro failure rest failed
    have least := Nat.le_refl tokens.length
    have same := ((agree _ least).fails_iff least).1 failed
    rcases (prompt _ least).blamed same with ends | ⟨before, token, split, blames, -⟩
    · exact .inl ends
    · refine .inr ⟨before, token, split, blames, fun other => ?_⟩
      obtain ⟨size, small, large⟩ := covers (before ++ token :: other)
      have again := ((agree size small).fails_iff small).1 failed
      -- At the larger size the same token is blamed, since the rest is the same.
      rcases (prompt size small).blamed again with ends | ⟨front, next, whole, -, stays⟩
      · exact absurd ends blames.not_isEnd
      · obtain ⟨rfl, same⟩ := List.append_inj' (split.symm.trans whole) rfl
        cases same
        exact ((agree size small).fails_iff large).2 (stays other)

/-- Consuming a token of a type is prompt. -/
theorem prompt_consume (type : TokenType) (tokens : List Token) :
    Prompt (consume (some type) : Parser N Token) tokens where
  settled {before rest next value} split given := by
    obtain ⟨taken, typed⟩ := gives_consume.1 given
    obtain rfl : before = [value] := by
      have same : before ++ next :: rest = [value] ++ next :: rest := split.symm.trans taken
      exact List.append_cancel_right same
    exact fun other => gives_consume.2 ⟨rfl, typed⟩
  blamed failed := by
    rcases fails_consume.1 failed with ⟨-, ends, -⟩ | ⟨token, rfl, other, rfl⟩
    · exact .inl ⟨_, ends⟩
    · exact .inr ⟨[], token, rfl, .unexpectedToken token type, fun behind =>
        fails_consume.2 (.inr ⟨token, rfl, other, rfl⟩)⟩

/-- Asking whether a token has a type is prompt. -/
theorem prompt_accept (type : TokenType) (tokens : List Token) :
    Prompt (accept type : Parser N Bool) tokens where
  settled {before rest next accepted} split given := by
    -- If the token is accepted, it is what was taken; else nothing was.
    cases accepted with
    | true =>
      obtain ⟨token, taken, typed⟩ := gives_accept_true.1 given
      obtain rfl : before = [token] := by
        have same : before ++ next :: rest = [token] ++ next :: rest := split.symm.trans taken
        exact List.append_cancel_right same
      exact fun other => gives_accept_true.2 ⟨token, rfl, typed⟩
    | false =>
      obtain ⟨stays, other⟩ := gives_accept_false.1 given
      obtain rfl : before = [] := by
        have same : before ++ next :: rest = [] ++ next :: rest := split.symm.trans stays
        exact List.append_cancel_right same
      rw [stays] at other
      exact fun behind => gives_accept_false.2 ⟨rfl, by simpa using other⟩
  blamed failed := absurd failed not_fails_accept

/-- Looking at the next token is prompt. -/
theorem prompt_peek (tokens : List Token) :
    Prompt (peek 0 : Parser N (Option Token)) tokens where
  settled {before rest next ahead} split given := by
    obtain ⟨seen, stays⟩ := gives_peek.1 given
    obtain rfl : before = [] := by
      have same : before ++ next :: rest = [] ++ next :: rest := split.symm.trans stays
      exact List.append_cancel_right same
    rw [stays] at seen
    exact fun other => gives_peek.2 ⟨by simpa using seen, rfl⟩
  blamed failed := absurd failed not_fails_peek

/-- Taking the next token is prompt. -/
theorem prompt_take (tokens : List Token) :
    Prompt (consume none : Parser N Token) tokens where
  settled {before rest next value} split given := by
    have taken := gives_consume_any.1 given
    obtain rfl : before = [value] := by
      have same : before ++ next :: rest = [value] ++ next :: rest := split.symm.trans taken
      exact List.append_cancel_right same
    exact fun other => gives_consume_any.2 rfl
  blamed failed := .inl ⟨none, (fails_consume_any.1 failed).2.1⟩

/-- Taking the next token and refusing it is prompt. -/
theorem prompt_refuse {next : Token → Parser N β} (steady : ∀ token, Steady (next token))
    {token : Token} {behind : List Token} {failure : Error} (blames : failure.Blames token)
    (refuses : Still (next token) (.error failure)) :
    Prompt (consume none >>= next) (token :: behind) where
  settled split given := by
    -- Nothing is read where the token is refused.
    obtain ⟨taken, middle, consumed, given⟩ := (gives_bind (steady_consume none) steady).1 given
    cases gives_consume_any.1 consumed
    cases (refuses.gives_iff.1 given).1
  blamed {other rest} failed := by
    rcases (fails_bind (steady_consume none) steady).1 failed with
      failed | ⟨taken, middle, consumed, failed⟩
    · cases (fails_consume_any.1 failed).1
    · cases gives_consume_any.1 consumed
      obtain ⟨same, rfl⟩ := refuses.fails_iff.1 failed
      cases same
      refine .inr ⟨[], token, rfl, blames, fun others => ?_⟩
      exact (fails_bind (steady_consume none) steady).2
        (.inr ⟨token, others, gives_consume_any.2 rfl, refuses.fails_iff.2 ⟨rfl, rfl⟩⟩)

section

variable {operand : Int → Parser N N} (steady : ∀ strength, Steady (operand strength))

include steady

/-- Reading further items is prompt, if reading each of them is. -/
theorem prompt_moreItems (separator : TokenType) (bound : Nat) :
    ∀ (nodes : List N) {tokens : List Token}, tokens.length < bound →
      (∀ list, list <:+ tokens → Prompt (operand 0) list) →
        Prompt (moreItems operand separator bound nodes) tokens := by
  -- The bound is never reached, since a separator is taken in every round.
  induction bound with
  | zero =>
    intro nodes tokens large
    omega
  | succ bound ih =>
    intro nodes tokens large operands
    refine Prompt.bind (steady_accept separator) (fun accepted => ?_)
      (prompt_accept separator tokens) fun accepted middle taken => ?_
    · cases accepted with
      | true => exact (steady 0).bind fun node => steady_moreItems steady separator bound _
      | false => exact (still_pure nodes).steady
    · cases accepted with
      | false => exact (still_pure nodes).prompt middle
      | true =>
        obtain ⟨comma, rfl, -⟩ := gives_accept_true.1 taken
        simp only [List.length_cons] at large
        have behind : middle <:+ comma :: middle := List.suffix_cons comma middle
        refine Prompt.bind (steady 0) (fun node => steady_moreItems steady separator bound _)
          (operands middle behind) fun node left read => ?_
        have suffix := read.suffix (steady 0)
        have shorter := suffix.length_le
        exact ih (nodes ++ [node]) (by omega)
          fun list ends => operands list ((ends.trans suffix).trans behind)

/-- Reading items up to a closing token is prompt, if reading each of them is. -/
theorem prompt_items (separator : TokenType) {close : TokenType}
    (expects : close.expectation = some close) {bound : Nat} (large : tokens.length < bound)
    (operands : ∀ list, list <:+ tokens → Prompt (operand 0) list) :
    Prompt (items operand bound separator close) tokens := by
  have further : ∀ node, Steady (moreItems operand separator bound [node] >>= closeItems close) :=
    fun node => (steady_moreItems steady separator bound [node]).bind (steady_closeItems close)
  refine Prompt.bind (steady_accept close) (fun accepted => ?_) (prompt_accept close tokens)
    fun accepted middle taken => ?_
  · cases accepted with
    | true => exact (still_pure []).steady
    | false => exact (steady 0).bind further
  · cases accepted with
    | true => exact (still_pure []).prompt middle
    | false =>
      obtain ⟨rfl, -⟩ := gives_accept_false.1 taken
      refine Prompt.bind (steady 0) further (operands tokens List.suffix_rfl)
        fun node left read => ?_
      have suffix := read.suffix (steady 0)
      have shorter := suffix.length_le
      refine Prompt.bind (steady_moreItems steady separator bound [node]) (steady_closeItems close)
        (prompt_moreItems steady separator bound [node] (by omega)
          fun list ends => operands list (ends.trans suffix)) fun nodes last more => ?_
      -- The closing token is expected by its type.
      show Prompt (discard (consume close.expectation) >>= fun _ => pure nodes) last
      rw [discard_eq, expects, bind_assoc]
      exact Prompt.bind (steady_consume _) (fun _ => (still_pure nodes).steady)
        (prompt_consume close last) fun _ behind _ => (still_pure nodes).prompt behind

end

end Parser

end Climb
