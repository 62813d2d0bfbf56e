import Climb.Proofs.Grammar.Congruence

/-! Interpreting nodes while they are read is a walk over what is read without interpreting them. -/

namespace Climb

/-- A walk over what was read. It may fail, and keeps the notes it has taken also then. -/
abbrev Walk (L : Type) := ExceptT Error (StateM L)

/-- What is noted of the nodes that an interpreter is given, in their order. -/
structure Notebook (N L : Type) where
  /-- The notes on some nodes. -/
  of : List N → L
  /-- The notes with one node more. -/
  add : L → N → L
  of_snoc : ∀ seen node, of (seen ++ [node]) = add (of seen) node

namespace Walk

variable {N L α β : Type}

/-- A step that takes no notes. -/
def outcome (result : Except Error α) : Walk L α :=
  fun notes => (result, notes)

/-- Notes a node and passes it through an interpreter. -/
def visit (book : Notebook N L) (interpreter : Interpreter N) (node : N) : Walk L N :=
  fun notes => (interpreter node, book.add notes node)

/-- One walk after another goes on with the notes of the first, unless that has failed. -/
theorem bind_apply (first : Walk L α) (next : α → Walk L β) (notes : L) :
    (first >>= next) notes = match first notes with
      | (.ok value, after) => next value after
      | (.error failure, after) => (.error failure, after) := by
  -- The same transformers as for an action on a parse, over another state.
  have unfolded : (first >>= next) notes =
      ExceptT.bindCont next (first notes).1 (first notes).2 := rfl
  rcases run : first notes with ⟨result, after⟩
  rw [unfolded, run]
  cases result with
  | error failure => rfl
  | ok value => rfl

/-- Steps that take no notes are one such step. -/
theorem outcome_bind (first : Except Error α) (next : α → Except Error β) :
    (outcome (first >>= next) : Walk L β) =
      outcome first >>= fun value => outcome (next value) := by
  funext notes
  rw [bind_apply]
  cases first with
  | error failure => rfl
  | ok value => rfl

end Walk

namespace Parser

variable {M N L α β γ : Type}

/-- An action in two parts that succeeds does so part by part. -/
theorem bind_eq_ok {first : Parser N α} {next : α → Parser N β} {state after : ParseState N}
    {value : β} (done : (first >>= next) state = (.ok value, after)) :
    ∃ middle between, first state = (.ok middle, between) ∧
      next middle between = (.ok value, after) := by
  rw [bind_apply] at done
  rcases run : first state with ⟨outcome, between⟩
  rw [run] at done
  -- A failure of the first part would have been the answer.
  cases outcome with
  | error failure => cases done
  | ok middle => exact ⟨middle, between, rfl, done⟩

/--
From a state, an action has the outcome and takes the notes of a walk. If it succeeds, it leaves a
given buffer.
-/
structure Performs (book : Notebook N L) (action : Parser N α) (walk : Walk L α)
    (state : ParseState N) (buffer : Buffer) : Prop where
  outcome : (action state).1 = (walk (book.of state.seen)).1
  notes : book.of (action state).2.seen = (walk (book.of state.seen)).2
  left : ∀ {value}, (action state).1 = .ok value → (action state).2.buffer = buffer

variable {book : Notebook N L} {state : ParseState N} {middle buffer : Buffer}

/-- An outcome as an action performs that outcome as a step. -/
theorem performs_built (outcome : Except Error α) :
    Performs book (built outcome) (Walk.outcome outcome) state state.buffer :=
  ⟨rfl, rfl, fun _ => rfl⟩

/-- Passing a node through an interpreter performs a visit to it. -/
theorem performs_interpret (interpreter : Interpreter N) (node : N) :
    Performs book (interpret (some interpreter) node) (Walk.visit book interpreter node) state
      state.buffer :=
  ⟨rfl, book.of_snoc state.seen node, fun _ => rfl⟩

/-- Actions that perform two walks perform one walk after the other. -/
theorem Performs.bind {action : Parser N α} {next : α → Parser N β} {walk : Walk L α}
    {goesOn : α → Walk L β} (start : Performs book action walk state middle)
    (rest : ∀ value after, after.buffer = middle →
      Performs book (next value) (goesOn value) after buffer) :
    Performs book (action >>= next) (walk >>= goesOn) state buffer := by
  obtain ⟨outcome, notes, left⟩ := start
  rcases run : action state with ⟨answer, after⟩
  rcases walked : walk (book.of state.seen) with ⟨result, noted⟩
  simp only [run, walked] at outcome notes left
  subst outcome notes
  cases answer with
  | error failure =>
    -- A failure ends the action and the walk alike, with the notes taken so far.
    refine ⟨?_, ?_, fun {value} done => ?_⟩
    · rw [bind_apply, Walk.bind_apply, run, walked]
    · rw [bind_apply, Walk.bind_apply, run, walked]
    · rw [bind_apply, run] at done
      cases done
  | ok value =>
    -- The second part starts in the state that the first has left, with its notes.
    obtain ⟨outcome, notes, left⟩ := rest value after (left rfl)
    refine ⟨?_, ?_, fun {value} done => ?_⟩
    · rw [bind_apply, Walk.bind_apply, run, walked]
      exact outcome
    · rw [bind_apply, Walk.bind_apply, run, walked]
      exact notes
    · rw [bind_apply, run] at done ⊢
      exact left done

/-- An action followed by a step that reads nothing leaves what the action leaves. -/
theorem Performs.finish {action : Parser N α} {next : α → Parser N β} {walk : Walk L α}
    {goesOn : α → Walk L β} (start : Performs book action walk state buffer)
    (rest : ∀ value after, Performs book (next value) (goesOn value) after after.buffer) :
    Performs book (action >>= next) (walk >>= goesOn) state buffer :=
  start.bind fun value after same => same ▸ rest value after

/--
Wherever the first action reads something, the second performs its meaning on the same tokens, and
leaves the same tokens if it succeeds.
-/
def Follows (book : Notebook N L) (meaning : α → Walk L β) (one : Parser M α)
    (other : Parser N β) : Prop :=
  ∀ (first : ParseState M) (second : ParseState N) (value : α) (after : ParseState M),
    second.buffer = first.buffer → one first = (.ok value, after) →
      Performs book other (meaning value) second after.buffer

/-- An operation of the buffer has one outcome on the same tokens, and what comes after goes on. -/
theorem performs_onBuffer {operation : Buffer → Except Error α × Buffer}
    {first between : ParseState M} {value : α} {next : α → Parser N β} {walk : Walk L β}
    (done : (onBuffer operation : Parser M α) first = (.ok value, between))
    (same : state.buffer = first.buffer)
    (rest : ∀ after, after.buffer = between.buffer →
      Performs book (next value) walk after buffer) :
    Performs book (onBuffer operation >>= next) walk state buffer := by
  -- Only the buffer is read and written; the nodes seen so far stay as they are.
  have answer : (operation state.buffer).1 = .ok value := by
    rw [same]
    exact congrArg Prod.fst done
  have left : (operation state.buffer).2 = between.buffer := by
    rw [same]
    exact congrArg (fun answer => answer.2.buffer) done
  have run : (onBuffer operation : Parser N α) state =
      (.ok value, { state with buffer := between.buffer }) := by
    rw [← answer, ← left]
    rfl
  obtain ⟨outcome, notes, left⟩ := rest { state with buffer := between.buffer } rfl
  refine ⟨?_, ?_, fun {result} done => ?_⟩
  · rw [bind_apply, run]
    exact outcome
  · rw [bind_apply, run]
    exact notes
  · rw [bind_apply, run] at done ⊢
    exact left done

/-- What follows step by step follows as a whole, if the meaning is that of the parts. -/
theorem Follows.bind {meaning : α → Walk L β} {δ : Type} {whole : γ → Walk L δ} {one : Parser M α}
    {other : Parser N β} {next : α → Parser M γ} {otherNext : β → Parser N δ}
    (start : Follows book meaning one other)
    (rest : ∀ value first result after, next value first = (.ok result, after) →
      ∃ goesOn : β → Walk L δ, whole result = meaning value >>= goesOn ∧
        ∀ answer second, second.buffer = first.buffer →
          Performs book (otherNext answer) (goesOn answer) second after.buffer) :
    Follows book whole (one >>= next) (other >>= otherNext) := by
  intro first second result after same done
  -- The meaning of the whole starts with that of its first part.
  obtain ⟨value, between, read, finished⟩ := bind_eq_ok done
  obtain ⟨goesOn, splits, performs⟩ := rest value between result after finished
  rw [splits]
  exact (start first second value between same read).bind performs

section

variable {meaning : M → Walk L N} {operand : Int → Parser M M} {otherOperand : Int → Parser N N}
  (operands : ∀ strength, Follows book meaning (operand strength) (otherOperand strength))

include operands

/-- Further items have their meanings in order, whatever stands before them. -/
theorem performs_moreItems (separator : TokenType) (bound : Nat) :
    ∀ {nodes all : List M} {first after : ParseState M},
      moreItems operand separator bound nodes first = (.ok all, after) →
        ∃ more, all = nodes ++ more ∧
          ∀ (others : List N) (second : ParseState N), second.buffer = first.buffer →
            Performs book (moreItems otherOperand separator bound others)
              (more.mapM meaning >>= fun found => pure (others ++ found)) second
              after.buffer := by
  -- Both loops accept the same separators. An item is interpreted before the next one is read.
  induction bound with
  | zero =>
    intro nodes all first after done
    cases done
  | succ bound ih =>
    intro nodes all first after done
    obtain ⟨accepted, begun, taken, done⟩ := bind_eq_ok done
    cases accepted with
    | false =>
      cases done
      refine ⟨[], by simp, fun others second same => ?_⟩
      refine performs_onBuffer taken same fun ended agrees => ?_
      simpa using ⟨rfl, rfl, fun _ => agrees⟩
    | true =>
      obtain ⟨node, between, read, done⟩ := bind_eq_ok done
      obtain ⟨more, rfl, further⟩ := ih done
      refine ⟨node :: more, by simp, fun others second same => ?_⟩
      refine performs_onBuffer taken same fun ready agrees => ?_
      simp only [List.mapM_cons, bind_assoc, pure_bind]
      refine (operands 0 begun ready node between agrees read).bind fun value next agrees => ?_
      simpa using further (others ++ [value]) next agrees

/-- Items up to a closing token have their meanings in order. -/
theorem follows_items (bound : Nat) (separator close : TokenType) :
    Follows book (fun nodes => nodes.mapM meaning) (items operand bound separator close)
      (items otherOperand bound separator close) := by
  intro first second nodes after same done
  obtain ⟨accepted, begun, taken, done⟩ := bind_eq_ok done
  refine performs_onBuffer taken same fun ready agrees => ?_
  cases accepted with
  | true =>
    cases done
    exact ⟨rfl, rfl, fun _ => agrees⟩
  | false =>
    obtain ⟨node, between, read, done⟩ := bind_eq_ok done
    obtain ⟨all, further, looped, done⟩ := bind_eq_ok done
    obtain ⟨more, rfl, performs⟩ := performs_moreItems operands separator bound looped
    simp only [discard_eq, bind_assoc, pure_bind] at done ⊢
    obtain ⟨_, closed, consumed, done⟩ := bind_eq_ok done
    cases done
    -- The items are interpreted by the time the closing token is looked for.
    show Performs book (otherOperand 0 >>= _) _ _ _
    simp only [List.singleton_append, List.mapM_cons]
    refine (operands 0 begun ready node between agrees read).bind fun value next agrees => ?_
    rw [← bind_pure (List.mapM meaning more >>= _)]
    refine (performs [value] next agrees).bind fun found last agrees => ?_
    exact performs_onBuffer consumed agrees fun ended agrees => ⟨rfl, rfl, fun _ => agrees⟩

end

/--
Whatever the first action makes of a left operand, its meaning starts with that of the operand, and
what is left of it is performed by the second action on whatever the operand came to.
-/
def Extends (book : Notebook N L) (meaning : M → Walk L N) (left : M) (one : Parser M M)
    (other : N → Parser N N) : Prop :=
  ∀ (first : ParseState M) (node : M) (after : ParseState M), one first = (.ok node, after) →
    ∃ goesOn : N → Walk L N, meaning node = meaning left >>= goesOn ∧
      ∀ operand second, second.buffer = first.buffer →
        Performs book (other operand) (goesOn operand) second after.buffer

/-- A left operand that is extended twice is extended. -/
theorem Extends.bind {meaning : M → Walk L N} {left : M} {one : Parser M M}
    {other : N → Parser N N} {next : M → Parser M M} {otherNext : N → Parser N N}
    (start : Extends book meaning left one other)
    (rest : ∀ node, Extends book meaning node (next node) otherNext) :
    Extends book meaning left (one >>= next) fun operand => other operand >>= otherNext := by
  intro first node after done
  obtain ⟨middle, between, read, finished⟩ := bind_eq_ok done
  obtain ⟨goesOn, splits, performs⟩ := start first middle between read
  obtain ⟨further, splitsOn, performsOn⟩ := rest middle between node after finished
  -- The two remainders of the meaning follow each other as the two actions do.
  refine ⟨fun operand => goesOn operand >>= further, ?_, fun operand second same => ?_⟩
  · rw [splitsOn, splits, bind_assoc]
  · exact (performs operand second same).bind performsOn

end Parser

namespace Grammar

open Climb.Parser

variable {M N L : Type}

/--
Two grammars of one shape, of which the second interprets its nodes. A meaning goes with what the
first one builds: rule by rule, it is performed by the second.
-/
structure Interprets (book : Notebook N L) (one : Grammar M) (other : Grammar N)
    (interpreter : Interpreter N) (meaning : M → Walk L N) : Prop where
  strengths : ∀ ahead, other.strengthOf ahead = one.strengthOf ahead
  heads : ∀ {token rule}, one.head? token = some rule →
    ∃ counterpart, other.head? token = some counterpart ∧
      ∀ {operand : Int → Parser M M} {otherOperand : Int → Parser N N} (bound : Nat),
        (∀ strength, Follows book meaning (operand strength) (otherOperand strength)) →
          Follows book meaning (runHead operand bound token rule)
            (runHead otherOperand bound token counterpart >>=
              Parser.interpret (some interpreter))
  tails : ∀ {token rule}, one.tail? token = some rule →
    ∃ counterpart, other.tail? token = some counterpart ∧
      ∀ {operand : Int → Parser M M} {otherOperand : Int → Parser N N} (bound : Nat) (left : M),
        (∀ strength, Follows book meaning (operand strength) (otherOperand strength)) →
          Extends book meaning left (runTail operand bound token left rule) fun otherLeft =>
            runTail otherOperand bound token otherLeft counterpart >>=
              Parser.interpret (some interpreter)

namespace Interprets

variable {book : Notebook N L} {one : Grammar M} {other : Grammar N}
  {interpreter : Interpreter N} {meaning : M → Walk L N}
  (interprets : Interprets book one other interpreter meaning)

include interprets

/-- Climbing extends the left operand that it starts from. -/
theorem climb {operand : Int → Parser M M} {otherOperand : Int → Parser N N}
    (operands : ∀ strength, Follows book meaning (operand strength) (otherOperand strength))
    (depth : Nat) (minimum : Int) (bound : Nat) : ∀ left,
      Extends book meaning left (one.climb none operand depth minimum bound left)
        (other.climb (some interpreter) otherOperand depth minimum bound) := by
  -- The induction is on the rounds of the loop. The meaning of what the loop returns starts with
  -- that of its left operand, which was performed before the loop began.
  induction bound with
  | zero =>
    intro left first node after done
    cases done
  | succ bound ih =>
    intro left first node after done
    rw [climb_succ] at done
    obtain ⟨ahead, looked, peeked, done⟩ := bind_eq_ok done
    split at done
    · -- The next token continues the operand: one extension by its rule, and then the rest.
      rename_i strong
      obtain ⟨token, taken, consumed, done⟩ := bind_eq_ok done
      cases found : one.tail? token with
      | none =>
        simp only [continueBy, found] at done
        cases done
      | some rule =>
        simp only [continueBy, found, Parser.interpret, pure_bind] at done
        obtain ⟨counterpart, known, extend⟩ := interprets.tails found
        obtain ⟨goesOn, splits, performs⟩ :=
          (extend depth left operands).bind ih taken node after done
        refine ⟨goesOn, splits, fun otherLeft second same => ?_⟩
        -- The other loop sees the same token and finds the counterpart of the rule.
        rw [climb_succ]
        refine performs_onBuffer peeked same fun ready agrees => ?_
        rw [if_pos (by rwa [interprets.strengths])]
        refine performs_onBuffer consumed agrees fun begun agrees => ?_
        simp only [continueBy, known, ← bind_assoc]
        exact performs otherLeft begun agrees
    · -- The operand ends here, and nothing is left of its meaning.
      rename_i weak
      cases done
      refine ⟨pure, (bind_pure _).symm, fun otherLeft second same => ?_⟩
      rw [climb_succ]
      refine performs_onBuffer peeked same fun ended agrees => ?_
      rw [if_neg (by rwa [interprets.strengths])]
      exact ⟨rfl, rfl, fun _ => agrees⟩

/-- Reading an expression performs the meaning of what is read without interpreting. -/
theorem expressionWithin (depth : Nat) : ∀ minimum,
    Follows book meaning (one.expressionWithin none depth minimum)
      (other.expressionWithin (some interpreter) depth minimum) := by
  -- Operands are read one level down, and climbing extends what the first token starts.
  induction depth with
  | zero =>
    intro minimum first second node after same done
    cases done
  | succ depth ih =>
    intro minimum first second node after same done
    rw [expressionWithin_succ] at done ⊢
    obtain ⟨token, taken, consumed, done⟩ := bind_eq_ok done
    refine performs_onBuffer consumed same fun begun agrees => ?_
    cases found : one.head? token with
    | none =>
      simp only [startBy, found] at done
      cases done
    | some rule =>
      simp only [startBy, found, Parser.interpret, pure_bind] at done
      obtain ⟨counterpart, known, follows⟩ := interprets.heads found
      simp only [startBy, known, ← bind_assoc]
      exact (follows depth ih).bind (interprets.climb ih depth minimum depth) taken begun node
        after agrees done

/-- Reading a whole input performs the meaning of what is read without interpreting. -/
theorem inputWithin (depth : Nat) (exhaust : Bool) :
    Follows book meaning (one.inputWithin none depth exhaust)
      (other.inputWithin (some interpreter) depth exhaust) := by
  refine (interprets.expressionWithin depth 0).bind fun node first result after done => ?_
  cases exhaust with
  | false =>
    cases done
    exact ⟨pure, (bind_pure _).symm, fun answer second same => ⟨rfl, rfl, fun _ => same⟩⟩
  | true =>
    -- A token that is left over is refused without an interpreter, so there is none.
    obtain ⟨_, checked, passed, done⟩ := bind_eq_ok done
    obtain ⟨ahead, looked, peeked, passed⟩ := bind_eq_ok passed
    cases ahead with
    | some token => cases passed
    | none =>
      cases passed
      cases done
      refine ⟨pure, (bind_pure _).symm, fun answer second same => ?_⟩
      show Performs book ((peek 0 >>= _) >>= _) _ _ _
      rw [bind_assoc]
      exact performs_onBuffer peeked same fun ended agrees => ⟨rfl, rfl, fun _ => agrees⟩

/-- A run with an interpreter performs the meaning of what is read without one. -/
theorem run {source : Source} {exhaust : Bool} {node : M}
    (read : (one.run none source exhaust).1 = .ok node) :
    (other.run (some interpreter) source exhaust).1 = (meaning node (book.of [])).1 ∧
      book.of (other.run (some interpreter) source exhaust).2.seen =
        (meaning node (book.of [])).2 := by
  -- Both runs start from a fresh buffer over the same source.
  have performed := interprets.inputWithin (source.feed.size + 1) exhaust ⟨.ofSource source, []⟩
    ⟨.ofSource source, []⟩ node _ rfl (Prod.ext read rfl)
  exact ⟨performed.outcome, performed.notes⟩

end Interprets

end Grammar

end Climb
