import Climb.Proofs.Grammar.Reading

/-! Reading ends: where the depth is above the number of tokens, nothing runs out of it. -/

namespace Climb

variable {N : Type}

namespace Cursor

variable {cursor : Cursor} (shallow : cursor.failure ≠ some (.parse .tooDeep))

include shallow

/-- Consuming a token does not run out of a depth. -/
theorem consume_ends (expected : Option TokenType) :
    (cursor.consume expected).1 ≠ .error (.parse .tooDeep) := by
  -- A token, the plain end of the list, or the failure that ends it.
  match cursor with
  | ⟨token :: rest, failure⟩ =>
    cases expected with
    | none => simp [consume, take]
    | some type =>
      simp only [consume, take]
      split <;> simp
  | ⟨[], none⟩ => simp [consume, take]
  | ⟨[], some failure⟩ => simpa [consume, take] using shallow

/-- Accepting a token does not run out of a depth. -/
theorem accept_ends (type : TokenType) : (cursor.accept type).1 ≠ .error (.parse .tooDeep) := by
  -- The same three ways for a list to begin.
  match cursor with
  | ⟨token :: rest, failure⟩ =>
    simp only [accept]
    split <;> simp
  | ⟨[], none⟩ => simp [accept]
  | ⟨[], some failure⟩ => simpa [accept] using shallow

/-- Looking ahead does not run out of a depth. -/
theorem peek_ends (distance : Nat) : (cursor.peek distance).1 ≠ .error (.parse .tooDeep) := by
  simp only [peek]
  split
  · simp
  · simp
  · -- Past the last token it is the failure at the end that comes up.
    rename_i failure _ known
    simpa [known] using shallow

end Cursor

namespace Parser

variable {α β : Type}

/--
An action that does not run out of a depth on a list of at most a number of tokens, unless the
failure at the end of the list says so.
-/
structure Ends (size : Nat) (action : Parser N α) : Prop where
  steady : Steady action
  ends : ∀ {cursor}, cursor.tokens.length ≤ size → cursor.failure ≠ some (.parse .tooDeep) →
    (action.on cursor).1 ≠ .error (.parse .tooDeep)

variable {size bound : Nat}

/-- What ends on long lists ends on short ones. -/
theorem Ends.mono {smaller : Nat} {action : Parser N α} (ends : Ends size action)
    (less : smaller ≤ size) : Ends smaller action :=
  ⟨ends.steady, fun short => ends.ends (Nat.le_trans short less)⟩

/-- An action that leaves the tokens alone ends, if it does not say otherwise itself. -/
theorem Still.ends {action : Parser N α} {outcome : Except Error α} (still : Still action outcome)
    (shallow : outcome ≠ .error (.parse .tooDeep)) (size : Nat) : Ends size action where
  steady := still.steady
  -- Its outcome is the same on every list.
  ends _ _ := by rwa [still.on]

/-- An action ends that goes on, with what it has found, to one that ends on what is left. -/
theorem Ends.bind_of {first : Parser N α} {next : α → Parser N β} (start : Ends size first)
    (steady : ∀ value, Steady (next value))
    (rest : ∀ {cursor value after}, cursor.tokens.length ≤ size →
      first.on cursor = (.ok value, after) → Ends after.tokens.length (next value)) :
    Ends size (first >>= next) where
  steady := start.steady.bind steady
  ends {cursor} short shallow := by
    have started := start.ends short shallow
    have kept : ∀ {value}, (first.on cursor).1 = .ok value →
        (first.on cursor).2.failure = cursor.failure := start.steady.kept
    rw [on_bind steady cursor start.steady]
    rcases known : first.on cursor with ⟨outcome, after⟩
    rw [known] at started kept
    cases outcome with
    | error failure => simpa [proceed] using started
    | ok value =>
      -- The failure at the end is still the one that was there.
      have same : after.failure = cursor.failure := kept rfl
      exact (rest short known).ends (Nat.le_refl _) (same ▸ shallow)

/-- An action ends that goes on to one that ends on lists as long. -/
theorem Ends.bind {first : Parser N α} {next : α → Parser N β} (start : Ends size first)
    (rest : ∀ value, Ends size (next value)) : Ends size (first >>= next) :=
  start.bind_of (fun value => (rest value).steady) fun {cursor value _} short known => by
    -- What is left is no longer than what there was.
    have length := start.steady.length cursor
    rw [known] at length
    exact (rest value).mono (Nat.le_trans length short)

/-- Consuming a token ends. -/
theorem ends_consume (expected : Option TokenType) (size : Nat) :
    Ends size (consume expected : Parser N Token) where
  steady := steady_consume expected
  ends _ shallow := by
    rw [on_consume]
    exact Cursor.consume_ends shallow expected

/-- Accepting a token ends. -/
theorem ends_accept (type : TokenType) (size : Nat) :
    Ends size (accept type : Parser N Bool) where
  steady := steady_accept type
  ends _ shallow := by
    rw [on_accept]
    exact Cursor.accept_ends shallow type

/-- Looking ahead ends. -/
theorem ends_peek (distance : Int) (size : Nat) :
    Ends size (peek distance : Parser N (Option Token)) where
  steady := steady_peek distance
  ends _ shallow := by
    rw [on_peek]
    -- A negative distance is an error of its own.
    simp only [Cursor.peekAt]
    split
    · simp
    · exact Cursor.peek_ends shallow _

/-- After a token is consumed, what follows need only end on shorter lists. -/
theorem ends_consume_bind {expected : Option TokenType} {next : Token → Parser N β}
    (steady : ∀ token, Steady (next token))
    (rest : ∀ token smaller, smaller < size → Ends smaller (next token)) :
    Ends size (consume expected >>= next) :=
  (ends_consume expected size).bind_of steady fun short known => by
    rw [on_consume] at known
    exact rest _ _ (Nat.lt_of_lt_of_le (Cursor.consume_length known) short)

/-- After a token is accepted, what follows need only end on shorter lists. -/
theorem ends_accept_bind {type : TokenType} {next : Bool → Parser N β}
    (steady : ∀ accepted, Steady (next accepted))
    (taken : ∀ smaller, smaller < size → Ends smaller (next true)) (left : Ends size (next false)) :
    Ends size (accept type >>= next) :=
  (ends_accept type size).bind_of steady fun {cursor accepted _} short known => by
    have length := (steady_accept type).length (N := N) cursor
    rw [known] at length
    rw [on_accept] at known
    cases accepted with
    | true => exact taken _ (Nat.lt_of_lt_of_le (Cursor.accept_length known) short)
    | false => exact left.mono (Nat.le_trans length short)

/-- Ending is passed on from elementary actions to all others. -/
theorem congruence_ends (size : Nat) :
    Congruence (fun _ => True) (fun _ => True) (· ≠ .parse .tooDeep)
      fun {α} (action : Parser N α) _ => Ends size action where
  faults _ shallow := by simpa using shallow
  still still allowed := still.ends (fun deep => allowed _ deep rfl) size
  take rest := (ends_consume _ size).bind fun token => rest token trivial
  accept type := ends_accept type size
  near := trivial
  peek distance _ := ends_peek distance size
  bind := Ends.bind

/-- Counting tokens ends, if the bound is greater than their number. -/
theorem ends_acceptAll (type : TokenType) {bound : Nat} : ∀ {size : Nat} (count : Nat),
    size < bound → Ends size (acceptAll type bound count : Parser N Nat) := by
  -- Each round accepts a token, so the bound outlasts the list.
  induction bound with
  | zero => intro size count large; omega
  | succ bound ih =>
    intro size count large
    refine ends_accept_bind (fun accepted => ?_) (fun smaller less => ?_) ?_
    · cases accepted with
      | true => exact steady_acceptAll type bound (count + 1)
      | false => exact (still_pure count).steady
    · exact ih (count + 1) (by omega)
    · exact (still_pure count).ends (by simp) size

variable {operand : Int → Parser N N}

/-- Reading further items ends, if the bound is greater than their number. -/
theorem ends_moreItems (separator : TokenType) {bound : Nat} : ∀ {size : Nat} (nodes : List N),
    (∀ strength, Ends size (operand strength)) → size < bound →
      Ends size (moreItems operand separator bound nodes) := by
  -- A separator goes before every further item, so the bound falls no faster than the list.
  induction bound with
  | zero => intro size nodes _ large; omega
  | succ bound ih =>
    intro size nodes ends large
    have steady := fun strength => (ends strength).steady
    refine ends_accept_bind (fun accepted => ?_) (fun smaller less => ?_) ?_
    · cases accepted with
      | true => exact (steady 0).bind fun node => steady_moreItems steady separator bound _
      | false => exact (still_pure nodes).steady
    · have shorter := fun strength => (ends strength).mono (Nat.le_of_lt less)
      exact (shorter 0).bind fun node => ih _ shorter (by omega)
    · exact (still_pure nodes).ends (by simp) size

/-- What rules read with ends, if operands do and the bound is greater than the number of tokens. -/
theorem ends_reads (ends : ∀ strength, Ends size (operand strength)) (large : size < bound) :
    Congruence.Reads (fun {α} (action : Parser N α) _ => Ends size action) operand operand bound
      bound where
  operands := ends
  counts type := ends_acceptAll type 0 large
  moreItems separator nodes := ends_moreItems separator nodes ends large

end Parser

namespace Grammar

open Climb.Parser

/-- Neither a rule of a grammar nor an interpreter says that the depth is not enough. -/
def LeavesDepth (grammar : Grammar N) (interpreter : Option (Interpreter N)) : Prop :=
  grammar.KeepsTo interpreter (fun _ => True) (fun _ => True) (· ≠ .parse .tooDeep)

variable {grammar : Grammar N} {interpreter : Option (Interpreter N)} {operand : Int → Parser N N}

namespace LeavesDepth

variable (leaves : grammar.LeavesDepth interpreter)

include leaves

/-- Climbing ends, if operands do and the bounds are greater than the number of tokens. -/
theorem ends_climb (minimum : Int) {bound : Nat} : ∀ {size depth : Nat} (left : N),
    (∀ strength, Ends size (operand strength)) → size < bound → size < depth →
      Ends size (grammar.climb interpreter operand depth minimum bound left) := by
  induction bound with
  | zero => intro size depth left _ large _; omega
  | succ bound ih =>
    intro size depth left ends large deep
    have steady := fun strength => (ends strength).steady
    rw [climb_succ]
    refine (ends_peek 0 size).bind fun ahead => ?_
    split
    · -- The operator is consumed before the loop goes round, so the list gets shorter.
      refine ends_consume_bind
        (steady_continueBy steady (steady_climb steady depth minimum bound) depth left)
        fun token smaller less => ?_
      have shorter := fun strength => (ends strength).mono (Nat.le_of_lt less)
      have goesOn : ∀ node,
          Ends smaller (grammar.climb interpreter operand depth minimum bound node) :=
        fun node => ih node shorter (by omega) (by omega)
      exact related_continueBy (congruence_ends smaller) leaves _
        (grammar.climb interpreter operand depth minimum bound) (ends_reads shorter (by omega))
        goesOn trivial rfl left
    · exact (still_pure left).ends (by simp) size

/-- Reading an expression ends, if the depth is greater than the number of tokens. -/
theorem ends_expressionWithin {depth : Nat} : ∀ {size : Nat} (minimum : Int), size < depth →
    Ends size (grammar.expressionWithin interpreter depth minimum) := by
  -- An operand is read after a token is consumed, so the depth falls no faster than the list.
  induction depth with
  | zero => intro size minimum deep; omega
  | succ depth ih =>
    intro size minimum deep
    rw [expressionWithin_succ]
    refine ends_consume_bind
      (steady_startBy (steady_expressionWithin depth)
        (steady_climb (steady_expressionWithin depth) depth minimum depth) depth)
      fun token smaller less => ?_
    have operands : ∀ strength,
        Ends smaller (grammar.expressionWithin interpreter depth strength) :=
      fun strength => ih strength (by omega)
    have goesOn := fun node =>
      leaves.ends_climb minimum node operands (show smaller < depth by omega)
        (show smaller < depth by omega)
    exact related_startBy (congruence_ends smaller) leaves _
      (grammar.climb interpreter (grammar.expressionWithin interpreter depth) depth minimum depth)
      (ends_reads operands (by omega)) goesOn trivial rfl

/-- Reading an expression ends, however many tokens there are. -/
theorem ends_expression (minimum : Int) (size : Nat) :
    Ends size (grammar.expression interpreter minimum) where
  steady := steady_expression minimum
  ends {cursor} _ shallow := by
    -- The depth is taken from the list itself.
    have agree : Agree cursor.tokens.length (grammar.expression interpreter minimum) _ :=
      agree_expression minimum (Nat.lt_succ_self _)
    rw [agree.same cursor (Nat.le_refl _)]
    exact (leaves.ends_expressionWithin minimum (Nat.lt_succ_self _)).ends (Nat.le_refl _) shallow

/-- A run over a source that ends does not run out of its depth. -/
theorem run_ends {source : Source} (ends : source.feed.Ends)
    (shallow : source.feed.cursor.failure ≠ some (.parse .tooDeep)) (exhaust : Bool) :
    (grammar.run interpreter source exhaust).1 ≠ .error (.parse .tooDeep) := by
  -- The depth of a run is one more than the source can have tokens.
  have size : source.feed.cursor.tokens.length < source.feed.size + 1 :=
    Nat.lt_succ_of_le source.feed.cursor_length
  have whole : Ends source.feed.cursor.tokens.length
      (grammar.inputWithin interpreter (source.feed.size + 1) exhaust) :=
    related_inputWithin (congruence_ends _) grammar (source.feed.size + 1)
      (leaves.ends_expressionWithin 0 size) exhaust
  rw [congrArg Prod.fst (grammar.run_on ends exhaust)]
  exact whole.ends (Nat.le_refl _) shallow

end LeavesDepth

end Grammar

end Climb
