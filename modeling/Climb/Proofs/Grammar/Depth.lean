import Climb.Proofs.Grammar.Congruence

/-! The bound on nesting is never felt: one more than the number of tokens is always enough. -/

namespace Climb

variable {N : Type}

namespace Cursor

/-- Consuming a token leaves fewer tokens than there were. -/
theorem consume_length {cursor after : Cursor} {expected : Option TokenType} {token : Token}
    (consumed : cursor.consume expected = (.ok token, after)) :
    after.tokens.length < cursor.tokens.length := by
  -- Whatever the type expected, a token that is consumed is taken from the front.
  have left := cursor.consume_left expected
  simp only [consumed] at left
  match cursor with
  | ⟨first :: rest, failure⟩ => simp [left, take]
  | ⟨[], none⟩ => simp [consume, take] at consumed
  | ⟨[], some failure⟩ => simp [consume, take] at consumed

/-- Accepting a token leaves fewer tokens than there were. -/
theorem accept_length {cursor after : Cursor} {type : TokenType}
    (accepted : cursor.accept type = (.ok true, after)) :
    after.tokens.length < cursor.tokens.length := by
  -- Only a first token can be accepted.
  match cursor with
  | ⟨first :: rest, failure⟩ =>
    simp only [accept] at accepted
    split at accepted <;> simp only [Prod.mk.injEq, Except.ok.injEq,
      Bool.false_eq_true, false_and, true_and] at accepted
    simp [← accepted]
  | ⟨[], none⟩ => simp [accept] at accepted
  | ⟨[], some failure⟩ => simp [accept] at accepted

end Cursor

namespace Parser

variable {α β : Type}

/-- Two actions that do the same on every list of at most a number of tokens. -/
structure Agree (size : Nat) (one other : Parser N α) : Prop where
  steady : Steady one
  otherSteady : Steady other
  same : ∀ cursor, cursor.tokens.length ≤ size → one.on cursor = other.on cursor

/-- An action agrees with itself. -/
theorem Steady.agree {action : Parser N α} (steady : Steady action) (size : Nat) :
    Agree size action action :=
  ⟨steady, steady, fun _ _ => rfl⟩

/-- Actions that agree on long lists agree on short ones. -/
theorem Agree.mono {size smaller : Nat} {first second : Parser N α}
    (agree : Agree size first second) (less : smaller ≤ size) : Agree smaller first second :=
  ⟨agree.steady, agree.otherSteady, fun cursor short => agree.same cursor (by omega)⟩

/-- Agreement goes both ways. -/
theorem Agree.symm {size : Nat} {one other : Parser N α} (agree : Agree size one other) :
    Agree size other one :=
  ⟨agree.otherSteady, agree.steady, fun cursor short => (agree.same cursor short).symm⟩

/-- Agreement is passed on. -/
theorem Agree.trans {size : Nat} {one middle other : Parser N α} (agree : Agree size one middle)
    (next : Agree size middle other) : Agree size one other :=
  ⟨agree.steady, next.otherSteady, fun cursor short =>
    (agree.same cursor short).trans (next.same cursor short)⟩

/-- Actions agree that go on in agreement from the same start. -/
theorem Agree.bind {size : Nat} {first second : Parser N α} {next other : α → Parser N β}
    (start : Agree size first second) (rest : ∀ value, Agree size (next value) (other value)) :
    Agree size (first >>= next) (second >>= other) where
  steady := start.steady.bind fun value => (rest value).steady
  otherSteady := start.otherSteady.bind fun value => (rest value).otherSteady
  same cursor short := by
    -- The second parts start on what the first left, which is no longer than before.
    have length := start.otherSteady.length cursor
    rw [on_bind (fun value => (rest value).steady) cursor start.steady,
      on_bind (fun value => (rest value).otherSteady) cursor start.otherSteady,
      start.same cursor short]
    rcases known : second.on cursor with ⟨outcome, after⟩
    rw [known] at length
    cases outcome with
    | error failure => rfl
    | ok value => exact (rest value).same after (Nat.le_trans length short)

/-- After a token is consumed, agreement is needed only on shorter lists. -/
theorem agree_consume {size : Nat} {expected : Option TokenType} {next other : Token → Parser N β}
    (first : ∀ token, Steady (next token)) (second : ∀ token, Steady (other token))
    (rest : ∀ token smaller, smaller < size → Agree smaller (next token) (other token)) :
    Agree size (consume expected >>= next) (consume expected >>= other) where
  steady := (steady_consume expected).bind first
  otherSteady := (steady_consume expected).bind second
  same cursor short := by
    rw [on_bind first cursor (steady_consume expected),
      on_bind second cursor (steady_consume expected), on_consume]
    rcases known : cursor.consume expected with ⟨outcome, after⟩
    cases outcome with
    | error failure => rfl
    | ok token =>
      -- A consumed token is one that is gone, so what follows has a smaller list to agree on.
      have shorter := Cursor.consume_length known
      exact (rest token _ (by omega)).same after (Nat.le_refl _)

/-- After a token is accepted, agreement is needed only on shorter lists. -/
theorem agree_accept {size : Nat} {type : TokenType} {next other : Bool → Parser N β}
    (first : ∀ accepted, Steady (next accepted)) (second : ∀ accepted, Steady (other accepted))
    (taken : ∀ smaller, smaller < size → Agree smaller (next true) (other true))
    (left : Agree size (next false) (other false)) :
    Agree size (accept type >>= next) (accept type >>= other) where
  steady := (steady_accept type).bind first
  otherSteady := (steady_accept type).bind second
  same cursor short := by
    have length := cursor.accept_suffix type |>.length_le
    rw [on_bind first cursor (steady_accept type),
      on_bind second cursor (steady_accept type), on_accept]
    rcases known : cursor.accept type with ⟨outcome, after⟩
    rw [known] at length
    -- Only an accepted token shortens the list; a refused one leaves it, and the size with it.
    match outcome with
    | .error failure => rfl
    | .ok true =>
      have shorter := Cursor.accept_length known
      exact (taken _ (by omega)).same after (Nat.le_refl _)
    | .ok false => exact left.same after (Nat.le_trans length short)

/-- Counting tokens does not depend on the bound, if that is greater than their number. -/
theorem agree_acceptAll (type : TokenType) {bound : Nat} : ∀ {other size : Nat} (count : Nat),
    size < bound → size < other →
      Agree size (acceptAll type bound count : Parser N Nat) (acceptAll type other count) := by
  -- Each round accepts a token, so either bound outlasts the list.
  induction bound with
  | zero => intro other size count large _; omega
  | succ bound ih =>
    intro other size count large larger
    cases other with
    | zero => omega
    | succ other =>
      refine agree_accept (fun accepted => ?_) (fun accepted => ?_) (fun smaller less => ?_) ?_
      · cases accepted with
        | true => exact steady_acceptAll type bound (count + 1)
        | false => exact (still_pure count).steady
      · cases accepted with
        | true => exact steady_acceptAll type other (count + 1)
        | false => exact (still_pure count).steady
      · exact ih (count + 1) (by omega) (by omega)
      · exact (still_pure count).steady.agree size

variable {size bound limit : Nat} {operand other : Int → Parser N N}

/-- Reading further items does not depend on the bound, if that is greater than their number. -/
theorem agree_moreItems (separator : TokenType) : ∀ {bound limit size : Nat} (nodes : List N),
    (∀ strength, Agree size (operand strength) (other strength)) → size < bound → size < limit →
      Agree size (moreItems operand separator bound nodes)
        (moreItems other separator limit nodes) := by
  -- A separator goes before every further item, so the bound falls no faster than the list.
  intro bound
  induction bound with
  | zero => intro limit size nodes _ large _; omega
  | succ bound ih =>
    intro limit size nodes agree large larger
    have steady := fun strength => (agree strength).steady
    have otherSteady := fun strength => (agree strength).otherSteady
    cases limit with
    | zero => omega
    | succ limit =>
      refine agree_accept (fun accepted => ?_) (fun accepted => ?_) (fun smaller less => ?_) ?_
      · cases accepted with
        | true => exact (steady 0).bind fun node => steady_moreItems steady separator bound _
        | false => exact (still_pure nodes).steady
      · cases accepted with
        | true =>
          exact (otherSteady 0).bind fun node => steady_moreItems otherSteady separator limit _
        | false => exact (still_pure nodes).steady
      · have shorter := fun strength => (agree strength).mono (Nat.le_of_lt less)
        exact (shorter 0).bind fun node => ih _ shorter (by omega) (by omega)
      · exact (still_pure nodes).steady.agree size

/-- Agreement is passed on from elementary actions to all others. -/
theorem congruence_agree (size : Nat) :
    Congruence (fun _ => True) (fun _ => True) (fun _ => True)
      fun {α} (one other : Parser N α) => Agree size one other where
  faults _ _ := trivial
  still still _ := still.steady.agree size
  take rest := ((steady_consume _).agree size).bind fun token => rest token trivial
  accept type := (steady_accept type).agree size
  near := trivial
  peek distance _ := (steady_peek distance).agree size
  bind := Agree.bind

/-- What rules read with does not depend on the bound, if that is greater than the number of
tokens. -/
theorem agree_reads (agree : ∀ strength, Agree size (operand strength) (other strength))
    (large : size < bound) (larger : size < limit) :
    Congruence.Reads (fun {α} (one other : Parser N α) => Agree size one other) operand other
      bound limit where
  operands := agree
  counts type := agree_acceptAll type 0 large larger
  moreItems separator nodes := agree_moreItems separator nodes agree large larger

end Parser

namespace Grammar

open Climb.Parser

variable {grammar : Grammar N} {interpreter : Option (Interpreter N)}
  {operand other : Int → Parser N N}

/-- Starting an expression does not depend on the bound. -/
theorem agree_startBy {size depth nesting : Nat} {next after : N → Parser N N}
    (agree : ∀ strength, Agree size (operand strength) (other strength))
    (rest : ∀ node, Agree size (next node) (after node)) (deep : size < depth)
    (deeper : size < nesting) (token : Token) :
    Agree size (grammar.startBy interpreter operand depth next token)
      (grammar.startBy interpreter other nesting after token) :=
  related_startBy (congruence_agree size) (grammar.keepsTo_any interpreter) next after
    (agree_reads agree deep deeper) rest trivial rfl

/-- Continuing an expression does not depend on the bound. -/
theorem agree_continueBy {size depth nesting : Nat} {next after : N → Parser N N}
    (agree : ∀ strength, Agree size (operand strength) (other strength))
    (rest : ∀ node, Agree size (next node) (after node)) (deep : size < depth)
    (deeper : size < nesting) (left : N) (token : Token) :
    Agree size (grammar.continueBy interpreter operand depth left next token)
      (grammar.continueBy interpreter other nesting left after token) :=
  related_continueBy (congruence_agree size) (grammar.keepsTo_any interpreter) next after
    (agree_reads agree deep deeper) rest trivial rfl left

/-- Climbing does not depend on the bounds, if they are greater than the number of tokens. -/
theorem agree_climb (minimum : Int) : ∀ {bound limit size depth nesting : Nat} (left : N),
    (∀ strength, Agree size (operand strength) (other strength)) →
      size < bound → size < limit → size < depth → size < nesting →
        Agree size (grammar.climb interpreter operand depth minimum bound left)
          (grammar.climb interpreter other nesting minimum limit left) := by
  intro bound
  -- Both loops are opened together; neither bound is reached while the list is shorter.
  induction bound with
  | zero => intro limit size depth nesting left _ large _ _ _; omega
  | succ bound ih =>
    intro limit size depth nesting left agree large larger deep deeper
    have steady := fun strength => (agree strength).steady
    have otherSteady := fun strength => (agree strength).otherSteady
    cases limit with
    | zero => omega
    | succ limit =>
      rw [climb_succ, climb_succ]
      refine ((steady_peek 0).agree size).bind fun ahead => ?_
      split
      · -- The operator is consumed before the loop goes round, so the list gets shorter.
        refine agree_consume
          (steady_continueBy steady (steady_climb steady depth minimum bound) depth left)
          (steady_continueBy otherSteady (steady_climb otherSteady nesting minimum limit)
            nesting left)
          fun token smaller less => ?_
        have shorter := fun strength => (agree strength).mono (Nat.le_of_lt less)
        exact agree_continueBy shorter
          (fun node => ih node shorter (by omega) (by omega) (by omega) (by omega))
          (by omega) (by omega) left token
      · exact (still_pure left).steady.agree size

/-- Reading an expression does not depend on the depth, if that is above the tokens' number. -/
theorem agree_expressionWithin : ∀ {depth nesting size : Nat} (minimum : Int),
    size < depth → size < nesting →
      Agree size (grammar.expressionWithin interpreter depth minimum)
        (grammar.expressionWithin interpreter nesting minimum) := by
  intro depth
  -- An operand is read after a token is consumed, so the depth falls no faster than the list.
  induction depth with
  | zero => intro nesting size minimum deep _; omega
  | succ depth ih =>
    intro nesting size minimum deep deeper
    cases nesting with
    | zero => omega
    | succ nesting =>
      rw [expressionWithin_succ, expressionWithin_succ]
      refine agree_consume
        (steady_startBy (steady_expressionWithin depth)
          (steady_climb (steady_expressionWithin depth) depth minimum depth) depth)
        (steady_startBy (steady_expressionWithin nesting)
          (steady_climb (steady_expressionWithin nesting) nesting minimum nesting) nesting)
        fun token smaller less => ?_
      have operands : ∀ strength, Agree smaller
          (grammar.expressionWithin interpreter depth strength)
          (grammar.expressionWithin interpreter nesting strength) :=
        fun strength => ih strength (by omega) (by omega)
      exact agree_startBy operands
        (fun node => agree_climb minimum node operands (by omega) (by omega) (by omega) (by omega))
        (by omega) (by omega) token

end Grammar

end Climb
