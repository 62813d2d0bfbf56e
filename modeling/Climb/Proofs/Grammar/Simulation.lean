import Mathlib.Data.List.Forall2
import Climb.Proofs.Grammar.Cursor

/-! Two runs over the same tokens build related nodes, unless an interpreter breaks off one. -/

namespace Climb

variable {N : Type} {α β γ δ : Type}

/-- Two outcomes that are related values, or one and the same failure. -/
inductive Outcomes (related : α → β → Prop) : Except Error α → Except Error β → Prop
  | ok {one : α} {other : β} (same : related one other) : Outcomes related (.ok one) (.ok other)
  | error (failure : Error) : Outcomes related (.error failure) (.error failure)

/-- An outcome is alike to itself. -/
theorem Outcomes.self (outcome : Except Error α) : Outcomes Eq outcome outcome := by
  cases outcome with
  | error failure => exact .error failure
  | ok value => exact .ok rfl

/-- Two findings of a step that differ only in nodes, which are related. -/
inductive Part.Alike (related : N → N → Prop) : Part N → Part N → Prop
  | node {one other : N} (same : related one other) : Alike related (.node one) (.node other)
  | token (value : Token) : Alike related (.token value) (.token value)
  | flag (value : Bool) : Alike related (.flag value) (.flag value)
  | glimpse (value : Option Token) : Alike related (.glimpse value) (.glimpse value)
  | nodes {ones others : List N} (same : List.Forall₂ related ones others) :
    Alike related (.nodes ones) (.nodes others)
  | count (value : Nat) : Alike related (.count value) (.count value)

/-- A rule that starts related nodes from related operands. -/
def HeadRule.Respects (related new : N → N → Prop) : HeadRule N → Prop
  | leaf _ build => ∀ token, Outcomes new (build token) (build token)
  | operator _ build _ => ∀ token {one other : N}, related one other →
    Outcomes new (build token one) (build token other)
  | form _ _ build => ∀ token {ones others : List (Part N)},
    List.Forall₂ (Part.Alike related) ones others →
      Outcomes new (build token ones) (build token others)

/-- A rule that continues related nodes by related ones. -/
def TailRule.Respects (related new : N → N → Prop) : TailRule N → Prop
  | operator _ build _ | bare _ build _ => ∀ token {one other : N}, related one other →
    Outcomes new (build token one) (build token other)
  | binary _ build _ _ => ∀ token {left otherLeft right otherRight : N}, related left otherLeft →
    related right otherRight →
      Outcomes new (build token left right) (build token otherLeft otherRight)
  | form _ _ build _ => ∀ token {ones others : List (Part N)},
    List.Forall₂ (Part.Alike related) ones others →
      Outcomes new (build token ones) (build token others)

namespace Parser

/--
Two actions that start from the same tokens leave the same tokens and have related outcomes. The
second may also break off, with a failure of its own that the nodes it has interpreted account for.
-/
def Simulates (broken : Error → List N → Prop) (related : α → β → Prop) (one : Parser N α)
    (other : Parser N β) : Prop :=
  ∀ first second : ParseState N, first.buffer = second.buffer →
    (∃ failure, (other second).1 = .error failure ∧ broken failure (other second).2.seen) ∨
      (one first).2.buffer = (other second).2.buffer ∧
        Outcomes related (one first).1 (other second).1

variable {broken : Error → List N → Prop} {related : α → β → Prop}

/-- Actions that leave the tokens alone need only have related outcomes. -/
theorem Still.simulates {one : Parser N α} {other : Parser N β} {outcome : Except Error α}
    {answer : Except Error β} (still : Still one outcome) (otherStill : Still other answer)
    (outcomes : Outcomes related outcome answer) : Simulates broken related one other := by
  intro first second same
  refine .inr ⟨?_, ?_⟩
  · rw [still.buffer, otherStill.buffer, same]
  · rwa [still.answer, otherStill.answer]

/-- Returning related values is related. -/
theorem simulates_pure {one : α} {other : β} (same : related one other) :
    Simulates broken related (pure one : Parser N α) (pure other) :=
  (still_pure one).simulates (still_pure other) (.ok same)

/-- Failing alike is related. -/
theorem simulates_throw (failure : Error) :
    Simulates broken related (throw failure : Parser N α) (throw failure) :=
  (still_throw failure).simulates (still_throw failure) (.error failure)

/-- Building related nodes is related. -/
theorem simulates_built {outcome : Except Error α} {answer : Except Error β}
    (outcomes : Outcomes related outcome answer) :
    Simulates broken related (built outcome : Parser N α) (built answer) :=
  (still_built outcome).simulates (still_built answer) outcomes

/-- An operation of the buffer has one outcome on the same tokens. -/
theorem simulates_onBuffer (operation : Buffer → Except Error α × Buffer) :
    Simulates broken Eq (onBuffer operation : Parser N α) (onBuffer operation) := by
  intro first second same
  -- Only the buffer is read and written; the rest of the state plays no part.
  have unfolded : ∀ state : ParseState N, ((onBuffer operation : Parser N α) state).1 =
      (operation state.buffer).1 ∧ ((onBuffer operation : Parser N α) state).2.buffer =
      (operation state.buffer).2 := fun _ => ⟨rfl, rfl⟩
  refine .inr ⟨?_, ?_⟩
  · rw [(unfolded first).2, (unfolded second).2, same]
  · rw [(unfolded first).1, (unfolded second).1, same]
    exact .self _

/-- Related actions go on to related actions. -/
theorem Simulates.bind {further : γ → δ → Prop} {one : Parser N α} {other : Parser N β}
    {next : α → Parser N γ} {otherNext : β → Parser N δ}
    (start : Simulates broken related one other)
    (goesOn : ∀ {value answer}, related value answer →
      Simulates broken further (next value) (otherNext answer)) :
    Simulates broken further (one >>= next) (other >>= otherNext) := by
  intro first second same
  have started := start first second same
  rcases run : one first with ⟨outcome, after⟩
  rcases otherRun : other second with ⟨answer, otherAfter⟩
  simp only [run, otherRun] at started
  rw [bind_apply, bind_apply, run, otherRun]
  rcases started with ⟨failure, rfl, breaks⟩ | ⟨buffers, outcomes⟩
  · -- What broke off the start breaks off the whole.
    exact .inl ⟨failure, rfl, breaks⟩
  · -- Related values are passed on; a common failure ends both actions alike.
    cases outcomes with
    | ok same => exact goesOn same after otherAfter buffers
    | error failure => exact .inr ⟨buffers, .error failure⟩

/-- Going on by the same answer needs no relation between answers. -/
theorem Simulates.bind_same {further : γ → δ → Prop} {one other : Parser N α}
    {next : α → Parser N γ} {otherNext : α → Parser N δ} (start : Simulates broken Eq one other)
    (goesOn : ∀ value, Simulates broken further (next value) (otherNext value)) :
    Simulates broken further (one >>= next) (other >>= otherNext) := by
  refine start.bind ?_
  rintro value _ rfl
  exact goesOn value

/-- Counting tokens has one outcome on the same tokens. -/
theorem simulates_acceptAll (type : TokenType) (bound : Nat) :
    ∀ count, Simulates broken Eq (acceptAll type bound count : Parser N Nat)
      (acceptAll type bound count) := by
  induction bound with
  | zero => exact fun _ => simulates_throw _
  | succ bound ih =>
    intro count
    refine (simulates_onBuffer _).bind_same fun accepted => ?_
    cases accepted with
    | true => exact ih (count + 1)
    | false => exact simulates_pure rfl

variable {alike new : N → N → Prop} {operand otherOperand : Int → Parser N N}

section

variable (simulates : ∀ strength, Simulates broken alike (operand strength) (otherOperand strength))

include simulates

/-- Further items are related one by one. -/
theorem simulates_moreItems (separator : TokenType) (bound : Nat) :
    ∀ {nodes others : List N}, List.Forall₂ alike nodes others →
      Simulates broken (List.Forall₂ alike) (moreItems operand separator bound nodes)
        (moreItems otherOperand separator bound others) := by
  -- Both loops accept the same separators, so their lists of items grow together.
  induction bound with
  | zero => exact fun _ => simulates_throw _
  | succ bound ih =>
    intro nodes others same
    refine (simulates_onBuffer _).bind_same fun accepted => ?_
    cases accepted with
    | true => exact (simulates 0).bind fun related => ih (List.rel_append same (.cons related .nil))
    | false => exact simulates_pure same

/-- Items up to a closing token are related one by one. -/
theorem simulates_items (bound : Nat) (separator close : TokenType) :
    Simulates broken (List.Forall₂ alike) (items operand bound separator close)
      (items otherOperand bound separator close) := by
  refine (simulates_onBuffer _).bind_same fun accepted => ?_
  cases accepted with
  | true => exact simulates_pure .nil
  | false =>
    refine (simulates 0).bind fun related => ?_
    refine (simulates_moreItems simulates separator bound (.cons related .nil)).bind fun same => ?_
    rw [discard_eq]
    exact ((simulates_onBuffer _).bind_same fun _ => simulates_pure rfl).bind_same
      fun _ => simulates_pure same

/-- A step of a form finds alike parts. -/
theorem simulates_step (bound : Nat) (token : Token) {left otherLeft : Option N}
    (lefts : Option.Rel alike left otherLeft) (pattern : Step) :
    Simulates broken (List.Forall₂ (Part.Alike alike)) (step operand bound token left pattern)
      (step otherOperand bound token otherLeft pattern) := by
  -- Only operands and items hold nodes; all other findings come from the tokens and are equal.
  cases pattern with
  | left =>
    refine simulates_pure ?_
    cases lefts with
    | some related => exact .cons (.node related) .nil
    | none => exact .nil
  | operand strength =>
    exact (simulates strength).bind fun related => simulates_pure (.cons (.node related) .nil)
  | consume expected =>
    exact (simulates_onBuffer _).bind_same fun value => simulates_pure (.cons (.token value) .nil)
  | accept type =>
    exact (simulates_onBuffer _).bind_same fun value => simulates_pure (.cons (.flag value) .nil)
  | peek distance =>
    exact (simulates_onBuffer _).bind_same fun value => simulates_pure (.cons (.glimpse value) .nil)
  | atEnd =>
    exact (simulates_onBuffer _).bind_same fun value => simulates_pure (.cons (.flag value) .nil)
  | items separator close =>
    exact (simulates_items simulates bound separator close).bind fun same =>
      simulates_pure (.cons (.nodes same) .nil)
  | repeated type =>
    exact (simulates_acceptAll type bound 0).bind_same fun value =>
      simulates_pure (.cons (.count value) .nil)
  | fail message => exact simulates_throw _

/-- The steps of a form find alike parts. -/
theorem simulates_steps (bound : Nat) (token : Token) {left otherLeft : Option N}
    (lefts : Option.Rel alike left otherLeft) (pattern : List Step) :
    Simulates broken (List.Forall₂ (Part.Alike alike)) (steps operand bound token left pattern)
      (steps otherOperand bound token otherLeft pattern) := by
  induction pattern with
  | nil => exact simulates_pure .nil
  | cons first rest ih =>
    exact (simulates_step simulates bound token lefts first).bind fun found =>
      ih.bind fun more => simulates_pure (List.rel_append found more)

/-- A rule that respects the relation starts related nodes. -/
theorem simulates_runHead (bound : Nat) (token : Token) {rule : HeadRule N}
    (respects : rule.Respects alike new) :
    Simulates broken new (runHead operand bound token rule)
      (runHead otherOperand bound token rule) := by
  cases rule with
  | leaf label build => exact simulates_built (respects token)
  | operator label build strength =>
    exact (simulates strength).bind fun related => simulates_built (respects token related)
  | form label pattern build =>
    exact (simulates_steps simulates bound token .none pattern).bind fun parts =>
      simulates_built (respects token parts)

/-- A rule that respects the relation continues related nodes. -/
theorem simulates_runTail (bound : Nat) (token : Token) {left otherLeft : N}
    (related : alike left otherLeft) {rule : TailRule N} (respects : rule.Respects alike new) :
    Simulates broken new (runTail operand bound token left rule)
      (runTail otherOperand bound token otherLeft rule) := by
  -- The left operands are related by the loop, and the right ones by the reading of operands.
  cases rule with
  | operator label build strength => exact simulates_built (respects token related)
  | bare label build own => exact simulates_built (respects token related)
  | binary label build strength associativity =>
    exact (simulates _).bind fun right => simulates_built (respects token related right)
  | form label pattern build strength =>
    exact (simulates_steps simulates bound token (.some related) pattern).bind fun parts =>
      simulates_built (respects token parts)

end

end Parser

namespace Grammar

open Climb.Parser

/-- One grammar, with two interpreters, keeps its nodes related, and new ones in their own way. -/
structure Simulation (grammar : Grammar N) (one other : Option (Interpreter N))
    (broken : Error → List N → Prop) (alike new : N → N → Prop) : Prop where
  heads : ∀ {token rule}, grammar.head? token = some rule → rule.Respects alike new
  tails : ∀ {token rule}, grammar.tail? token = some rule → rule.Respects alike new
  interprets : ∀ {node otherNode}, new node otherNode →
    (∃ failure, interpreted other otherNode = .error failure ∧
      ∀ seen, broken failure (seen ++ [otherNode])) ∨
      Outcomes alike (interpreted one node) (interpreted other otherNode)

variable {grammar : Grammar N} {one other : Option (Interpreter N)}
  {broken : Error → List N → Prop} {alike new : N → N → Prop}

namespace Simulation

variable (simulation : Simulation grammar one other broken alike new)

include simulation

/-- Interpreting new nodes relates what becomes of them. -/
theorem interpret {node otherNode : N} (related : new node otherNode) :
    Simulates broken alike (Parser.interpret one node) (Parser.interpret other otherNode) := by
  intro first second same
  have still := still_interpret one node
  have otherStill := still_interpret other otherNode
  -- The second interpreter may break off; otherwise both leave the tokens alone.
  rcases simulation.interprets related with ⟨failure, failed, breaks⟩ | outcomes
  · -- An interpreter that fails has got the node, so the node is the last of those seen.
    refine .inl ⟨failure, by rw [otherStill.answer, failed], ?_⟩
    cases other with
    | none => cases failed
    | some step => exact breaks second.seen
  · exact still.simulates otherStill outcomes first second same

/-- Climbing from related nodes leads to related nodes. -/
theorem climb {operand otherOperand : Int → Parser N N}
    (operands : ∀ strength, Simulates broken alike (operand strength) (otherOperand strength))
    (depth : Nat) (minimum : Int) (bound : Nat) : ∀ {left otherLeft : N}, alike left otherLeft →
      Simulates broken alike (grammar.climb one operand depth minimum bound left)
        (grammar.climb other otherOperand depth minimum bound otherLeft) := by
  induction bound with
  | zero => exact fun _ => simulates_throw _
  | succ bound ih =>
    intro left otherLeft related
    -- Both loops see the same token ahead, so they stop together or use the same rule.
    refine (simulates_onBuffer _).bind_same fun ahead => ?_
    split
    · refine (simulates_onBuffer _).bind_same fun token => ?_
      split
      · exact simulates_throw _
      · rename_i rule found
        refine (simulates_runTail operands depth token related (simulation.tails found)).bind
          fun built => ?_
        -- The rule relates new nodes in their own way, and interpreting brings that back.
        exact (simulation.interpret built).bind fun next => ih next
    · exact simulates_pure related

/-- Reading an expression at the same depth leads to related nodes. -/
theorem expressionWithin (depth : Nat) : ∀ minimum,
    Simulates broken alike (grammar.expressionWithin one depth minimum)
      (grammar.expressionWithin other depth minimum) := by
  -- Operands are read one level down, where the relation is known.
  induction depth with
  | zero => exact fun _ => simulates_throw _
  | succ depth ih =>
    intro minimum
    refine (simulates_onBuffer _).bind_same fun token => ?_
    split
    · exact simulates_throw _
    · rename_i rule found
      refine (simulates_runHead ih depth token (simulation.heads found)).bind fun built => ?_
      exact (simulation.interpret built).bind fun start =>
        simulation.climb ih depth minimum depth start

/-- Reading a whole input leads to related nodes. -/
theorem inputWithin (depth : Nat) (exhaust : Bool) :
    Simulates broken alike (grammar.inputWithin one depth exhaust)
      (grammar.inputWithin other depth exhaust) := by
  refine (simulation.expressionWithin depth 0).bind fun related => ?_
  cases exhaust with
  | false => exact simulates_pure related
  | true =>
    -- What is left over is the same for both, so it is refused in both or in neither.
    refine Simulates.bind_same ?_ fun _ => simulates_pure related
    refine (simulates_onBuffer _).bind_same fun ahead => ?_
    cases ahead with
    | none => exact simulates_pure rfl
    | some token => exact simulates_throw _

/-- Two runs over one source end alike, unless the second breaks off. -/
theorem run (source : Source) (exhaust : Bool) :
    (∃ failure, (grammar.run other source exhaust).1 = .error failure ∧
      broken failure (grammar.run other source exhaust).2.seen) ∨
      (grammar.run one source exhaust).2.buffer = (grammar.run other source exhaust).2.buffer ∧
        Outcomes alike (grammar.run one source exhaust).1 (grammar.run other source exhaust).1 :=
  simulation.inputWithin (source.feed.size + 1) exhaust _ _ rfl

end Simulation

end Grammar

end Climb
