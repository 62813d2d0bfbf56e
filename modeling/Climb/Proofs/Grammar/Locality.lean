import Climb.Grammar.Registration
import Climb.Grammar.Tree
import Climb.Proofs.Grammar.Entries
import Climb.Proofs.Grammar.Reading

/-! Grammars that hold the same for the tokens of an input do the same on it. -/

namespace Climb

variable {N : Type}

namespace Cursor

/-- A token that is consumed was left. -/
theorem consume_mem {cursor : Cursor} {expected : Option TokenType} {token : Token}
    (consumed : (cursor.consume expected).1 = .ok token) : token ∈ cursor.tokens := by
  match cursor with
  | ⟨first :: rest, failure⟩ =>
    -- Only the first token is consumed, whether or not a type was expected.
    cases expected with
    | none => simp_all [consume, take]
    | some type =>
      simp only [consume, take] at consumed
      split at consumed <;> simp_all
  | ⟨[], none⟩ => simp [consume, take] at consumed
  | ⟨[], some failure⟩ => simp [consume, take] at consumed

/-- A token that is seen ahead is left. -/
theorem peek_mem {cursor : Cursor} {distance : Nat} {token : Token}
    (seen : (cursor.peek distance).1 = .ok (some token)) : token ∈ cursor.tokens := by
  simp only [peek] at seen
  -- What is seen has a place in the list; past the end there is no token.
  split at seen
  · rename_i found
    simp only [Except.ok.injEq, Option.some.injEq] at seen
    exact List.mem_of_getElem? (seen ▸ found)
  · simp at seen
  · simp at seen

end Cursor

/-- All tokens that are left are known. -/
def ParseState.Knows (known : Token → Prop) (state : ParseState N) : Prop :=
  ∃ cursor, state.buffer.Shows cursor ∧ ∀ token ∈ cursor.tokens, known token

namespace Parser

variable {α β : Type} {known : Token → Prop} {state : ParseState N}

/-- A token that is consumed is known. -/
theorem consume_known (knows : state.Knows known) {expected : Option TokenType} {token : Token}
    (consumed : (consume expected state).1 = .ok token) : known token := by
  obtain ⟨cursor, shown, all⟩ := knows
  have outcome := (Buffer.consume_matches shown expected).outcome
  exact all token (Cursor.consume_mem (outcome.symm.trans consumed))

/-- A token that is next is known. -/
theorem peek_known (knows : state.Knows known) {token : Token}
    (seen : (peek 0 state).1 = .ok (some token)) : known token := by
  obtain ⟨cursor, shown, all⟩ := knows
  have outcome := (Buffer.peek_matches shown 0).outcome
  exact all token (Cursor.peek_mem (outcome.symm.trans seen))

/-- Two actions that do the same where all tokens that are left are known, and then leave known ones
only. -/
structure Alike (known : Token → Prop) (one other : Parser N α) : Prop where
  same : ∀ {state : ParseState N}, state.Knows known → one state = other state
  knows : ∀ {state : ParseState N}, state.Knows known → (one state).2.Knows known

/-- An action that takes tokens in order leaves known ones. -/
theorem Steady.alike {action : Parser N α} (steady : Steady action) :
    Alike known action action where
  same _ := rfl
  knows := fun ⟨cursor, shown, all⟩ =>
    ⟨_, (steady.determined shown).2, fun token left =>
      all token ((steady.suffix cursor).subset left)⟩

/-- Actions are alike that go on alike, with a value found among known tokens, from starts that are
alike. -/
theorem Alike.bind_of {first second : Parser N α} {next other : α → Parser N β}
    (start : Alike known first second)
    (rest : ∀ {state value}, state.Knows known → (first state).1 = .ok value →
      Alike known (next value) (other value)) :
    Alike known (first >>= next) (second >>= other) := by
  have both : ∀ {state : ParseState N}, state.Knows known →
      (first >>= next) state = (second >>= other) state ∧
        ((first >>= next) state).2.Knows known := by
    intro state knows
    have after := start.knows knows
    rw [bind_apply, bind_apply, ← start.same knows]
    rcases run : first state with ⟨outcome, left⟩
    rw [run] at after
    cases outcome with
    | error failure => exact ⟨rfl, after⟩
    | ok value =>
      -- The second actions start from one state, and all tokens that are left there are known.
      have goesOn := rest knows (congrArg Prod.fst run)
      exact ⟨goesOn.same after, goesOn.knows after⟩
  exact ⟨fun knows => (both knows).1, fun knows => (both knows).2⟩

/-- Being alike is passed on from elementary actions to all others. -/
theorem congruence_alike :
    Congruence (fun _ => True) known (fun _ => True)
      fun {α} (one other : Parser N α) => Alike known one other where
  faults _ _ := trivial
  still still _ := still.steady.alike
  take rest := (steady_consume _).alike.bind_of fun {_ token} knows consumed =>
    rest token (consume_known knows consumed)
  accept type := (steady_accept type).alike
  near := trivial
  peek distance _ := (steady_peek distance).alike
  bind start rest := start.bind_of fun {_ value} _ _ => rest value

end Parser

namespace Grammar

open Climb.Parser

variable {one other : Grammar N} {interpreter : Option (Interpreter N)} {known : Token → Prop}

/-- Two grammars that hold the same for a token. -/
structure SameFor (one other : Grammar N) (token : Token) : Prop where
  head : one.head? token = other.head? token
  tail : one.tail? token = other.tail? token
  strength : one.strengthOf (some token) = other.strengthOf (some token)

/-- Grammars that hold the same at the places of a token hold the same for it. -/
theorem sameFor_of_held {token : Token} (uniform : one.uniform = other.uniform)
    (same : ∀ position, one.held? (position, token.type) = other.held? (position, token.type)) :
    SameFor one other token := by
  -- An entry is written with its place, so equal ones come from equal rules and strengths.
  have head : one.heads.get? token.type = other.heads.get? token.type :=
    (Option.map_inj_right fun _ _ equal => (TableEntry.head.inj equal).2).1 (same .head)
  have tail : one.tails.get? token.type = other.tails.get? token.type :=
    (Option.map_inj_right fun _ _ equal =>
      Prod.ext (TableEntry.tail.inj equal).2.1 (TableEntry.tail.inj equal).2.2).1 (same .tail)
  refine ⟨head, ?_, ?_⟩
  · simp only [tail?, tail]
  · simp only [strengthOf, uniform, tail]

section

variable (same : ∀ token, known token → SameFor one other token)

include same

/-- The next token binds alike. -/
theorem strengthOf_ahead {ahead : Option Token} (all : ∀ token ∈ ahead, known token) :
    one.strengthOf ahead = other.strengthOf ahead := by
  cases ahead with
  | none => rfl
  | some token => exact (same token (all token rfl)).strength

/-- Climbing is alike, if operands are. -/
theorem alike_climb {operand further : Int → Parser N N}
    (alike : ∀ strength, Alike known (operand strength) (further strength)) (depth : Nat)
    (minimum : Int) (bound : Nat) :
    ∀ left, Alike known (one.climb interpreter operand depth minimum bound left)
      (other.climb interpreter further depth minimum bound left) := by
  have congruence := @congruence_alike N known
  -- A round looks ahead, and then it is over or is followed by another one.
  induction bound with
  | zero => exact fun _ => congruence.tooDeep trivial
  | succ bound ih =>
    intro left
    rw [climb_succ, climb_succ]
    refine (steady_peek 0).alike.bind_of fun {_ ahead} knows seen => ?_
    have binds : one.strengthOf ahead = other.strengthOf ahead := by
      refine strengthOf_ahead same fun token next => ?_
      obtain rfl : ahead = some token := next
      exact peek_known knows seen
    rw [binds]
    split
    · refine congruence.take fun token known => ?_
      exact related_continueBy congruence (one.keepsTo_any interpreter) _ _
        (congruence.reads trivial alike depth) ih known (same token known).tail left
    · exact congruence.returns left

/-- Reading an expression is alike. -/
theorem alike_expressionWithin (depth : Nat) :
    ∀ minimum, Alike known (one.expressionWithin interpreter depth minimum)
      (other.expressionWithin interpreter depth minimum) := by
  have congruence := @congruence_alike N known
  -- Operands are read one level down.
  induction depth with
  | zero => exact fun _ => congruence.tooDeep trivial
  | succ depth ih =>
    intro minimum
    rw [expressionWithin_succ, expressionWithin_succ]
    refine congruence.take fun token known => ?_
    exact related_startBy congruence (one.keepsTo_any interpreter) _ _
      (congruence.reads trivial ih depth) (alike_climb same ih depth minimum depth) known
      (same token known).head

end

/-- A run depends only on what a grammar holds for the tokens of the source. -/
theorem run_congr {source : Source} (ends : source.feed.Ends)
    (same : ∀ token ∈ source.feed.cursor.tokens, SameFor one other token) (exhaust : Bool) :
    one.run interpreter source exhaust = other.run interpreter source exhaust :=
  (related_inputWithin congruence_alike other _ (alike_expressionWithin same _ 0) exhaust).same
    ⟨source.feed.cursor, Buffer.shows_ofSource source ends, fun _ member => member⟩

/--
Rules for other tokens do not matter. Two grammars hold the same rules, with the same strengths, for
every token of a source, and anything else for others; if one strength is taken for all tokens, it
is the same in both. Then they read the source alike, with every interpreter or none: they end with
the same node or the same failure, have handed the same nodes to the interpreter, and have taken the
same tokens.
-/
theorem rules_for_other_tokens_do_not_matter (one other : Grammar N)
    (uniform : one.uniform = other.uniform) (source : Source) (ends : source.feed.Ends)
    (same : ∀ token ∈ source.feed.cursor.tokens, ∀ position,
      one.held? (position, token.type) = other.held? (position, token.type))
    (interpreter : Option (Interpreter N)) (exhaust : Bool) :
    one.run interpreter source exhaust = other.run interpreter source exhaust :=
  run_congr ends (fun token member => sameFor_of_held uniform (same token member)) exhaust

/-- Two grammars with the same names and sums, and with different products and signs, refuse the
same token after the same sum. -/
theorem products_are_not_felt_in_sums :
    let word (text : String) : Token := ⟨.text text, some text⟩
    let build (tag : String) : Tree.Builder := .tagged (.text tag)
    let name : Registration Tree := .leaf (.text "n") "n" (build "n").leaf
    let sum : Registration Tree := .between (.text "+") "+" (build "+").binary (.int 1) (.ok .left)
    let one : Grammar Tree := ({} : Grammar Tree).extend [name, sum,
      .between (.text "*") "*" (build "*").binary (.int 2) (.ok .right)]
    let other : Grammar Tree := ({} : Grammar Tree).extend [sum,
      .leaf (.text "*") "*" (build "*").leaf,
      .before (.text "-") "-" (build "-").unary (.int 0), name]
    let tokens := [word "n", word "+", word "n", word "n", word "+"]
    let source : Source := .ofTokens tokens
    one.uniform = other.uniform ∧ source.feed.Ends ∧
      (∀ token ∈ source.feed.cursor.tokens, ∀ position,
        one.held? (position, token.type) = other.held? (position, token.type)) ∧
      (one.run none source true).1 = .error (.parse (.excessToken (word "n"))) ∧
      (one.run none source true).2.buffer.source.pulled = 4 ∧
      other.run none source true = one.run none source true := by
  intro word build name sum one other tokens source
  have same : ∀ token ∈ source.feed.cursor.tokens, ∀ position,
      one.held? (position, token.type) = other.held? (position, token.type) := by
    intro token member position
    have listed : token = word "n" ∨ token = word "+" := by
      simp only [source, Source.ofTokens, Feed.cursor, tokens, List.mem_cons, List.not_mem_nil]
        at member
      grind
    rcases listed with rfl | rfl <;> cases position <;> rfl
  have run := rules_for_other_tokens_do_not_matter one other rfl source trivial same none true
  exact ⟨rfl, trivial, same, rfl, rfl, run.symm⟩

end Grammar

end Climb
