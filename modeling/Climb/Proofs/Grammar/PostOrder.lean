import Mathlib
import Climb.Proofs.Grammar.Climbing
import Climb.Proofs.Grammar.Interpretation
import Climb.Proofs.Grammar.Simulation

/-! The walk over what is read goes through the syntax tree in post-order. -/

namespace Climb

variable {N : Type}

/-- The same rule with a builder that records the token and what was read. -/
def HeadRule.recording : HeadRule N → HeadRule OperatorTree
  | leaf label _ => .leaf label fun token => .ok (.leaf token)
  | operator label _ strength =>
    .operator label (fun token operand => .ok (.before token operand)) strength
  -- What a form reads has no place in a tree of operators.
  | form label pattern _ => .form label pattern fun token _ => .ok (.leaf token)

/-- The same rule with a builder that records the token and what was read. -/
def TailRule.recording : TailRule N → TailRule OperatorTree
  | operator label _ strength =>
    .operator label (fun token operand => .ok (.after operand token)) strength
  | bare label _ own => .bare label (fun token operand => .ok (.after operand token)) own
  | binary label _ strength associativity =>
    .binary label (fun token left right => .ok (.between left token right)) strength associativity
  | form label pattern _ strength => .form label pattern (fun token _ => .ok (.leaf token)) strength

/-- A rule that reads no more than its operand. -/
def HeadRule.IsOperator : HeadRule N → Prop
  | form _ _ _ => False
  | _ => True

/-- A rule that reads no more than its operand. -/
def TailRule.IsOperator : TailRule N → Prop
  | form _ _ _ _ => False
  | _ => True

/-- The rule of a type is changed as its entry is. -/
theorem Table.get?_map {R S : Type} (table : Table R) (change : R → S) (type : TokenType) :
    get? (table.map fun entry => (entry.1, change entry.2)) type =
      (table.get? type).map change := by
  simp only [get?, List.find?_map, Option.map_map]
  rfl

namespace Grammar

/-- A grammar of leaves and operators alone. -/
structure IsOperators (grammar : Grammar N) : Prop where
  heads : ∀ entry ∈ grammar.heads, entry.2.IsOperator
  tails : ∀ entry ∈ grammar.tails, entry.2.1.IsOperator

/-- The same grammar with builders that record the token and what was read. -/
def recording (grammar : Grammar N) : Grammar OperatorTree where
  heads := grammar.heads.map fun entry => (entry.1, entry.2.recording)
  tails := grammar.tails.map fun entry => (entry.1, entry.2.1.recording, entry.2.2)
  uniform := grammar.uniform

section

variable (grammar : Grammar N)

/-- A token starts a tree by the rule by which it starts an expression. -/
theorem recording_head? (token : Token) :
    grammar.recording.head? token = (grammar.head? token).map HeadRule.recording :=
  Table.get?_map grammar.heads HeadRule.recording token.type

/-- The entry of a token in the second table, of which only the builder has changed. -/
theorem recording_tails_get? (type : TokenType) :
    grammar.recording.tails.get? type =
      (grammar.tails.get? type).map fun entry => (entry.1.recording, entry.2) :=
  Table.get?_map grammar.tails (fun entry => (entry.1.recording, entry.2)) type

/-- A token continues a tree by the rule by which it continues an expression. -/
theorem recording_tail? (token : Token) :
    grammar.recording.tail? token = (grammar.tail? token).map TailRule.recording := by
  simp only [tail?, recording_tails_get?, Option.map_map]
  rfl

/-- Recording does not change how tightly tokens bind. -/
theorem recording_strengthOf (ahead : Option Token) :
    grammar.recording.strengthOf ahead = grammar.strengthOf ahead := by
  cases ahead with
  | none => rfl
  | some token =>
    -- The strength stands beside the rule, which is all that is changed.
    simp only [strengthOf, recording_tails_get?, Option.map_map]
    rfl

/-- The node of a token that is an expression by itself. -/
def leafNode (token : Token) : Except Error N :=
  match grammar.head? token with
  | some (.leaf _ build) => build token
  | _ => .error (.parse (.noHeadRule token))

/-- The node of an operator before its operand. -/
def beforeNode (token : Token) (operand : N) : Except Error N :=
  match grammar.head? token with
  | some (.operator _ build _) => build token operand
  | _ => .error (.parse (.noHeadRule token))

/-- The node of an operator after its operand. -/
def afterNode (token : Token) (operand : N) : Except Error N :=
  match grammar.tail? token with
  | some (.operator _ build _) => build token operand
  | some (.bare _ build _) => build token operand
  | _ => .error (.parse (.noTailRule token))

/-- The node of an operator between its operands. -/
def betweenNode (token : Token) (left right : N) : Except Error N :=
  match grammar.tail? token with
  | some (.binary _ build _ _) => build token left right
  | _ => .error (.parse (.noTailRule token))

end

end Grammar

/-- Notes that are the nodes themselves. -/
def Notebook.nodes : Notebook N (List N) where
  of seen := seen
  add seen node := seen ++ [node]
  of_snoc _ _ := rfl

/--
Goes through a tree in post-order. Every node is built of what its operands came to, noted, and
passed through the interpreter.
-/
def OperatorTree.postOrder (grammar : Grammar N) (interpreter : Interpreter N) :
    OperatorTree → Walk (List N) N
  | leaf token => do
    let node ← Walk.outcome (grammar.leafNode token)
    Walk.visit .nodes interpreter node
  | before token operand => do
    let operand ← operand.postOrder grammar interpreter
    let node ← Walk.outcome (grammar.beforeNode token operand)
    Walk.visit .nodes interpreter node
  | after operand token => do
    let operand ← operand.postOrder grammar interpreter
    let node ← Walk.outcome (grammar.afterNode token operand)
    Walk.visit .nodes interpreter node
  | between left token right => do
    let left ← left.postOrder grammar interpreter
    let right ← right.postOrder grammar interpreter
    let node ← Walk.outcome (grammar.betweenNode token left right)
    Walk.visit .nodes interpreter node

namespace Grammar

open Climb.Parser

variable {grammar : Grammar N}

/-- The rules by which a grammar of operators starts an expression read no more than operands. -/
theorem IsOperators.head (operators : grammar.IsOperators) {token : Token} {rule : HeadRule N}
    (found : grammar.head? token = some rule) : rule.IsOperator := by
  obtain ⟨entry, member, rfl⟩ := Table.mem_of_get? found
  exact operators.heads entry member

/-- The rules by which a grammar of operators continues an expression read no more than operands. -/
theorem IsOperators.tail (operators : grammar.IsOperators) {token : Token} {rule : TailRule N}
    (found : grammar.tail? token = some rule) : rule.IsOperator := by
  simp only [tail?, Option.map_eq_some_iff] at found
  obtain ⟨pair, located, rfl⟩ := found
  obtain ⟨entry, member, rfl⟩ := Table.mem_of_get? located
  exact operators.tails entry member

/-- A node that is built and interpreted is one that a walk builds and visits. -/
theorem performs_node (interpreter : Interpreter N) (outcome : Except Error N)
    (state : ParseState N) :
    Performs .nodes (built outcome >>= Parser.interpret (some interpreter))
      (Walk.outcome outcome >>= Walk.visit .nodes interpreter) state state.buffer :=
  (performs_built outcome).finish fun node _ => performs_interpret interpreter node

/-- An operator after its operand extends the operand by one node. -/
theorem extends_after (interpreter : Interpreter N) {build : Token → N → Except Error N}
    {token : Token} (node : ∀ operand, grammar.afterNode token operand = build token operand)
    (left : OperatorTree) :
    Extends .nodes (OperatorTree.postOrder grammar interpreter) left
      (built (.ok (.after left token)))
      fun operand => built (build token operand) >>= Parser.interpret (some interpreter) := by
  intro first tree after done
  cases done
  -- Nothing is read, so the node of the operator is all that is left of the meaning.
  refine ⟨_, rfl, fun operand second same => ?_⟩
  rw [node, ← same]
  exact performs_node interpreter (build token operand) second

/-- A grammar of operators interprets the trees that it records, in post-order. -/
theorem IsOperators.interprets (operators : grammar.IsOperators) (interpreter : Interpreter N) :
    Interprets .nodes grammar.recording grammar interpreter
      (OperatorTree.postOrder grammar interpreter) where
  strengths ahead := (grammar.recording_strengthOf ahead).symm
  heads := by
    intro token rule found
    rw [recording_head?, Option.map_eq_some_iff] at found
    obtain ⟨counterpart, known, rfl⟩ := found
    refine ⟨counterpart, known, fun {operand otherOperand} bound operands => ?_⟩
    have shape := operators.head known
    cases counterpart with
    | leaf label build =>
      intro first second tree after same done
      cases done
      -- The token is the whole tree, and its node is the only one.
      have node : grammar.leafNode token = build token := by simp only [leafNode, known]
      rw [OperatorTree.postOrder, node, ← same]
      exact performs_node interpreter (build token) second
    | operator label build strength =>
      have node : ∀ right, grammar.beforeNode token right = build token right := by
        simp only [beforeNode, known, implies_true]
      -- The operand is read and interpreted first, and only then there is a node for the token.
      simp only [runHead, bind_assoc]
      refine (operands strength).bind fun right first tree after done => ?_
      cases done
      refine ⟨_, rfl, fun answer second same => ?_⟩
      rw [node, ← same]
      exact performs_node interpreter (build token answer) second
    | form label pattern build => exact shape.elim
  tails := by
    intro token rule found
    rw [recording_tail?, Option.map_eq_some_iff] at found
    obtain ⟨counterpart, known, rfl⟩ := found
    refine ⟨counterpart, known, fun {operand otherOperand} bound left operands => ?_⟩
    have shape := operators.tail known
    cases counterpart with
    | operator label build strength =>
      exact extends_after interpreter (by simp only [afterNode, known, implies_true]) left
    | bare label build own =>
      exact extends_after interpreter (by simp only [afterNode, known, implies_true]) left
    | binary label build strength associativity =>
      have node : ∀ left right,
          grammar.betweenNode token left right = build token left right := by
        simp only [betweenNode, known, implies_true]
      intro first tree after done
      obtain ⟨right, _, read, done⟩ := bind_eq_ok done
      cases done
      -- The left operand has been interpreted before the loop came here; the right one is next.
      refine ⟨_, rfl, fun answer second same => ?_⟩
      simp only [runTail, bind_assoc]
      refine (operands _ first second right after same read).bind fun value ready agrees => ?_
      rw [node, ← agrees]
      exact performs_node interpreter (build token answer value) ready
    | form label pattern build strength => exact shape.elim

/-- To have no interpreter is to have one that returns every node as it is. -/
theorem IsOperators.simulates_identity (operators : grammar.IsOperators) :
    Simulation grammar none (some .ok) (fun _ _ => False) Eq Eq where
  -- Both runs build the same nodes, rule by rule, and the second gives each of them back.
  heads := by
    intro token rule found
    have shape := operators.head found
    cases rule with
    | leaf label build => exact fun token => .self _
    | operator label build strength => exact fun token _ _ same => same ▸ .self _
    | form label pattern build => exact shape.elim
  tails := by
    intro token rule found
    have shape := operators.tail found
    cases rule with
    | operator label build strength => exact fun token _ _ same => same ▸ .self _
    | bare label build own => exact fun token _ _ same => same ▸ .self _
    | binary label build strength associativity =>
      exact fun token _ _ _ _ one two => one ▸ two ▸ .self _
    | form label pattern build strength => exact shape.elim
  interprets same := .inr (.ok same)

/-- Without an interpreter a run has the outcome that it has with one that changes nothing. -/
theorem IsOperators.run_identity (operators : grammar.IsOperators) (source : Source)
    (exhaust : Bool) :
    (grammar.run none source exhaust).1 = (grammar.run (some .ok) source exhaust).1 := by
  rcases operators.simulates_identity.run source exhaust with ⟨_, _, broken⟩ | ⟨-, outcomes⟩
  · exact broken.elim
  · generalize (grammar.run none source exhaust).1 = one,
      (grammar.run (some .ok) source exhaust).1 = other at outcomes ⊢
    cases outcomes with
    | ok same => rw [same]
    | error failure => rfl

/--
A grammar of operators that interprets its nodes does what the post-order walk does over the tree
of what it reads. The interpreter is given the nodes of that walk in the same order, up to the first
failure of a builder or of the interpreter, and that failure or the last node is the outcome.
Without an interpreter the outcome is that of the walk which leaves every node as it is.
-/
theorem interpreting_walks_in_post_order (operators : grammar.IsOperators)
    (interpreter : Interpreter N) (tokens : List Token) (exhaust : Bool) {tree : OperatorTree}
    (read : (grammar.recording.run none (.ofTokens tokens) exhaust).1 = .ok tree) :
    ((grammar.run (some interpreter) (.ofTokens tokens) exhaust).1,
      (grammar.run (some interpreter) (.ofTokens tokens) exhaust).2.seen) =
        tree.postOrder grammar interpreter [] ∧
      (grammar.run none (.ofTokens tokens) exhaust).1 = (tree.postOrder grammar .ok []).1 := by
  -- The notes of the walk are the nodes themselves, in the order of the visits.
  constructor
  · obtain ⟨outcome, notes⟩ := (operators.interprets interpreter).run read
    exact Prod.ext outcome notes
  · rw [operators.run_identity]
    exact ((operators.interprets .ok).run read).1

/-- Sums of ones and twos, with an operator before its operand and one that cannot be built. -/
def sumGrammar : Grammar Nat where
  heads := [(.kind .name, .leaf "one" fun _ => .ok 1), (.kind .number, .leaf "two" fun _ => .ok 2),
    (.kind .minus, .operator "less" (fun _ operand => .ok (operand - 1)) 3)]
  tails := [(.kind .bang,
      .operator "none" (fun token _ => .error (.parse (.noTailRule token))) 9, 9),
    (.kind .plus, .binary "sum" (fun _ left right => .ok (left + right)) 2 .left, 2)]

/-- The operator that cannot be built is met when the interpreter has been given five nodes. -/
theorem sumGrammar_breaks_off :
    let one := Token.ofKind .name "one"
    let two := Token.ofKind .number "2"
    let plus := Token.ofKind .plus "+"
    let minus := Token.ofKind .minus "-"
    let bang := Token.ofKind .bang "!"
    let tokens := [one, plus, minus, two, plus, one, bang]
    let tree := OperatorTree.between (.between (.leaf one) plus (.before minus (.leaf two))) plus
      (.after (.leaf one) bang)
    let double : Interpreter Nat := fun value => .ok (2 * value)
    sumGrammar.IsOperators ∧
      (sumGrammar.recording.run none (.ofTokens tokens) true).1 = .ok tree ∧
      ((sumGrammar.run (some double) (.ofTokens tokens) true).1,
        (sumGrammar.run (some double) (.ofTokens tokens) true).2.seen) =
          tree.postOrder sumGrammar double [] ∧
      tree.postOrder sumGrammar double [] =
        (.error (.parse (.noTailRule bang)), [1, 2, 3, 8, 1]) ∧
      (sumGrammar.run none (.ofTokens tokens) true).1 = (tree.postOrder sumGrammar .ok []).1 := by
  intro one two plus minus bang tokens tree double
  have operators : sumGrammar.IsOperators :=
    ⟨by simp [sumGrammar, HeadRule.IsOperator], by simp [sumGrammar, TailRule.IsOperator]⟩
  have read : (sumGrammar.recording.run none (.ofTokens tokens) true).1 = .ok tree := by cbv
  have walk : tree.postOrder sumGrammar double [] =
      (.error (.parse (.noTailRule bang)), [1, 2, 3, 8, 1]) := by rfl
  obtain ⟨fused, plain⟩ := interpreting_walks_in_post_order operators double tokens true read
  exact ⟨operators, read, fused, walk, plain⟩

end Grammar

end Climb
