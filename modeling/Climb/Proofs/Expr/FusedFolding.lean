import Mathlib
import Climb.Proofs.Expr.Folding
import Climb.Proofs.Expr.Rules
import Climb.Proofs.Grammar.Interpretation
import Climb.Proofs.Number.Failures

/-! Folding an expression while it is read is folding it afterwards. -/

namespace Climb

/-- A notebook in which nothing is written down. -/
def Notebook.blank {N : Type} : Notebook N Unit where
  of _ := ()
  add notes _ := notes
  of_snoc _ _ := rfl

namespace Expr

open Climb.Parser

/-- A fault of evaluation leaves the node as it is, so a fold fails only for the numbers. -/
theorem fold_fails {expr : Expr} {failure : Error} (failed : expr.fold = .error failure) :
    failure.IsNumeric := by
  have outcome : ∀ {result}, ComputedOnly result → foldOutcome expr result = .error failure →
      failure.IsNumeric := by
    intro result computed failed
    cases computed with
    | ok value => cases failed
    | error computed =>
      -- A fault of evaluation is caught, and all else is passed on.
      rcases computed with ⟨fault, rfl⟩ | numeric
      · cases failed
      · unfold foldOutcome at failed
        split at failed
        · cases failed
        · cases failed
        · rename_i same
          cases same
          cases failed
          exact numeric
  unfold fold at failed
  split at failed
  · exact outcome (Number.applyBefore_fails _ _) failed
  · exact outcome (Number.applyAfter_fails _ _) failed
  · exact outcome (Number.applyBetween_fails _ _ _) failed
  · split at failed <;> cases failed
  · cases failed

/-- What an expression is folded to, as a walk that takes no notes. -/
def folding (expr : Expr) : Walk Unit Expr :=
  Walk.outcome expr.foldAll

/-- Building a node and folding it is what folds the node that is built. -/
theorem performs_fold (outcome : Except Error Expr) (state : ParseState Expr) :
    Performs .blank (built outcome >>= interpret (some fold)) (Walk.outcome (outcome >>= fold))
      state state.buffer := by
  rw [Walk.outcome_bind]
  exact (performs_built outcome).finish fun node _ => performs_interpret fold node

/-- A token that is an expression by itself is folded as it is built. -/
theorem follows_leaf {outcome : Except Error Expr}
    (alone : ∀ expr, outcome = .ok expr → expr.foldAll = expr.fold) :
    Follows .blank folding (built outcome : Parser Expr Expr)
      (built outcome >>= interpret (some fold)) := by
  intro first second expr after same done
  cases done
  rw [folding, alone expr rfl, ← same]
  exact performs_fold (.ok expr) second

/-- An operator after its operand is folded after it. -/
theorem extends_post (token : Token) (left : Expr) :
    Extends .blank folding left (built (buildPost token left))
      fun newLeft => built (buildPost token newLeft) >>= interpret (some fold) := by
  intro first expr after done
  cases done
  refine ⟨fun newLeft => Walk.outcome (buildPost token newLeft >>= fold), Walk.outcome_bind _ _,
    fun newLeft second same => ?_⟩
  rw [← same]
  exact performs_fold _ second

/-- Expressions are folded in order as each of them is. -/
theorem foldEach_walk (exprs : List Expr) :
    (Walk.outcome (foldEach exprs) : Walk Unit (List Expr)) = exprs.mapM folding := by
  -- The induction follows the list, one fold at a time.
  induction exprs with
  | nil => rfl
  | cons first rest ih =>
    rw [foldEach, Walk.outcome_bind, List.mapM_cons, ← ih]
    simp only [Walk.outcome_bind (foldEach rest)]
    rfl

section

variable {operand otherOperand : Int → Parser Expr Expr}
  (operands : ∀ strength, Follows .blank folding (operand strength) (otherOperand strength))

include operands

/-- An operator before its operand is folded after it. -/
theorem follows_pre (token : Token) (strength : Int) :
    Follows .blank folding (operand strength >>= fun right => built (buildPre token right))
      ((otherOperand strength >>= fun right => built (buildPre token right)) >>=
        interpret (some fold)) := by
  -- The operand comes first, and the fold of the node itself is what is left to do.
  rw [bind_assoc]
  refine (operands strength).bind fun right first expr after done => ?_
  cases done
  refine ⟨fun folded => Walk.outcome (buildPre token folded >>= fold), Walk.outcome_bind _ _,
    fun folded second same => ?_⟩
  rw [← same]
  exact performs_fold _ second

/-- A group is folded once more than what is in it, which changes nothing. -/
theorem follows_group (token : Token) (bound : Nat) :
    Follows .blank folding
      (runHead operand bound token (.form "group" groupSteps buildGroup))
      (runHead otherOperand bound token (.form "group" groupSteps buildGroup) >>=
        interpret (some fold)) := by
  rw [runHead_group, runHead_group]
  simp only [bind_assoc, pure_bind]
  refine (operands 0).bind fun inner first expr after done => ?_
  obtain ⟨_, closed, consumed, done⟩ := bind_eq_ok done
  cases done
  refine ⟨fun folded => Walk.outcome folded.fold, ?_, fun folded second same => ?_⟩
  · -- What has been folded is left alone by another fold.
    have again : (inner.foldAll >>= fold) = inner.foldAll := by
      cases done : inner.foldAll with
      | error failure => rfl
      | ok folded => exact foldAll_folded done
    calc
      folding inner = Walk.outcome (inner.foldAll >>= fold) := by rw [again]; rfl
      _ = folding inner >>= fun folded => Walk.outcome folded.fold := Walk.outcome_bind _ _
  · exact performs_onBuffer consumed same fun ended agrees =>
      agrees ▸ performs_interpret fold folded

/-- An operator between its operands is folded after both, if its builder takes folded operands. -/
theorem extends_binary {build : Token → Expr → Expr → Except Error Expr} {token : Token}
    {left : Expr} (strength : Int)
    (builds : ∀ right expr, build token left right = .ok expr →
      expr.foldAll = left.foldAll >>= fun newLeft => right.foldAll >>= fun newRight =>
        build token newLeft newRight >>= fold) :
    Extends .blank folding left (operand strength >>= fun right => built (build token left right))
      fun newLeft => (otherOperand strength >>= fun right => built (build token newLeft right)) >>=
        interpret (some fold) := by
  intro first expr after done
  obtain ⟨right, between, read, done⟩ := bind_eq_ok done
  have outcome : build token left right = .ok expr := congrArg Prod.fst done
  have stays : between = after := congrArg Prod.snd done
  subst stays
  -- The left operand was folded before. What is left is the right one, and then the node.
  refine ⟨fun newLeft => folding right >>= fun newRight =>
    Walk.outcome (build token newLeft newRight >>= fold), ?_, fun newLeft second same => ?_⟩
  · rw [folding, builds right expr outcome, Walk.outcome_bind]
    simp only [Walk.outcome_bind right.foldAll]
    rfl
  · simp only [bind_assoc]
    refine (operands strength first second right between same read).bind
      fun newRight next agrees => ?_
    rw [← agrees]
    exact performs_fold _ next

/-- A conditional is folded after its condition and both of its arms. -/
theorem extends_cond (token : Token) (left : Expr) (bound : Nat) (strength : Int) :
    Extends .blank folding left
      (runTail operand bound token left (.form "cond" condSteps buildCond strength))
      fun newLeft =>
        runTail otherOperand bound token newLeft (.form "cond" condSteps buildCond strength) >>=
          interpret (some fold) := by
  intro first expr after done
  rw [runTail_cond] at done
  obtain ⟨chosen, between, one, done⟩ := bind_eq_ok done
  obtain ⟨colon, parted, consumed, done⟩ := bind_eq_ok done
  obtain ⟨other, ended, two, done⟩ := bind_eq_ok done
  cases done
  refine ⟨fun newLeft => folding chosen >>= fun newChosen => folding other >>= fun newOther =>
    Walk.outcome (fold (.cond newLeft newChosen newOther)), ?_, fun newLeft second same => ?_⟩
  · rw [folding, foldAll, Walk.outcome_bind]
    simp only [Walk.outcome_bind chosen.foldAll, Walk.outcome_bind other.foldAll]
    rfl
  · simp only [runTail_cond, bind_assoc, pure_bind]
    refine (operands 0 first second chosen between same one).bind fun newChosen next agrees => ?_
    -- The colon between the arms is the same token for both.
    refine performs_onBuffer consumed agrees fun next agrees => ?_
    refine (operands 2 parted next other after agrees two).bind fun newOther last agrees => ?_
    exact agrees ▸ performs_interpret fold _

/-- A call is folded after its callee and all of its arguments. -/
theorem extends_call (token : Token) (left : Expr) (bound : Nat) (strength : Int) :
    Extends .blank folding left
      (runTail operand bound token left (.form "call" callSteps buildCall strength))
      fun newLeft =>
        runTail otherOperand bound token newLeft (.form "call" callSteps buildCall strength) >>=
          interpret (some fold) := by
  intro first expr after done
  rw [runTail_call] at done
  obtain ⟨args, between, read, done⟩ := bind_eq_ok done
  cases done
  -- The arguments are folded one by one as they are read, and the call at its end.
  refine ⟨fun newLeft => args.mapM folding >>= fun newArgs =>
    Walk.outcome (fold (.call newLeft newArgs)), ?_, fun newLeft second same => ?_⟩
  · rw [folding, foldAll, Walk.outcome_bind, ← foldEach_walk]
    simp only [Walk.outcome_bind (foldEach args)]
    rfl
  · simp only [runTail_call, bind_assoc, pure_bind]
    refine (follows_items operands bound _ _ first second args after same read).bind
      fun newArgs next agrees => ?_
    exact agrees ▸ performs_interpret fold _

end

/-- Reading with a fold at every node does what folding afterwards does, node by node. -/
theorem folding_interprets : Grammar.Interprets .blank grammar grammar fold folding where
  strengths _ := rfl
  heads := by
    intro token rule found
    refine ⟨rule, found, fun {operand otherOperand} bound operands => ?_⟩
    rcases head?_cases found with ⟨-, rfl⟩ | ⟨-, rfl⟩ | ⟨-, rfl⟩ | ⟨-, rfl⟩
    · refine follows_leaf fun expr done => ?_
      cases done
      rfl
    · refine follows_leaf fun expr done => ?_
      obtain ⟨value, -, last⟩ := bind_ok done
      cases last
      rfl
    · exact follows_pre operands token 7
    · exact follows_group operands token bound
  tails := by
    intro token rule found
    refine ⟨rule, found, fun {operand otherOperand} bound left operands => ?_⟩
    -- Operators between operands share a builder, but for the assignment.
    have bin : ∀ strength associativity, Extends .blank folding left
        (runTail operand bound token left (.binary "bin" buildBin strength associativity))
        fun newLeft => runTail otherOperand bound token newLeft
          (.binary "bin" buildBin strength associativity) >>= interpret (some fold) := by
      intro strength associativity
      refine extends_binary operands _ fun right expr done => ?_
      cases done
      rfl
    rcases tail?_cases found with ⟨-, rfl⟩ | ⟨-, rfl⟩ | ⟨-, rfl⟩ | ⟨-, rfl⟩ | ⟨-, rfl⟩ | ⟨-, rfl⟩ |
      ⟨-, rfl⟩ | ⟨-, rfl⟩
    · exact bin 1 .right
    · refine extends_binary operands _ fun right expr done => ?_
      -- The target was a name, which is folded to itself.
      cases left <;> cases done
      rfl
    · exact extends_cond operands token left bound 3
    · exact bin 4 .left
    · exact bin 5 .left
    · exact bin 6 .right
    · exact extends_post token left
    · exact extends_call operands token left bound 9

/-- Where an expression is read, folding it on the way has the outcome of folding it afterwards. -/
theorem foldedOfSource_eq {source : Source} {exhaust : Bool} {expr : Expr}
    (read : ofSource source exhaust = .ok expr) : foldedOfSource source exhaust = expr.foldAll :=
  (folding_interprets.run read).1

/--
Unless a fold fails for the numbers, folding on the way fails exactly as reading does, and else it
builds what folding afterwards builds. Both take the same number of tokens from the source.
-/
theorem folding_on_the_way_is_folding_afterwards (tokens : List Token) (exhaust : Bool)
    (calm : ∀ node ∈ (grammar.run (some fold) (.ofTokens tokens) exhaust).2.seen,
      ∀ failure, node.fold = .error failure → ¬failure.IsNumeric) :
    (∀ failure, foldedOfSource (.ofTokens tokens) exhaust = .error failure ↔
      ofSource (.ofTokens tokens) exhaust = .error failure) ∧
    (∀ expr, ofSource (.ofTokens tokens) exhaust = .ok expr →
      ∃ folded, expr.foldAll = .ok folded ∧
        foldedOfSource (.ofTokens tokens) exhaust = .ok folded) ∧
    (grammar.run (some fold) (.ofTokens tokens) exhaust).2.buffer.source.pulled =
      (grammar.run none (.ofTokens tokens) exhaust).2.buffer.source.pulled := by
  -- A fold that breaks off fails for the numbers, which is what does not happen here.
  rcases folding_simulates.run (.ofTokens tokens) exhaust with
    ⟨failure, -, node, member, failed⟩ | ⟨buffers, outcomes⟩
  · exact absurd (fold_fails failed) (calm node member failure failed)
  · refine ⟨?_, ?_, by rw [buffers]⟩
    · intro failure
      unfold foldedOfSource ofSource
      generalize (grammar.run none (.ofTokens tokens) exhaust).1 = plain,
        (grammar.run (some fold) (.ofTokens tokens) exhaust).1 = fused at outcomes ⊢
      cases outcomes with
      | ok same => simp
      | error failure => simp
    · intro expr read
      rw [foldedOfSource_eq read]
      unfold ofSource at read
      rw [read] at outcomes
      generalize (grammar.run (some fold) (.ofTokens tokens) exhaust).1 = fused at outcomes
      cases outcomes with
      | ok same => exact ⟨_, same, same⟩

/-- A target that is no name is refused on the way as it is without a fold. -/
theorem folded_target_is_refused :
    let tokens : List Token := [.ofKind .number "1", .ofKind .plus "+", .ofKind .number "2",
      .ofKind .assign "=", .ofKind .number "3"]
    let refusal : Error := .parse (.assignmentTarget (.ofKind .assign "="))
    (∀ node ∈ (grammar.run (some fold) (.ofTokens tokens) true).2.seen,
      ∀ failure, node.fold = .error failure → ¬failure.IsNumeric) ∧
    ofSource (.ofTokens tokens) true = .error refusal ∧
    foldedOfSource (.ofTokens tokens) true = .error refusal := by
  intro tokens refusal
  have seen : (grammar.run (some fold) (.ofTokens tokens) true).2.seen =
      [.number (.int 1), .number (.int 2),
        .bin (.number (.int 1)) (some "+") (.number (.int 2)), .number (.int 3)] := by
    cbv
  have calm : ∀ node ∈ (grammar.run (some fold) (.ofTokens tokens) true).2.seen,
      ∀ failure, node.fold = .error failure → ¬failure.IsNumeric := by
    rw [seen]
    intro node member failure failed
    simp only [List.mem_cons, List.not_mem_nil, or_false] at member
    -- Every one of the four folds has a value.
    rcases member with rfl | rfl | rfl | rfl <;> cases failed
  have plain : ofSource (.ofTokens tokens) true = .error refusal := by cbv
  exact ⟨calm, plain,
    ((folding_on_the_way_is_folding_afterwards tokens true calm).1 refusal).2 plain⟩

end Expr

end Climb
