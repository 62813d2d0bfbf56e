import Climb.Proofs.Expr.FusedFolding
import Climb.Proofs.Expr.Grouping

/-! What was folded on the way has nothing left in it to be folded. -/

namespace Climb.Expr

mutual

/-- An expression and all expressions in it, operators before their operands. -/
def subexpressions : Expr → List Expr
  | name label => [name label]
  | number value => [number value]
  | assign target value => assign target value :: value.subexpressions
  | pre op operand => pre op operand :: operand.subexpressions
  | post op operand => post op operand :: operand.subexpressions
  | bin left op right => bin left op right :: (left.subexpressions ++ right.subexpressions)
  | cond condition chosen other =>
    cond condition chosen other ::
      (condition.subexpressions ++ (chosen.subexpressions ++ other.subexpressions))
  | call callee args => call callee args :: (callee.subexpressions ++ subexpressionsOf args)
  | foreign value => [foreign value]

/-- All expressions in some expressions. -/
def subexpressionsOf : List Expr → List Expr
  | [] => []
  | first :: rest => first.subexpressions ++ subexpressionsOf rest

end

/-- What is in some expressions is in one of them. -/
theorem mem_subexpressionsOf {node : Expr} {args : List Expr} :
    node ∈ subexpressionsOf args ↔ ∃ arg ∈ args, node ∈ arg.subexpressions := by
  induction args with
  | nil => simp [subexpressionsOf]
  | cons first rest ih => simp [subexpressionsOf, ih]

/-- An operator on numbers that has a value, or a conditional on a number that chooses a number. -/
inductive Reducible : Expr → Prop
  | pre {op : Label} {value result : Number} (computed : value.applyBefore op = .ok result) :
    Reducible (.pre op (.number value))
  | post {op : Label} {value result : Number} (computed : value.applyAfter op = .ok result) :
    Reducible (.post op (.number value))
  | bin {op : Label} {left right result : Number}
    (computed : left.applyBetween op right = .ok result) :
    Reducible (.bin (.number left) op (.number right))
  | cond {condition value : Number} {chosen other : Expr}
    (picked : (if condition.isZero then other else chosen) = .number value) :
    Reducible (.cond (.number condition) chosen other)

/-- What can be folded to a number is not left as it is. -/
theorem Reducible.fold_ne {expr : Expr} (reducible : Reducible expr) : expr.fold ≠ .ok expr := by
  -- Each of the four is folded to a number, which it is not.
  cases reducible with
  | pre computed => simp [fold, foldOutcome, computed]
  | post computed => simp [fold, foldOutcome, computed]
  | bin computed => simp [fold, foldOutcome, computed]
  | cond picked => simp [fold, picked]

/-- Every expression in it is left alone by a fold. -/
def Settled (expr : Expr) : Prop :=
  ∀ node ∈ expr.subexpressions, node.fold = .ok node

/-- A number is settled. -/
theorem settled_number (value : Number) : Settled (.number value) := by
  intro node member
  obtain rfl : node = .number value := by simpa [subexpressions] using member
  rfl

/-- A node over settled parts is folded to something settled. -/
theorem settled_fold {expr folded : Expr} {parts : List Expr} (done : expr.fold = .ok folded)
    (shape : expr.subexpressions = expr :: parts) (settled : ∀ node ∈ parts, node.fold = .ok node) :
    Settled folded := by
  -- A fold leaves a node as it is or makes a number of it.
  rcases fold_cases done with rfl | ⟨value, rfl⟩
  · -- A node that was left alone is left alone again.
    intro node member
    rw [shape] at member
    rcases List.mem_cons.1 member with rfl | inner
    · exact done
    · exact settled node inner
  · exact settled_number value

mutual

/-- Folding every node leaves nothing to be folded. -/
theorem settled_foldAll : ∀ {expr folded : Expr}, expr.foldAll = .ok folded → Settled folded
  | .name label, folded, done => settled_fold done rfl (by simp)
  | .number value, folded, done => settled_fold done rfl (by simp)
  -- Every node folds its parts first, and each part is settled by the time the node itself is
  -- folded.
  | .assign target value, folded, done => by
    obtain ⟨newValue, inner, last⟩ := bind_ok done
    exact settled_fold last rfl (settled_foldAll inner)
  | .pre op operand, folded, done => by
    obtain ⟨newOperand, inner, last⟩ := bind_ok done
    exact settled_fold last rfl (settled_foldAll inner)
  | .post op operand, folded, done => by
    obtain ⟨newOperand, inner, last⟩ := bind_ok done
    exact settled_fold last rfl (settled_foldAll inner)
  | .bin left op right, folded, done => by
    obtain ⟨newLeft, one, rest⟩ := bind_ok done
    obtain ⟨newRight, two, last⟩ := bind_ok rest
    exact settled_fold last rfl
      (List.forall_mem_append.2 ⟨settled_foldAll one, settled_foldAll two⟩)
  | .cond condition chosen other, folded, done => by
    obtain ⟨newCondition, inner, rest⟩ := bind_ok done
    obtain ⟨newChosen, one, rest⟩ := bind_ok rest
    obtain ⟨newOther, two, last⟩ := bind_ok rest
    exact settled_fold last rfl (List.forall_mem_append.2 ⟨settled_foldAll inner,
      List.forall_mem_append.2 ⟨settled_foldAll one, settled_foldAll two⟩⟩)
  | .call callee args, folded, done => by
    obtain ⟨newCallee, inner, rest⟩ := bind_ok done
    obtain ⟨newArgs, all, last⟩ := bind_ok rest
    exact settled_fold last rfl
      (List.forall_mem_append.2 ⟨settled_foldAll inner, settled_foldEach all⟩)
  | .foreign value, folded, done => settled_fold done rfl (by simp)

/-- Folding every node of some expressions leaves nothing in them to be folded. -/
theorem settled_foldEach : ∀ {exprs folded : List Expr}, foldEach exprs = .ok folded →
    ∀ node ∈ subexpressionsOf folded, node.fold = .ok node
  | [], folded, done => by
    cases done
    simp [subexpressionsOf]
  -- The arguments are folded in order, and one that breaks off ends the whole fold.
  | first :: rest, folded, done => by
    obtain ⟨newFirst, one, others⟩ := bind_ok done
    obtain ⟨newRest, more, last⟩ := bind_ok others
    cases last
    exact List.forall_mem_append.2 ⟨settled_foldAll one, settled_foldEach more⟩

end

/-- What is folded on the way is read without a fold too, and folded throughout. -/
theorem read_of_folded {source : Source} {exhaust : Bool} {folded : Expr}
    (fused : foldedOfSource source exhaust = .ok folded) :
    ∃ expr, ofSource source exhaust = .ok expr ∧ expr.foldAll = .ok folded := by
  -- The two runs go hand in hand until one of them breaks off.
  rcases folding_simulates.run source exhaust with ⟨failure, failed, -⟩ | ⟨-, outcomes⟩
  · -- A fold that breaks off does so for the whole run.
    rw [show (grammar.run (some fold) source exhaust).1 = .ok folded from fused] at failed
    cases failed
  · cases read : ofSource source exhaust with
    | ok expr => exact ⟨expr, rfl, foldAll_of_parses read fused⟩
    | error failure =>
      rw [show (grammar.run none source exhaust).1 = .error failure from read,
        show (grammar.run (some fold) source exhaust).1 = .ok folded from fused] at outcomes
      cases outcomes

/--
In an expression that was folded on the way, a fold leaves every part as it is, and none is an
operator on numbers that has a value or a conditional that chooses a number. The same expression
comes of the same tokens in any number of pairs of parentheses.
-/
theorem folded_on_the_way_is_settled {tokens : List Token} {folded : Expr}
    (fused : foldedOfSource (.ofTokens tokens) true = .ok folded) :
    (∀ node ∈ folded.subexpressions, node.fold = .ok node ∧ ¬Reducible node) ∧
    ∀ list, Wrapped tokens list → foldedOfSource (.ofTokens list) true = .ok folded := by
  obtain ⟨expr, read, done⟩ := read_of_folded fused
  refine ⟨fun node member => ?_, fun list wrapped => ?_⟩
  · -- What a fold leaves alone is not reducible, as folding would change it.
    have alone := settled_foldAll done node member
    exact ⟨alone, fun reducible => reducible.fold_ne alone⟩
  · -- In parentheses the same expression is read, which is folded alike.
    have again : ofSource (.ofTokens list) true = .ok expr :=
      ofTokens_ok_iff.2 (wrapped.derives (ofTokens_ok_iff.1 read))
    rw [foldedOfSource_eq again, done]

/-- A quotient that has no value stays beside a product that has one, in parentheses or not. -/
theorem failing_quotient_is_settled :
    let number (text : String) : Token := .ofKind .number text
    let opening : Token := .ofKind .lparen "("
    let closing : Token := .ofKind .rparen ")"
    let tokens := [.ofKind .name "f", opening, number "1", .ofKind .slash "/", number "0",
      .ofKind .comma ",", number "2", .ofKind .star "*", number "3", closing]
    let quotient := Expr.bin (.number (.int 1)) (some "/") (.number (.int 0))
    let folded := Expr.call (.name (some "f")) [quotient, .number (.int 6)]
    foldedOfSource (.ofTokens tokens) true = .ok folded ∧
      quotient.fold = .ok quotient ∧
      foldedOfSource (.ofTokens (opening :: (tokens ++ [closing]))) true = .ok folded := by
  intro number opening closing tokens quotient folded
  have fused : foldedOfSource (.ofTokens tokens) true = .ok folded := by cbv
  have settled := folded_on_the_way_is_settled fused
  have inside : quotient ∈ folded.subexpressions := by
    simp [folded, quotient, subexpressions, subexpressionsOf]
  exact ⟨fused, (settled.1 quotient inside).1, settled.2 _ (.paired rfl .bare rfl)⟩

end Climb.Expr
