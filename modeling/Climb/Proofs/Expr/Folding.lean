import Climb.Expr.Eval
import Climb.Expr.Fold
import Climb.Proofs.Expr.Rounds
import Climb.Proofs.Expr.Rules

/-! Folding while an expression is read: what it builds, and that it means the same. -/

namespace Climb.Expr

variable {expr folded : Expr}

/-- Folding a node leaves it as it is or replaces it by a number. -/
theorem fold_cases (done : expr.fold = .ok folded) :
    folded = expr ∨ ∃ value, folded = .number value := by
  -- An operator has a value, or is left alone, or fails; nothing else comes of it.
  have outcome : ∀ result, foldOutcome expr result = .ok folded →
      folded = expr ∨ ∃ value, folded = .number value := by
    intro result kept
    unfold foldOutcome at kept
    split at kept
    · rename_i value
      cases kept
      exact .inr ⟨value, rfl⟩
    · cases kept
      exact .inl rfl
    · cases kept
  unfold fold at done
  split at done
  · exact outcome _ done
  · exact outcome _ done
  · exact outcome _ done
  · split at done
    · rename_i value chosen
      cases done
      exact .inr ⟨value, rfl⟩
    · cases done
      exact .inl rfl
  · cases done
    exact .inl rfl

/-- A number is folded already. -/
theorem fold_number (value : Number) : (Expr.number value).fold = .ok (.number value) := rfl

/-- Folding what has been folded changes nothing. -/
theorem fold_folded (done : expr.fold = .ok folded) : folded.fold = .ok folded := by
  rcases fold_cases done with rfl | ⟨value, rfl⟩
  · exact done
  · exact fold_number value

/-- An operator is evaluated to what it is folded to. -/
theorem evaluate_foldOutcome {result : Except Error Number}
    (means : expr.evaluate = Eval.outcome result) (done : foldOutcome expr result = .ok folded) :
    folded.evaluate = expr.evaluate := by
  -- A value is what the operator is evaluated to; a node left alone is the same node.
  unfold foldOutcome at done
  split at done
  · cases done
    rw [means]
    rfl
  · cases done
    rfl
  · cases done

/-- Folding a node does not change what it means. -/
theorem evaluate_fold (done : expr.fold = .ok folded) : folded.evaluate = expr.evaluate := by
  unfold fold at done
  split at done
  · exact evaluate_foldOutcome rfl done
  · exact evaluate_foldOutcome rfl done
  · exact evaluate_foldOutcome rfl done
  · rename_i condition chosen other
    -- A condition that is a number chooses its arm at once, without a change to the environment.
    have means : (Expr.cond (.number condition) chosen other).evaluate =
        (if condition.isZero then other else chosen).evaluate := by
      show (if condition.isZero then other.evaluate else chosen.evaluate) = _
      split <;> rfl
    split at done
    · -- The arm that replaces a conditional is the one that would have been evaluated.
      rename_i value arm
      cases done
      rw [means, arm]
    · cases done
      rfl
  · cases done
    rfl

mutual

/-- An expression with every node folded, operands before the operators on them. -/
def foldAll : Expr → Except Error Expr
  | name label => fold (name label)
  | number value => fold (number value)
  | assign target value => do fold (assign target (← value.foldAll))
  | pre op operand => do fold (pre op (← operand.foldAll))
  | post op operand => do fold (post op (← operand.foldAll))
  | bin left op right => do
    let left ← left.foldAll
    fold (bin left op (← right.foldAll))
  | cond condition chosen other => do
    let condition ← condition.foldAll
    let chosen ← chosen.foldAll
    fold (cond condition chosen (← other.foldAll))
  | call callee args => do
    let callee ← callee.foldAll
    fold (call callee (← foldEach args))
  | foreign value => fold (foreign value)

/-- Expressions with every node folded, in order. -/
def foldEach : List Expr → Except Error (List Expr)
  | [] => .ok []
  | first :: rest => do
    let first ← first.foldAll
    return first :: (← foldEach rest)

end

/-- Two computations in a row that succeed do so one by one. -/
theorem bind_ok {α β : Type} {first : Except Error α} {next : α → Except Error β} {result : β}
    (done : (first >>= next) = .ok result) :
    ∃ middle, first = .ok middle ∧ next middle = .ok result :=
  bind_ok_iff.1 done

/-- The last node to be folded is of the same form as the whole, with its parts folded before. -/
theorem foldAll_last (done : expr.foldAll = .ok folded) :
    ∃ last : Expr, last.fold = .ok folded ∧ ∀ label, last = .name label ↔ expr = .name label := by
  -- Peeling off the folds of the parts leaves the fold of the node itself.
  cases expr with
  | name label => exact ⟨_, done, by simp⟩
  | number value => exact ⟨_, done, by simp⟩
  | assign target value =>
    obtain ⟨_, -, last⟩ := bind_ok done
    exact ⟨_, last, by simp⟩
  | pre op operand =>
    obtain ⟨_, -, last⟩ := bind_ok done
    exact ⟨_, last, by simp⟩
  | post op operand =>
    obtain ⟨_, -, last⟩ := bind_ok done
    exact ⟨_, last, by simp⟩
  | bin left op right =>
    obtain ⟨_, -, rest⟩ := bind_ok done
    obtain ⟨_, -, last⟩ := bind_ok rest
    exact ⟨_, last, by simp⟩
  | cond condition chosen other =>
    obtain ⟨_, -, rest⟩ := bind_ok done
    obtain ⟨_, -, rest⟩ := bind_ok rest
    obtain ⟨_, -, last⟩ := bind_ok rest
    exact ⟨_, last, by simp⟩
  | call callee args =>
    obtain ⟨_, -, rest⟩ := bind_ok done
    obtain ⟨_, -, last⟩ := bind_ok rest
    exact ⟨_, last, by simp⟩
  | foreign value => exact ⟨_, done, by simp⟩

/-- What is folded throughout is left alone by another fold. -/
theorem foldAll_folded (done : expr.foldAll = .ok folded) : folded.fold = .ok folded := by
  obtain ⟨last, outcome, -⟩ := foldAll_last done
  exact fold_folded outcome

/-- Folding neither makes a name nor takes one away. -/
theorem foldAll_name (done : expr.foldAll = .ok folded) (label : Label) :
    folded = .name label ↔ expr = .name label := by
  obtain ⟨last, outcome, same⟩ := foldAll_last done
  rcases fold_cases outcome with rfl | ⟨value, rfl⟩
  · exact same label
  · -- A number is no name, and it was not made of one.
    rw [← same label]
    simp only [reduceCtorEq, false_iff]
    rintro rfl
    cases outcome

/-- What is no name is not folded to one. -/
theorem unnamed_foldAll (done : expr.foldAll = .ok folded) (unnamed : ∀ label, expr ≠ .name label) :
    ∀ label, folded ≠ .name label :=
  fun label same => unnamed label ((foldAll_name done label).1 same)

/-- What has no name cannot be called. -/
theorem calleeName_of_unnamed (unnamed : ∀ label, expr ≠ .name label) :
    expr.calleeName = throw (.ofEval .unnamedCallee) := by
  unfold calleeName
  split
  · rename_i label
    exact absurd rfl (unnamed label)
  · rfl

/-- Folding does not change the name by which a function is called. -/
theorem calleeName_foldAll (done : expr.foldAll = .ok folded) :
    folded.calleeName = expr.calleeName := by
  -- Either the callee is a name and stays it, or it fails to be one both ways.
  by_cases named : ∃ label, expr = .name label
  · obtain ⟨label, rfl⟩ := named
    rw [(foldAll_name done label).2 rfl]
  · have unnamed : ∀ label, expr ≠ .name label := fun label same => named ⟨label, same⟩
    rw [calleeName_of_unnamed unnamed, calleeName_of_unnamed (unnamed_foldAll done unnamed)]

mutual

/-- Folding every node does not change what an expression means. -/
theorem evaluate_foldAll : ∀ {expr folded : Expr}, expr.foldAll = .ok folded →
    folded.evaluate = expr.evaluate
  | .name label, folded, done => evaluate_fold done
  | .number value, folded, done => evaluate_fold done
  | .assign target value, folded, done => by
    obtain ⟨newValue, inner, last⟩ := bind_ok done
    rw [evaluate_fold last, evaluate, evaluate, evaluate_foldAll inner]
  | .pre op operand, folded, done => by
    obtain ⟨newOperand, inner, last⟩ := bind_ok done
    rw [evaluate_fold last, evaluate, evaluate, evaluate_foldAll inner]
  | .post op operand, folded, done => by
    obtain ⟨newOperand, inner, last⟩ := bind_ok done
    rw [evaluate_fold last, evaluate, evaluate, evaluate_foldAll inner]
  | .bin left op right, folded, done => by
    obtain ⟨newLeft, one, rest⟩ := bind_ok done
    obtain ⟨newRight, two, last⟩ := bind_ok rest
    rw [evaluate_fold last, evaluate, evaluate, evaluate_foldAll one, evaluate_foldAll two]
  | .cond condition chosen other, folded, done => by
    obtain ⟨newCondition, inner, rest⟩ := bind_ok done
    obtain ⟨newChosen, one, rest⟩ := bind_ok rest
    obtain ⟨newOther, two, last⟩ := bind_ok rest
    rw [evaluate_fold last, evaluate, evaluate, evaluate_foldAll inner, evaluate_foldAll one,
      evaluate_foldAll two]
  | .call callee args, folded, done => by
    obtain ⟨newCallee, inner, rest⟩ := bind_ok done
    obtain ⟨newArgs, all, last⟩ := bind_ok rest
    rw [evaluate_fold last, evaluate, evaluate, calleeName_foldAll inner, evaluateAll_foldEach all]
  | .foreign value, folded, done => evaluate_fold done

/-- Folding every node does not change what expressions mean, in order. -/
theorem evaluateAll_foldEach : ∀ {exprs folded : List Expr}, foldEach exprs = .ok folded →
    evaluateAll folded = evaluateAll exprs
  | [], folded, done => by
    cases done
    rfl
  | first :: rest, folded, done => by
    obtain ⟨newFirst, one, others⟩ := bind_ok done
    obtain ⟨newRest, more, last⟩ := bind_ok others
    cases last
    rw [evaluateAll, evaluateAll, evaluate_foldAll one, evaluateAll_foldEach more]

end

/-- A finished node and what it was folded to. -/
def FoldsTo (expr folded : Expr) : Prop :=
  expr.foldAll = .ok folded

/-- A node that was just built, and the one that was built of its folded parts. -/
def FoldsLike (expr folded : Expr) : Prop :=
  expr.foldAll = folded.fold

/-- Expressions that were folded one by one were folded in order. -/
theorem foldEach_of_foldsTo {args folded : List Expr} (same : List.Forall₂ FoldsTo args folded) :
    foldEach args = .ok folded := by
  -- The two lists are of one length, so the induction is on the pairs.
  induction same with
  | nil => rfl
  | cons first rest ih =>
    have one : _ = Except.ok _ := first
    simp only [foldEach, one, ih]
    rfl

/-- The operand of an operator is folded before it. -/
theorem foldsLike_pre {operand folded : Expr} (op : Label) (same : FoldsTo operand folded) :
    FoldsLike (.pre op operand) (.pre op folded) := by
  rw [FoldsLike, foldAll, same]
  rfl

/-- The operand of an operator is folded before it. -/
theorem foldsLike_post {operand folded : Expr} (op : Label) (same : FoldsTo operand folded) :
    FoldsLike (.post op operand) (.post op folded) := by
  rw [FoldsLike, foldAll, same]
  rfl

variable {left right newLeft newRight : Expr}

/-- The operands of an operator are folded before it. -/
theorem foldsLike_bin (op : Label) (one : FoldsTo left newLeft) (two : FoldsTo right newRight) :
    FoldsLike (.bin left op right) (.bin newLeft op newRight) := by
  rw [FoldsLike, foldAll, one, two]
  rfl

/-- An operator between operands is built of their folded forms. -/
theorem respects_bin (strength : Int) (associativity : Associativity) :
    (TailRule.binary "bin" buildBin strength associativity).Respects FoldsTo FoldsLike := by
  intro token left newLeft right newRight one two
  exact .ok (foldsLike_bin _ one two)

/-- Only a name is a target. -/
theorem buildAssign_of_unnamed (token : Token) (unnamed : ∀ label, left ≠ .name label) :
    buildAssign token left right = .error (.parse (.assignmentTarget token)) := by
  unfold buildAssign
  split
  · rename_i label
    exact absurd rfl (unnamed label)
  · rfl

/-- A target is accepted or refused in its folded form as it was. -/
theorem respects_assign :
    (TailRule.binary "bin" buildAssign 2 .right).Respects FoldsTo FoldsLike := by
  intro token left newLeft right newRight one two
  -- The target is checked after both sides have been folded, so folding must not touch names.
  by_cases named : ∃ label, left = .name label
  · obtain ⟨label, rfl⟩ := named
    obtain rfl := (foldAll_name one label).2 rfl
    refine .ok ?_
    rw [FoldsLike, foldAll, two]
    rfl
  · -- The target is refused, and what it was folded to is no name either.
    have unnamed : ∀ label, left ≠ .name label := fun label same => named ⟨label, same⟩
    rw [buildAssign_of_unnamed token unnamed,
      buildAssign_of_unnamed token (unnamed_foldAll one unnamed)]
    exact .error _

/-- A finished node folds like a new one, since another fold leaves it alone. -/
theorem FoldsTo.foldsLike {expr folded : Expr} (same : FoldsTo expr folded) :
    FoldsLike expr folded := by
  rw [FoldsLike, foldAll_folded same]
  exact same

/-- A call folds by folding its callee and its arguments. -/
theorem foldsLike_call {callee newCallee : Expr} {args newArgs : List Expr}
    (same : FoldsTo callee newCallee) (all : List.Forall₂ FoldsTo args newArgs) :
    FoldsLike (.call callee args) (.call newCallee newArgs) := by
  rw [FoldsLike, foldAll, same, foldEach_of_foldsTo all]
  rfl

/-- A conditional folds by folding its condition and its arms. -/
theorem foldsLike_cond {condition newCondition chosen newChosen other newOther : Expr}
    (same : FoldsTo condition newCondition) (one : FoldsTo chosen newChosen)
    (two : FoldsTo other newOther) :
    FoldsLike (.cond condition chosen other) (.cond newCondition newChosen newOther) := by
  rw [FoldsLike, foldAll, same, one, two]
  rfl

/-- Reading with a fold at every node builds the folded form of what is read without. -/
theorem folding_simulates :
    Grammar.Simulation grammar none (some fold)
      (fun failure seen => ∃ node ∈ seen, fold node = .error failure) FoldsTo FoldsLike where
  heads := by
    intro token rule found
    -- One case for each row of the table of rules that start an expression.
    rcases head?_cases found with ⟨-, rfl⟩ | ⟨-, rfl⟩ | ⟨-, rfl⟩ | ⟨-, rfl⟩
    · exact fun token => .ok rfl
    · intro token
      cases read : readNumber token.text with
      | error failure => simpa [buildNumber, read, bind, Except.bind] using .error failure
      | ok value =>
        simpa [buildNumber, read, bind, Except.bind, pure, Except.pure] using .ok rfl
    · exact fun token _ _ same => .ok (foldsLike_pre _ same)
    · exact respects_group FoldsTo.foldsLike
  tails := by
    intro token rule found
    -- The same for the rules that continue one; four of them share a builder.
    rcases tail?_cases found with ⟨-, rfl⟩ | ⟨-, rfl⟩ | ⟨-, rfl⟩ | ⟨-, rfl⟩ | ⟨-, rfl⟩ | ⟨-, rfl⟩ |
      ⟨-, rfl⟩ | ⟨-, rfl⟩
    · exact respects_bin 1 .right
    · exact respects_assign
    · exact respects_cond 3 foldsLike_cond
    · exact respects_bin 4 .left
    · exact respects_bin 5 .left
    · exact respects_bin 6 .right
    · exact fun token _ _ same => .ok (foldsLike_post _ same)
    · exact respects_call 9 foldsLike_call
  interprets := by
    intro node newNode same
    -- A fold that fails breaks off the fused run, and there only.
    cases done : fold newNode with
    | error failure => exact .inl ⟨failure, done, fun seen => ⟨newNode, by simp, done⟩⟩
    | ok folded =>
      refine .inr ?_
      rw [Parser.interpreted, Parser.interpreted, done]
      exact .ok (same.trans done)

/-- Where reading succeeds both ways, the one expression is the other with every node folded. -/
theorem foldAll_of_parses {source : Source} {exhaust : Bool} {expr folded : Expr}
    (plain : ofSource source exhaust = .ok expr)
    (fused : foldedOfSource source exhaust = .ok folded) : expr.foldAll = .ok folded := by
  have runs := folding_simulates.run source exhaust
  rw [show (grammar.run none source exhaust).1 = .ok expr from plain,
    show (grammar.run (some fold) source exhaust).1 = .ok folded from fused] at runs
  -- Both runs succeeded, so neither the break-off nor a common failure can be what happened.
  rcases runs with ⟨failure, failed, -⟩ | ⟨-, outcomes⟩
  · cases failed
  · cases outcomes with
    | ok same => exact same

/--
An expression that was folded while it was read means what it means as it was written: the same
number or failure and the same assignments, in every environment.
-/
theorem folding_preserves_meaning (tokens : List Token) (exhaust : Bool) {expr folded : Expr}
    (plain : ofSource (.ofTokens tokens) exhaust = .ok expr)
    (fused : foldedOfSource (.ofTokens tokens) exhaust = .ok folded) (env : Env) :
    folded.evaluate env = expr.evaluate env := by
  have done := foldAll_of_parses plain fused
  rw [evaluate_foldAll done]

/-- The negation after a name is folded, which changes no value and no failure. -/
theorem folded_negation_keeps_meaning :
    let tokens : List Token := [.ofKind .name "a", .ofKind .minus "-", .ofKind .minus "-",
      .ofKind .number "1"]
    let expr := Expr.bin (.name (some "a")) (some "-") (.pre (some "-") (.number (.int 1)))
    let folded := Expr.bin (.name (some "a")) (some "-") (.number (.int (-1)))
    ofSource (.ofTokens tokens) true = .ok expr ∧
      foldedOfSource (.ofTokens tokens) true = .ok folded ∧
      ∀ env, folded.evaluate env = expr.evaluate env := by
  intro tokens expr folded
  have plain : ofSource (.ofTokens tokens) true = .ok expr := by rfl
  have fused : foldedOfSource (.ofTokens tokens) true = .ok folded := by rfl
  exact ⟨plain, fused, folding_preserves_meaning tokens true plain fused⟩

end Climb.Expr
