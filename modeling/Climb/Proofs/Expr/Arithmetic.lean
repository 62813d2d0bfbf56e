import Climb.Proofs.Expr.FusedFolding

/-! Arithmetic is folded to its value while it is read, if both arms of conditionals can be. -/

namespace Climb

namespace Expr

/-- An expression of numbers, operators and conditionals alone. -/
def IsArithmetic : Expr → Prop
  | number _ => True
  | pre _ operand => operand.IsArithmetic
  | post _ operand => operand.IsArithmetic
  | bin left _ right => left.IsArithmetic ∧ right.IsArithmetic
  | cond condition chosen other =>
    condition.IsArithmetic ∧ chosen.IsArithmetic ∧ other.IsArithmetic
  | _ => False

/-- The value of an expression where no name has one. -/
def closedValue (expr : Expr) : Except Error Number :=
  (expr.evaluate []).1

/-- The arms of conditionals that are left out when an expression is evaluated. -/
def skippedArms : Expr → List Expr
  | pre _ operand => operand.skippedArms
  | post _ operand => operand.skippedArms
  | bin left _ right => left.skippedArms ++ right.skippedArms
  | cond condition chosen other =>
    condition.skippedArms ++
      match condition.closedValue with
      | .ok value =>
        if value.isZero then chosen :: other.skippedArms else other :: chosen.skippedArms
      | .error _ => []
  | _ => []

/-- Outcomes that leave the environment alone follow each other as plain outcomes do. -/
theorem outcome_bind {α β : Type} (first : Except Error α) (next : α → Except Error β) :
    (Eval.outcome first >>= fun value => Eval.outcome (next value)) =
      Eval.outcome (first >>= next) := by
  cases first with
  | error failure => rfl
  | ok value => rfl

/-- Arithmetic neither reads the environment nor changes it. -/
theorem IsArithmetic.evaluate_constant : ∀ {expr : Expr}, expr.IsArithmetic →
    ∃ result, expr.evaluate = Eval.outcome result
  | .number value, _ => ⟨.ok value, rfl⟩
  | .pre op operand, arithmetic => by
    obtain ⟨result, means⟩ := evaluate_constant (show operand.IsArithmetic from arithmetic)
    exact ⟨_, by rw [Expr.evaluate, means, outcome_bind]⟩
  | .post op operand, arithmetic => by
    obtain ⟨result, means⟩ := evaluate_constant (show operand.IsArithmetic from arithmetic)
    exact ⟨_, by rw [Expr.evaluate, means, outcome_bind]⟩
  | .bin left op right, ⟨one, two⟩ => by
    obtain ⟨leftResult, leftMeans⟩ := evaluate_constant one
    obtain ⟨rightResult, rightMeans⟩ := evaluate_constant two
    simp only [Expr.evaluate, leftMeans, rightMeans, outcome_bind]
    exact ⟨_, rfl⟩
  | .cond condition chosen other, ⟨inner, one, two⟩ => by
    obtain ⟨result, means⟩ := evaluate_constant inner
    obtain ⟨chosenResult, chosenMeans⟩ := evaluate_constant one
    obtain ⟨otherResult, otherMeans⟩ := evaluate_constant two
    -- Whichever arm is chosen, it is an outcome that leaves the environment alone.
    simp only [Expr.evaluate, means, chosenMeans, otherMeans, ← apply_ite Eval.outcome,
      outcome_bind]
    exact ⟨_, rfl⟩

/-- The outcome of arithmetic is the same in every environment. -/
theorem IsArithmetic.evaluate {expr : Expr} (arithmetic : expr.IsArithmetic) :
    expr.evaluate = Eval.outcome expr.closedValue := by
  -- It is constant, so the empty environment shows its outcome as well as any other.
  obtain ⟨result, means⟩ := arithmetic.evaluate_constant
  rw [closedValue, means]
  rfl

section

variable {op : Label} {value : Number}

/-- An operator before its operand has a value if the operand has one to which it applies. -/
theorem closedValue_pre {operand : Expr} (arithmetic : operand.IsArithmetic)
    (valued : (pre op operand).closedValue = .ok value) :
    ∃ inner, operand.closedValue = .ok inner ∧ inner.applyBefore op = .ok value := by
  rw [closedValue, Expr.evaluate, arithmetic.evaluate, outcome_bind] at valued
  exact bind_ok valued

/-- An operator after its operand has a value if the operand has one to which it applies. -/
theorem closedValue_post {operand : Expr} (arithmetic : operand.IsArithmetic)
    (valued : (post op operand).closedValue = .ok value) :
    ∃ inner, operand.closedValue = .ok inner ∧ inner.applyAfter op = .ok value := by
  rw [closedValue, Expr.evaluate, arithmetic.evaluate, outcome_bind] at valued
  exact bind_ok valued

/-- An operator between its operands has a value if both have values to which it applies. -/
theorem closedValue_bin {left right : Expr} (one : left.IsArithmetic) (two : right.IsArithmetic)
    (valued : (bin left op right).closedValue = .ok value) :
    ∃ leftValue rightValue, left.closedValue = .ok leftValue ∧
      right.closedValue = .ok rightValue ∧ leftValue.applyBetween op rightValue = .ok value := by
  -- Neither operand looks at the environment, so their values are taken one after the other.
  rw [closedValue, Expr.evaluate, one.evaluate, two.evaluate] at valued
  simp only [outcome_bind] at valued
  obtain ⟨leftValue, leftValued, rest⟩ := bind_ok valued
  obtain ⟨rightValue, rightValued, applied⟩ := bind_ok rest
  exact ⟨leftValue, rightValue, leftValued, rightValued, applied⟩

/-- A conditional has the value of the arm that its condition chooses. -/
theorem closedValue_cond {condition chosen other : Expr} (inner : condition.IsArithmetic)
    (one : chosen.IsArithmetic) (two : other.IsArithmetic)
    (valued : (cond condition chosen other).closedValue = .ok value) :
    ∃ decides, condition.closedValue = .ok decides ∧
      (if decides.isZero then other.closedValue else chosen.closedValue) = .ok value := by
  -- The condition and both arms are plain outcomes, of which only one arm is taken.
  rw [closedValue, Expr.evaluate, inner.evaluate, one.evaluate, two.evaluate] at valued
  simp only [← apply_ite Eval.outcome, outcome_bind] at valued
  exact bind_ok valued

end

/-- Where everything could be folded, so could what is left out by evaluation. -/
theorem foldAll_skipped : ∀ {expr folded : Expr}, expr.foldAll = .ok folded →
    ∀ arm ∈ expr.skippedArms, ∃ newArm, arm.foldAll = .ok newArm
  | .pre op operand, folded, done => by
    obtain ⟨_, inner, -⟩ := bind_ok done
    intro arm member
    exact foldAll_skipped inner arm member
  | .post op operand, folded, done => by
    obtain ⟨_, inner, -⟩ := bind_ok done
    intro arm member
    exact foldAll_skipped inner arm member
  | .bin left op right, folded, done => by
    obtain ⟨_, one, rest⟩ := bind_ok done
    obtain ⟨_, two, -⟩ := bind_ok rest
    intro arm member
    rcases List.mem_append.1 member with member | member
    · exact foldAll_skipped one arm member
    · exact foldAll_skipped two arm member
  | .cond condition chosen other, folded, done => by
    obtain ⟨_, inner, rest⟩ := bind_ok done
    obtain ⟨newChosen, one, rest⟩ := bind_ok rest
    obtain ⟨newOther, two, -⟩ := bind_ok rest
    intro arm member
    rcases List.mem_append.1 member with member | member
    · exact foldAll_skipped inner arm member
    · -- Both arms were folded, so it does not matter which of them is left out.
      split at member
      · split at member
        · rcases List.mem_cons.1 member with rfl | member
          · exact ⟨newChosen, one⟩
          · exact foldAll_skipped two arm member
        · rcases List.mem_cons.1 member with rfl | member
          · exact ⟨newOther, two⟩
          · exact foldAll_skipped one arm member
      · cases member
  | .name _, _, _ | .number _, _, _ | .assign _ _, _, _ | .call _ _, _, _ | .foreign _, _, _ => by
    intro arm member
    cases member

/-- Arithmetic with a value is folded to it, if what is left out by evaluation can be folded. -/
theorem IsArithmetic.foldAll_value : ∀ {expr : Expr} {value : Number}, expr.IsArithmetic →
    expr.closedValue = .ok value →
      (∀ arm ∈ expr.skippedArms, ∃ newArm, arm.foldAll = .ok newArm) →
        expr.foldAll = .ok (.number value)
  | .number inner, value, _, valued, _ => by
    cases valued
    rfl
  | .pre op operand, value, arithmetic, valued, skipped => by
    have inside : operand.IsArithmetic := arithmetic
    obtain ⟨inner, innerValued, applied⟩ := closedValue_pre inside valued
    have folded := foldAll_value inside innerValued skipped
    simp only [foldAll, folded, bind, Except.bind, fold, applied, foldOutcome]
  | .post op operand, value, arithmetic, valued, skipped => by
    have inside : operand.IsArithmetic := arithmetic
    obtain ⟨inner, innerValued, applied⟩ := closedValue_post inside valued
    have folded := foldAll_value inside innerValued skipped
    simp only [foldAll, folded, bind, Except.bind, fold, applied, foldOutcome]
  | .bin left op right, value, ⟨one, two⟩, valued, skipped => by
    obtain ⟨leftValue, rightValue, leftValued, rightValued, applied⟩ :=
      closedValue_bin one two valued
    have leftFolded := foldAll_value one leftValued
      fun arm member => skipped arm (List.mem_append_left _ member)
    have rightFolded := foldAll_value two rightValued
      fun arm member => skipped arm (List.mem_append_right _ member)
    simp only [foldAll, leftFolded, rightFolded, bind, Except.bind, fold, applied, foldOutcome]
  | .cond condition chosen other, value, ⟨inner, one, two⟩, valued, skipped => by
    obtain ⟨decides, decided, armValued⟩ := closedValue_cond inner one two valued
    have folded := foldAll_value inner decided
      fun arm member => skipped arm (List.mem_append_left _ member)
    simp only [skippedArms, decided] at skipped
    -- The arm that is chosen is folded to the value; the other only has to be folded at all.
    by_cases zero : decides.isZero = true
    · rw [if_pos zero] at armValued skipped
      obtain ⟨newChosen, chosenFolded⟩ := skipped chosen (by simp)
      have otherFolded := foldAll_value two armValued
        fun arm member => skipped arm (by simp [member])
      simp only [foldAll, folded, chosenFolded, otherFolded, bind, Except.bind, fold, if_pos zero]
    · rw [if_neg zero] at armValued skipped
      obtain ⟨newOther, otherFolded⟩ := skipped other (by simp)
      have chosenFolded := foldAll_value one armValued
        fun arm member => skipped arm (by simp [member])
      simp only [foldAll, folded, chosenFolded, otherFolded, bind, Except.bind, fold, if_neg zero]

/--
Arithmetic that has a value is folded to it on the way exactly if every arm that evaluation leaves
out can be folded. If one cannot, the numbers in it are the failure.
-/
theorem arithmetic_is_folded_to_its_value (tokens : List Token) {expr : Expr} {value : Number}
    (read : ofSource (.ofTokens tokens) true = .ok expr) (arithmetic : expr.IsArithmetic)
    (evaluated : (expr.evaluate []).1 = .ok value) :
    (foldedOfSource (.ofTokens tokens) true = .ok (.number value) ↔
      ∀ arm ∈ expr.skippedArms, ∃ newArm, arm.foldAll = .ok newArm) ∧
    (foldedOfSource (.ofTokens tokens) true = .ok (.number value) ∨
      ∃ failure, failure.IsNumeric ∧ foldedOfSource (.ofTokens tokens) true = .error failure) := by
  have fused := foldedOfSource_eq read
  have exactly : foldedOfSource (.ofTokens tokens) true = .ok (.number value) ↔
      ∀ arm ∈ expr.skippedArms, ∃ newArm, arm.foldAll = .ok newArm := by
    rw [fused]
    exact ⟨foldAll_skipped, arithmetic.foldAll_value evaluated⟩
  refine ⟨exactly, ?_⟩
  -- The reading breaks off at a fold, or everything in the expression can be folded.
  rcases folding_simulates.run (.ofTokens tokens) true with
    ⟨failure, broken, node, -, failed⟩ | ⟨-, outcomes⟩
  · exact .inr ⟨failure, fold_fails failed, broken⟩
  · left
    rw [show (grammar.run none (.ofTokens tokens) true).1 = .ok expr from read] at outcomes
    generalize (grammar.run (some fold) (.ofTokens tokens) true).1 = outcome at outcomes
    cases outcomes with
    | ok same => exact exactly.2 (foldAll_skipped same)

/-- A division by zero in the arm that is not chosen is left alone. -/
theorem unchosen_division_is_left_alone :
    let tokens : List Token := [.ofKind .number "1", .ofKind .question "?", .ofKind .number "2",
      .ofKind .colon ":", .ofKind .number "1", .ofKind .slash "/", .ofKind .number "0"]
    let quotient := Expr.bin (.number (.int 1)) (some "/") (.number (.int 0))
    let expr := Expr.cond (.number (.int 1)) (.number (.int 2)) quotient
    ofSource (.ofTokens tokens) true = .ok expr ∧ expr.IsArithmetic ∧
      (expr.evaluate []).1 = .ok (.int 2) ∧ expr.skippedArms = [quotient] ∧
      foldedOfSource (.ofTokens tokens) true = .ok (.number (.int 2)) := by
  intro tokens quotient expr
  have read : ofSource (.ofTokens tokens) true = .ok expr := by cbv
  have arithmetic : expr.IsArithmetic := by simp [expr, quotient, IsArithmetic]
  have evaluated : (expr.evaluate []).1 = .ok (.int 2) := rfl
  have skipped : expr.skippedArms = [quotient] := rfl
  have left : quotient.foldAll = .ok quotient := by rfl
  refine ⟨read, arithmetic, evaluated, skipped, ?_⟩
  refine (arithmetic_is_folded_to_its_value tokens read arithmetic evaluated).1.2 ?_
  rw [skipped]
  intro arm member
  rw [List.mem_singleton.1 member]
  exact ⟨quotient, left⟩

/-- A quotient beyond the doubles in the arm that is not chosen is a failure all the same. -/
theorem unchosen_quotient_breaks_off :
    let tokens : List Token := [.ofKind .number "0", .ofKind .question "?", .ofKind .number "171",
      .ofKind .bang "!", .ofKind .slash "/", .ofKind .number "1", .ofKind .colon ":",
      .ofKind .number "5"]
    let quotient := Expr.bin (.post (some "!") (.number (.int 171))) (some "/") (.number (.int 1))
    let expr := Expr.cond (.number (.int 0)) quotient (.number (.int 5))
    ofSource (.ofTokens tokens) true = .ok expr ∧ expr.IsArithmetic ∧
      (expr.evaluate []).1 = .ok (.int 5) ∧
      foldedOfSource (.ofTokens tokens) true = .error (.range .quotient) := by
  intro tokens quotient expr
  have read : ofSource (.ofTokens tokens) true = .ok expr := by cbv
  have arithmetic : expr.IsArithmetic := by simp [expr, quotient, IsArithmetic]
  refine ⟨read, arithmetic, rfl, ?_⟩
  -- The factorial is a whole number, but its quotient is rounded to a double that does not exist.
  obtain ⟨power, divided⟩ := Number.factorial_beyond_doubles
  rw [foldedOfSource_eq read]
  simp only [expr, quotient, foldAll, fold, foldOutcome, power, divided, bind, Except.bind]

end Expr

end Climb
