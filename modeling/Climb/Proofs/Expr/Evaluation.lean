import Climb.Expr.Eval
import Climb.Proofs.Number.Failures

/-! Evaluation fails by a fault of its own or of numbers, where no name stands for a function. -/

namespace Climb

/-- Names that stand for numbers alone. -/
def Env.NumbersOnly (env : Env) : Prop :=
  ∀ entry ∈ env, ∃ value, entry.2 = .number value

/-- A name that is given a number stands for a number. -/
theorem Env.NumbersOnly.insert {env : Env} (plain : env.NumbersOnly) (name : Label)
    (value : Number) : (env.insert name (.number value)).NumbersOnly := by
  -- The name keeps its place if it has one, and gets the last place else.
  induction env with
  | nil => exact List.forall_mem_singleton.2 ⟨value, rfl⟩
  | cons entry rest ih =>
    obtain ⟨first, others⟩ := List.forall_mem_cons.1 plain
    unfold Env.insert
    split
    · exact List.forall_mem_cons.2 ⟨⟨value, rfl⟩, others⟩
    · exact List.forall_mem_cons.2 ⟨first, ih others⟩

/-- What a name stands for is a number. -/
theorem Env.NumbersOnly.get? {env : Env} (plain : env.NumbersOnly) {name : Label} {value : Value}
    (found : env.get? name = some value) : ∃ number, value = .number number := by
  simp only [Env.get?, Option.map_eq_some_iff] at found
  obtain ⟨entry, located, rfl⟩ := found
  exact plain entry (List.mem_of_find?_eq_some located)

namespace Eval

variable {α β : Type}

/-- An evaluation that fails in computed ways only, and leaves numbers where it finds them. -/
def Computes (action : Eval α) : Prop :=
  ∀ env : Env, env.NumbersOnly → ComputedOnly (action env).1 ∧ (action env).2.NumbersOnly

/-- One evaluation after another is run where the first leaves off. -/
theorem bind_apply (first : Eval α) (next : α → Eval β) (env : Env) :
    (first >>= next) env = match first env with
      | (.ok value, after) => next value after
      | (.error failure, after) => (.error failure, after) := by
  have unfolded : (first >>= next) env = ExceptT.bindCont next (first env).1 (first env).2 := rfl
  rcases run : first env with ⟨outcome, after⟩
  rw [unfolded, run]
  cases outcome <;> rfl

/-- What computes in parts computes. -/
theorem Computes.bind {first : Eval α} {next : α → Eval β} (start : Computes first)
    (rest : ∀ value, Computes (next value)) : Computes (first >>= next) := by
  intro env plain
  obtain ⟨outcome, left⟩ := start env plain
  rw [bind_apply]
  -- The first part has left numbers alone, so the second starts from such names too.
  rcases run : first env with ⟨_ | value, after⟩ <;> simp only [run] at outcome left
  · cases outcome with
    | error computed => exact ⟨.error computed, left⟩
  · exact rest value after left

/-- An outcome that is computed is one. -/
theorem computes_outcome {result : Except Error α} (computed : ComputedOnly result) :
    Computes (outcome result) :=
  fun _ plain => ⟨computed, plain⟩

/-- Returning a value fails in no way. -/
theorem computes_pure (value : α) : Computes (pure value : Eval α) :=
  fun _ plain => ⟨.ok value, plain⟩

/-- A fault of evaluation is computed. -/
theorem computes_throw (fault : EvalFault) : Computes (throw (.ofEval fault) : Eval α) :=
  fun _ plain => ⟨.ofEval fault, plain⟩

/-- What is done about the names depends on what they stand for, which is numbers. -/
theorem computes_get {next : Env → Eval β}
    (rest : ∀ env : Env, env.NumbersOnly → Computes (next env)) :
    Computes ((get : Eval Env) >>= next) := by
  intro env plain
  have unfolded : ((get : Eval Env) >>= next) env = next env env := rfl
  rw [unfolded]
  exact rest env plain env plain

/-- The number of a name is found, or a fault of evaluation. -/
theorem computes_lookup (name : Label) : Computes (lookup name) := by
  refine computes_get fun env plain => ?_
  -- A name may be missing, or stand for a function, and both are faults of evaluation.
  split
  · exact computes_pure _
  · exact computes_throw _
  · exact computes_throw _

/-- Where names stand for numbers alone, no function is found to be called. -/
theorem computes_call {next : (List Number → Except Error Number) → Eval β} (name : Label) :
    Computes (lookupFunction name >>= next) := by
  intro env plain
  have got : (get : Eval Env) env = (.ok env, env) := rfl
  have refused : lookupFunction name env = (.error (.ofEval (.notAFunction name)), env) := by
    unfold lookupFunction
    rw [bind_apply, got]
    cases found : env.get? name with
    | none =>
      simp only [found]
      rfl
    | some value =>
      -- The name has a number, which is not a function either.
      obtain ⟨number, rfl⟩ := plain.get? found
      simp only [found]
      rfl
  rw [bind_apply, refused]
  exact ⟨.ofEval _, plain⟩

/-- A name that is given a number stands for it from then on. -/
theorem computes_assign (name : Label) (value : Number) : Computes (assign name value) :=
  fun _ plain => ⟨.ok (), plain.insert name value⟩

end Eval

namespace Expr

open Climb.Eval

/-- What is called has a name, or is refused. -/
theorem computes_calleeName (callee : Expr) : Computes callee.calleeName := by
  unfold calleeName
  split
  · exact computes_pure _
  · exact computes_throw _

/-- Every expression fails in computed ways only, where names stand for numbers alone. -/
theorem computes_evaluate : ∀ expr : Expr, Computes expr.evaluate
  | .number value => computes_pure value
  | .name label => computes_lookup label
  | .assign target value =>
    (computes_evaluate value).bind fun result =>
      (computes_assign target result).bind fun _ => computes_pure result
  | .pre op operand =>
    (computes_evaluate operand).bind fun value =>
      computes_outcome (Number.applyBefore_fails op value)
  | .post op operand =>
    (computes_evaluate operand).bind fun value =>
      computes_outcome (Number.applyAfter_fails op value)
  | .bin left op right =>
    (computes_evaluate left).bind fun one => (computes_evaluate right).bind fun other =>
      computes_outcome (Number.applyBetween_fails op one other)
  -- Only the arm that is chosen is evaluated.
  | .cond condition chosen other => by
    refine (computes_evaluate condition).bind fun value => ?_
    split
    · exact computes_evaluate other
    · exact computes_evaluate chosen
  -- The arguments are not come to, since there is nothing to be called.
  | .call callee args => (computes_calleeName callee).bind fun label => computes_call label
  | .foreign value => computes_throw _

end Expr

end Climb
