import Climb.Expr.Basic
import Climb.Number.Operators

/-! The value of an expression, in an environment that assignments change. -/

namespace Climb

/-- What a name can stand for. -/
inductive Value where
  | number (value : Number)
  | function (apply : List Number → Except Error Number)

/-- The values of names, oldest first. -/
abbrev Env := List (Label × Value)

namespace Env

/-- The value of a name. -/
def get? (env : Env) (name : Label) : Option Value :=
  (env.find? fun entry => entry.1 = name).map (·.2)

/-- Gives a name a value in place of the one it had. -/
def insert : Env → Label → Value → Env
  | [], name, value => [(name, value)]
  | (key, old) :: rest, name, value =>
    if key = name then (key, value) :: rest else (key, old) :: insert rest name value

end Env

/-- An evaluation, which keeps the assignments it has made also when it fails. -/
abbrev Eval := ExceptT Error (StateM Env)

namespace Eval

/-- An outcome that does not touch the environment. -/
def outcome {α : Type} (result : Except Error α) : Eval α :=
  fun env => (result, env)

/-- The number that a name stands for. -/
def lookup (name : Label) : Eval Number := do
  match (← get).get? name with
  | some (.number value) => return value
  | some (.function _) => throw (.ofEval (.notANumber name))
  | none => throw (.ofEval (.unboundName name))

/-- The function that a name stands for. -/
def lookupFunction (name : Label) : Eval (List Number → Except Error Number) := do
  match (← get).get? name with
  | some (.function apply) => return apply
  | _ => throw (.ofEval (.notAFunction name))

/-- Gives a name a number. -/
def assign (name : Label) (value : Number) : Eval Unit :=
  modify fun env => env.insert name (.number value)

end Eval

namespace Expr

/-- The name by which a function is called. -/
def calleeName : Expr → Eval Label
  | name label => return label
  | _ => throw (.ofEval .unnamedCallee)

mutual

/-- The value of an expression. -/
def evaluate : Expr → Eval Number
  | number value => return value
  | name label => Eval.lookup label
  | assign target value => do
    let result ← value.evaluate
    Eval.assign target result
    return result
  | pre op operand => do
    let value ← operand.evaluate
    Eval.outcome (value.applyBefore op)
  | post op operand => do
    let value ← operand.evaluate
    Eval.outcome (value.applyAfter op)
  | bin left op right => do
    let leftValue ← left.evaluate
    let rightValue ← right.evaluate
    Eval.outcome (leftValue.applyBetween op rightValue)
  | cond condition chosen other => do
    -- Only the arm that is chosen is evaluated.
    if (← condition.evaluate).isZero then other.evaluate else chosen.evaluate
  | call callee args => do
    -- The function is looked up before its arguments are evaluated.
    let apply ← Eval.lookupFunction (← callee.calleeName)
    let values ← evaluateAll args
    Eval.outcome (apply values)
  | foreign value => throw (.ofEval (.notEvaluable value.formName))

/-- The values of expressions, in order. -/
def evaluateAll : List Expr → Eval (List Number)
  | [] => return []
  | first :: rest => do
    let value ← first.evaluate
    return value :: (← evaluateAll rest)

end

end Expr

end Climb
