import Climb.Expr.Grammar
import Climb.Number.Operators

/-! Constant folding, one node at a time and while an expression is being read. -/

namespace Climb.Expr

/-- A folded operator: its value, or the expression as it was if it has none. -/
def foldOutcome (expr : Expr) : Except Error Number → Except Error Expr
  | .ok value => .ok (.number value)
  | .error (.evaluation _) => .ok expr
  | .error failure => .error failure

/--
Replaces an operator on numbers by its value, and a conditional on a number by its chosen arm if
that is a number. Its operands are taken as they are, and what fails to evaluate is left alone.
-/
def fold (expr : Expr) : Except Error Expr :=
  match expr with
  | pre op (.number value) => foldOutcome expr (value.applyBefore op)
  | post op (.number value) => foldOutcome expr (value.applyAfter op)
  | bin (.number left) op (.number right) => foldOutcome expr (left.applyBetween op right)
  | cond (.number condition) chosen other =>
    match if condition.isZero then other else chosen with
    | .number value => .ok (.number value)
    | _ => .ok expr
  | _ => .ok expr

/-- Reads one expression from a source, folding every node as soon as it is built. -/
def foldedOfSource (source : Source) (exhaust : Bool) : Except Error Expr :=
  (grammar.run (some fold) source exhaust).1

end Climb.Expr
