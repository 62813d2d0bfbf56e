import Climb.Error

/-! Expressions of the language: names, numbers, operators, assignments, conditionals and calls. -/

namespace Climb

/-- An expression. -/
inductive Expr where
  | name (label : Label)
  | number (value : Number)
  | assign (target : Label) (value : Expr)
  /-- An operator before its operand. -/
  | pre (op : Label) (operand : Expr)
  /-- An operator after its operand. -/
  | post (op : Label) (operand : Expr)
  /-- An operator between its operands. -/
  | bin (left : Expr) (op : Label) (right : Expr)
  | cond (condition chosen other : Expr)
  | call (callee : Expr) (args : List Expr)
  /-- A value that is no expression, standing where one should be. -/
  | foreign (value : Datum)
deriving Inhabited

end Climb
