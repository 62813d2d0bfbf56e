import Climb.Expr.Basic

/-! Expressions as text with every operator in parentheses. -/

namespace Climb

/-- The text of a whole number, unless it has too many digits. -/
def intText (value : Int) : Except Error String :=
  if isWritable value then .ok (toString value) else .error (.value .writingTooLong)

/-- The text of a number in an expression: whole doubles are written without a point. -/
def Number.format : Number → Except Error String
  | .int value => intText value
  | .float value =>
    match wholeValue? value with
    | some whole => intText whole
    | none => .ok (floatText value)
  | .bool value => .ok (if value then "True" else "False")

/-- The texts of arguments with commas between them; each argument has to have a text. -/
def joinArguments (args : List Label) : Except Error String :=
  match args.findIdx? Option.isNone with
  | some index => .error (.argumentMissing index)
  | none => .ok (String.intercalate "," (args.map Label.plain))

namespace Expr

mutual

/--
An expression as text. A name that was left out has no text; next to an operator it is written like
any label that was left out. What is written first fails first.
-/
def format : Expr → Except Error Label
  | name label => .ok label
  | number value => value.format.map some
  | assign target value => do
    return some ("(" ++ target.plain ++ "=" ++ (← value.format).plain ++ ")")
  | pre op operand => do
    return some ("(" ++ op.plain ++ (← operand.format).plain ++ ")")
  | post op operand => do
    return some ("(" ++ (← operand.format).plain ++ op.plain ++ ")")
  | bin left op right => do
    let left ← left.format
    return some ("(" ++ left.plain ++ op.plain ++ (← right.format).plain ++ ")")
  | cond condition chosen other => do
    let condition ← condition.format
    let chosen ← chosen.format
    let other ← other.format
    return some ("(" ++ condition.plain ++ "?" ++ chosen.plain ++ ":" ++ other.plain ++ ")")
  | call callee args => do
    -- The arguments are written before the callee.
    let args ← joinArguments (← formatAll args)
    return some ((← callee.format).plain ++ "(" ++ args ++ ")")
  | foreign value => .error (.notAnExpression value)

/-- Expressions as texts, in order. -/
def formatAll : List Expr → Except Error (List Label)
  | [] => .ok []
  | first :: rest => do
    return (← first.format) :: (← formatAll rest)

end

end Expr

end Climb
