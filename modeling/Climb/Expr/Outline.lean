import Climb.Expr.Format

/-! Expressions as outlines: one line for each node and field, indented by depth. -/

namespace Climb

/-- A number in an outline, where doubles keep their point. -/
def Number.outlineText : Number → Except Error String
  | .int value => intText value
  | other => .ok other.text

namespace Expr

/-- A line of an outline, or the failure to write it. -/
abbrev Line := Except Error String

/-- Two blanks for each level of depth above zero. -/
def indent (depth : Int) : String :=
  String.ofList (List.replicate (2 * depth.toNat) ' ')

/-- A field with the text of its value. -/
def fieldLine (depth : Int) (field : String) (value : Except Error String) : Line :=
  value.map fun text => indent depth ++ "  " ++ field ++ ": " ++ text

/-- A field with its value on the lines below. -/
def fieldHeading (depth : Int) (field : String) : Line :=
  .ok (indent depth ++ "  " ++ field ++ ":")

/-- A label as a field; one that was left out has no line. -/
def labelField (depth : Int) (field : String) (label : Label) : List Line :=
  label.toList.map fun text => fieldLine depth field (.ok (quoted text))

/-- The lines of a field, given those of its value; what is no expression stands on one line. -/
def fieldLines (depth : Int) (field : String) (value : Expr) (lines : List Line) : List Line :=
  match value with
  | foreign .null => []
  | foreign value => [fieldLine depth field (.ok value.display)]
  | _ => fieldHeading depth field :: lines

mutual

/-- The lines of an expression. -/
def outline (depth : Int) : Expr → List Line
  | foreign value => [.ok (indent depth ++ value.formName ++ ": " ++ value.display)]
  | name label =>
    .ok (indent depth ++ "NameExpr") :: labelField depth "name" label
  | number value =>
    [.ok (indent depth ++ "NumberExpr"), fieldLine depth "value" value.outlineText]
  | assign target value =>
    .ok (indent depth ++ "AssignExpr") :: labelField depth "name" target ++
      fieldLines depth "value" value (outline (depth + 2) value)
  | pre op operand =>
    .ok (indent depth ++ "PrefixExpr") :: labelField depth "op" op ++
      fieldLines depth "operand" operand (outline (depth + 2) operand)
  | post op operand =>
    .ok (indent depth ++ "PostfixExpr") :: labelField depth "op" op ++
      fieldLines depth "operand" operand (outline (depth + 2) operand)
  | bin left op right =>
    .ok (indent depth ++ "OperatorExpr") ::
      fieldLines depth "left" left (outline (depth + 2) left) ++ labelField depth "op" op ++
      fieldLines depth "right" right (outline (depth + 2) right)
  | cond condition chosen other =>
    .ok (indent depth ++ "ConditionalExpr") ::
      fieldLines depth "condition" condition (outline (depth + 2) condition) ++
      fieldLines depth "then_arm" chosen (outline (depth + 2) chosen) ++
      fieldLines depth "else_arm" other (outline (depth + 2) other)
  | call callee args =>
    .ok (indent depth ++ "CallExpr") ::
      fieldLines depth "function" callee (outline (depth + 2) callee) ++
      if args.isEmpty then [fieldLine depth "args" (.ok "[]")]
      else fieldHeading depth "args" :: outlineAll (depth + 2) args

/-- The lines of expressions, in order. -/
def outlineAll (depth : Int) : List Expr → List Line
  | [] => []
  | first :: rest => outline depth first ++ outlineAll depth rest

end

/-- The lines before the first that could not be written, and why it could not. -/
def written : List Line → List String × Option Error
  | [] => ([], none)
  | .error failure :: _ => ([], some failure)
  | .ok line :: rest =>
    let (lines, failure) := written rest
    (line :: lines, failure)

end Expr

end Climb
