import Climb.Grammar.Rule

/-! Plain syntax trees, for grammars that only record which rules applied where. -/

namespace Climb

/-- A syntax tree: a tag and the text of a token over what was read with them. -/
inductive Tree where
  | node (tag : Datum) (text : Option String) (parts : List (Part Tree))
  /-- A tree that an interpreter has put a mark on. -/
  | marked (tree : Tree)

namespace Tree

/-- How many fields a tree shows: a tag, a text and its parts, or a mark and what is marked. -/
def width : Tree → Nat
  | node _ _ parts => 2 + parts.length
  | marked _ => 2

/-- Interpreters of plain trees. -/
inductive Treatment where
  /-- Marks every node. -/
  | mark
  /-- Leaves every node as it is. -/
  | keep
  /-- Replaces every node that has parts. -/
  | collapse
  /-- Refuses every node that has parts. -/
  | refuse
deriving Repr, DecidableEq

/-- What an interpreter of plain trees answers for a node. -/
def Treatment.apply (treatment : Treatment) (tree : Tree) : Except Error Tree :=
  match treatment with
  | mark => .ok (.marked tree)
  | keep => .ok tree
  | collapse => .ok (if 2 < tree.width then .node (.text "folded") none [] else tree)
  | refuse =>
    if 2 < tree.width then .error (.value (.custom "interpreter failed")) else .ok tree

/-- How a rule builds a plain tree, or that it refuses to. -/
inductive Builder where
  | tagged (tag : Datum)
  | refusing (message : String)

namespace Builder

/-- The text that stands for a builder. -/
def label : Builder → String
  | tagged tag => "<" ++ tag.plain ++ ">"
  | refusing _ => "<raise>"

/-- The tree of a token over what was read with it. -/
def build (builder : Builder) (token : Token) (parts : List (Part Tree)) : Except Error Tree :=
  match builder with
  | tagged tag => .ok (.node tag token.text parts)
  | refusing message => .error (.value (.custom message))

/-- The tree of a token alone. -/
def leaf (builder : Builder) (token : Token) : Except Error Tree :=
  builder.build token []

/-- The tree of an operator with one operand. -/
def unary (builder : Builder) (token : Token) (operand : Tree) : Except Error Tree :=
  builder.build token [.node operand]

/-- The tree of an operator with two operands. -/
def binary (builder : Builder) (token : Token) (left right : Tree) : Except Error Tree :=
  builder.build token [.node left, .node right]

end Builder

end Tree

end Climb
