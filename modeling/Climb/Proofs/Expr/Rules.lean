import Climb.Expr.Grammar
import Climb.Proofs.Grammar.Simulation

/-! The three forms of the language: what they read, step by step, and what they make of it. -/

namespace Climb.Expr

open Climb.Parser

variable {operand : Int → Parser Expr Expr} {bound : Nat} {token : Token} {left : Expr}
  {related new : Expr → Expr → Prop}

/-- A group is an expression of any strength and its closing parenthesis. -/
theorem runHead_group :
    runHead operand bound token (.form "group" groupSteps buildGroup) = (do
      let inner ← operand 0
      let _ ← consume (some (.kind .rparen))
      return inner) := by
  -- The steps of the form are a list that is gone through from its head.
  simp only [runHead, groupSteps, steps, step, bind_assoc, pure_bind, List.cons_append,
    List.nil_append, buildGroup]
  rfl

/-- A conditional goes on with its two arms and the colon between them. -/
theorem runTail_cond {strength : Int} :
    runTail operand bound token left (.form "cond" condSteps buildCond strength) = (do
      let chosen ← operand 0
      let _ ← consume (some (.kind .colon))
      let other ← operand 2
      return .cond left chosen other) := by
  simp only [runTail, condSteps, steps, step, bind_assoc, pure_bind, List.cons_append,
    List.nil_append, buildCond, Option.toList_some, List.map_cons, List.map_nil]
  rfl

/-- A call goes on with its arguments. -/
theorem runTail_call {strength : Int} :
    runTail operand bound token left (.form "call" callSteps buildCall strength) = (do
      let args ← items operand bound (.kind .comma) (.kind .rparen)
      return .call left args) := by
  simp only [runTail, callSteps, steps, step, bind_assoc, pure_bind, List.cons_append,
    List.nil_append, buildCall, Option.toList_some, List.map_cons, List.map_nil]
  rfl

/-- A group makes nothing new of what stands in it. -/
theorem respects_group (kept : ∀ {one other}, related one other → new one other) :
    (HeadRule.form "group" groupSteps buildGroup).Respects related new := by
  intro token ones others parts
  -- Where the parts are not those of a group, both builders fail.
  obtain _ | ⟨first, parts⟩ := parts
  · exact .error _
  cases first <;> try exact .error _
  rename_i inner newInner same
  obtain _ | ⟨second, parts⟩ := parts
  · exact .error _
  cases second <;> try exact .error _
  obtain _ | ⟨_, _⟩ := parts
  · exact .ok (kept same)
  · exact .error _

/-- A call is made of its callee and its arguments. -/
theorem respects_call (strength : Int)
    (made : ∀ {callee newCallee : Expr} {args newArgs : List Expr}, related callee newCallee →
      List.Forall₂ related args newArgs → new (.call callee args) (.call newCallee newArgs)) :
    (TailRule.form "call" callSteps buildCall strength).Respects related new := by
  intro token ones others parts
  -- As for a group: any other parts make both builders fail alike.
  obtain _ | ⟨first, parts⟩ := parts
  · exact .error _
  cases first <;> try exact .error _
  rename_i callee newCallee same
  obtain _ | ⟨second, parts⟩ := parts
  · exact .error _
  cases second <;> try exact .error _
  rename_i args newArgs all
  obtain _ | ⟨_, _⟩ := parts
  · exact .ok (made same all)
  · exact .error _

/-- A conditional is made of its condition and its arms, with the colon between them. -/
theorem respects_cond (strength : Int)
    (made : ∀ {condition newCondition chosen newChosen other newOther : Expr},
      related condition newCondition → related chosen newChosen → related other newOther →
        new (.cond condition chosen other) (.cond newCondition newChosen newOther)) :
    (TailRule.form "cond" condSteps buildCond strength).Respects related new := by
  intro token ones others parts
  -- Four parts are expected, and a builder that misses one fails on both sides.
  obtain _ | ⟨first, parts⟩ := parts
  · exact .error _
  cases first <;> try exact .error _
  rename_i condition newCondition same
  obtain _ | ⟨second, parts⟩ := parts
  · exact .error _
  cases second <;> try exact .error _
  rename_i chosen newChosen one
  obtain _ | ⟨third, parts⟩ := parts
  · exact .error _
  cases third <;> try exact .error _
  obtain _ | ⟨fourth, parts⟩ := parts
  · exact .error _
  cases fourth <;> try exact .error _
  rename_i other newOther two
  obtain _ | ⟨_, _⟩ := parts
  · exact .ok (made same one two)
  · exact .error _

end Climb.Expr
