import Climb.Proofs.Expr.Evaluation
import Climb.Proofs.Expr.NormalForm

/-! What an evaluation sees of an environment, and what it changes there. -/

namespace Climb

namespace Env

/-- A name that has been given a value stands for it. -/
@[simp] theorem get?_insert_self (env : Env) (name : Label) (value : Value) :
    (env.insert name value).get? name = some value := by
  induction env with
  | nil => simp [insert, get?]
  | cons entry rest ih =>
    unfold insert
    -- The name has its place here, or further down, or gets the last one.
    split
    · rename_i same
      simp [get?, same]
    · rename_i apart
      simpa [get?, apart] using ih

/-- All other names stand for what they stood for. -/
theorem get?_insert_of_ne (env : Env) {name other : Label} (value : Value) (apart : other ≠ name) :
    (env.insert name value).get? other = env.get? other := by
  induction env with
  | nil => simp [insert, get?, apart.symm]
  | cons entry rest ih =>
    obtain ⟨key, old⟩ := entry
    simp only [insert]
    split
    · -- The entry that is changed is not the one looked for.
      rename_i same
      have skipped : key ≠ other := fun equal => apart (equal.symm.trans same)
      simp [get?, skipped]
    · simp only [get?, List.find?_cons] at ih ⊢
      split
      · rfl
      · exact ih

/-- The names of an environment, in its order. -/
def names (env : Env) : List Label :=
  env.map (·.1)

/-- A name that is given a value keeps its place, or gets the last one. -/
theorem names_insert (env : Env) (name : Label) (value : Value) :
    env.names <+: (env.insert name value).names := by
  induction env with
  | nil => exact List.nil_prefix
  | cons entry rest ih =>
    unfold insert
    -- The place is found at the first entry with the name, and the ones before it are kept.
    split
    · exact List.prefix_refl _
    · exact (List.prefix_cons_inj _).2 ih

/-- Two environments in which some names stand for the same. -/
def AgreeOn (seen : Label → Prop) (one other : Env) : Prop :=
  ∀ name, seen name → one.get? name = other.get? name

/-- Names that are given the same value agree on it, and as before on the others. -/
theorem AgreeOn.insert {seen : Label → Prop} {one other : Env} (agree : AgreeOn seen one other)
    (name : Label) (value : Value) :
    AgreeOn seen (one.insert name value) (other.insert name value) := by
  intro label known
  -- The name itself is decided by what was given, any other by what was there.
  by_cases same : label = name
  · subst same
    rw [get?_insert_self, get?_insert_self]
  · rw [get?_insert_of_ne _ _ same, get?_insert_of_ne _ _ same, agree label known]

/-- An environment after some names have perhaps been given numbers. -/
structure Assigned (targets : Label → Prop) (before after : Env) : Prop where
  /-- What is no target stands for what it stood for. -/
  frame : ∀ name, ¬targets name → after.get? name = before.get? name
  /-- No name is lost or moved; new ones come last. -/
  kept : before.names <+: after.names
  /-- Whatever has changed is a number now. -/
  numbers : ∀ name, after.get? name = before.get? name ∨
    ∃ value, after.get? name = some (.number value)

namespace Assigned

variable {targets : Label → Prop} {before between after : Env}

/-- Nothing need be assigned. -/
theorem refl (env : Env) : Assigned targets env env :=
  ⟨fun _ _ => rfl, List.prefix_refl _, fun _ => .inl rfl⟩

/-- What is assigned in two parts is assigned. -/
theorem trans (first : Assigned targets before between) (second : Assigned targets between after) :
    Assigned targets before after where
  frame name free := (second.frame name free).trans (first.frame name free)
  kept := first.kept.trans second.kept
  numbers name := by
    -- The last change decides, if there is one.
    rcases second.numbers name with same | number
    · rw [same]
      exact first.numbers name
    · exact .inr number

/-- A target may be given a number. -/
theorem insert {name : Label} (target : targets name) (env : Env) (value : Number) :
    Assigned targets env (env.insert name (.number value)) where
  frame other free := get?_insert_of_ne env _ fun same => free (same ▸ target)
  kept := env.names_insert name _
  numbers other := by
    by_cases same : other = name
    · subst same
      exact .inr ⟨value, get?_insert_self env other _⟩
    · exact .inl (get?_insert_of_ne env _ same)

end Assigned

end Env

namespace Eval

variable {α β : Type} {seen targets : Label → Prop}

/-- An evaluation that sees only some names, and only gives numbers to some. -/
structure Confined (seen targets : Label → Prop) (action : Eval α) : Prop where
  alike : ∀ {one other : Env}, one.AgreeOn seen other →
    (action one).1 = (action other).1 ∧ (action one).2.AgreeOn seen (action other).2
  assigned : ∀ env, Env.Assigned targets env (action env).2

/-- What is confined in its parts is confined. -/
theorem Confined.bind {first : Eval α} {next : α → Eval β} (start : Confined seen targets first)
    (rest : ∀ value, Confined seen targets (next value)) :
    Confined seen targets (first >>= next) where
  alike {one other} agree := by
    obtain ⟨same, left⟩ := start.alike agree
    rw [bind_apply, bind_apply]
    rcases run : first one with ⟨answer, after⟩
    rcases otherRun : first other with ⟨otherAnswer, otherAfter⟩
    simp only [run, otherRun] at same left
    subst same
    -- A first part that fails is all that is done, and it has left the names in agreement.
    cases answer with
    | error failure => exact ⟨rfl, left⟩
    | ok value => exact (rest value).alike left
  assigned env := by
    have begun := start.assigned env
    rw [bind_apply]
    rcases run : first env with ⟨answer, after⟩
    rw [run] at begun
    cases answer with
    | error failure => exact begun
    | ok value => exact begun.trans ((rest value).assigned after)

/-- An outcome that does not touch the environment is confined to no names at all. -/
theorem confined_outcome (result : Except Error α) : Confined seen targets (outcome result) :=
  ⟨fun agree => ⟨rfl, agree⟩, fun env => .refl env⟩

/-- What is done about a name depends only on what it stands for. -/
theorem confined_get {name : Label} (known : seen name) {next : Env → Eval α}
    (decided : ∀ {one other : Env}, one.get? name = other.get? name → next one = next other)
    (rest : ∀ env, Confined seen targets (next env)) :
    Confined seen targets ((get : Eval Env) >>= next) := by
  have unfolded : ∀ env : Env, ((get : Eval Env) >>= next) env = next env env := fun _ => rfl
  -- The environment is read but not changed, so agreement on the one name is enough.
  constructor
  · intro one other agree
    rw [unfolded, unfolded, decided (agree name known)]
    exact (rest other).alike agree
  · intro env
    rw [unfolded]
    exact (rest env).assigned env

/-- Looking up a number sees one name. -/
theorem confined_lookup {name : Label} (known : seen name) :
    Confined seen targets (lookup name) := by
  refine confined_get known (fun same => by rw [same]) fun env => ?_
  split <;> exact confined_outcome _

/-- Looking up a function sees one name. -/
theorem confined_lookupFunction {name : Label} (known : seen name) :
    Confined seen targets (lookupFunction name) := by
  refine confined_get known (fun same => by rw [same]) fun env => ?_
  split <;> exact confined_outcome _

/-- An assignment gives a number to its target. -/
theorem confined_assign {name : Label} (target : targets name) (value : Number) :
    Confined seen targets (assign name value) :=
  ⟨fun agree => ⟨rfl, agree.insert name _⟩, fun env => .insert target env value⟩

end Eval

namespace Expr

open Climb.Eval

/-- Whether a name is the target of an assignment in an expression. -/
def IsTarget (expr : Expr) (name : Label) : Prop :=
  ∃ value, .assign name value ∈ expr.subexpressions

/-- Whether a name stands somewhere in an expression. -/
def Mentions (expr : Expr) (name : Label) : Prop :=
  .name name ∈ expr.subexpressions ∨ expr.IsTarget name

/-- An expression all of whose names are among some, and its targets among others. -/
structure Within (seen targets : Label → Prop) (expr : Expr) : Prop where
  mentions : ∀ name, expr.Mentions name → seen name
  assigns : ∀ name, expr.IsTarget name → targets name

variable {seen targets : Label → Prop} {expr inner : Expr}

/-- What holds of the names of an expression holds of those of its parts. -/
theorem Within.part (within : Within seen targets expr)
    (inside : ∀ node ∈ inner.subexpressions, node ∈ expr.subexpressions) :
    Within seen targets inner where
  -- A name is mentioned by standing there or by being given a value.
  mentions name := by
    rintro (named | ⟨value, target⟩)
    · exact within.mentions name (.inl (inside _ named))
    · exact within.mentions name (.inr ⟨value, inside _ target⟩)
  assigns name := fun ⟨value, target⟩ => within.assigns name ⟨value, inside _ target⟩

mutual

/-- An evaluation is confined to the names of its expression. -/
theorem confined_evaluate : ∀ expr : Expr, Within seen targets expr →
    Confined seen targets expr.evaluate
  | .number value, _ => confined_outcome (.ok value)
  | .name label, within => confined_lookup (within.mentions label (.inl (by simp [subexpressions])))
  | .assign target value, within => by
    have part : Within seen targets value := within.part (by simp +contextual [subexpressions])
    -- The target is known from the node itself, whatever stands in its value.
    have known : targets target := within.assigns target ⟨value, by simp [subexpressions]⟩
    exact (confined_evaluate value part).bind fun result =>
      (confined_assign known result).bind fun _ => confined_outcome (.ok result)
  | .pre op operand, within => by
    have part : Within seen targets operand := within.part (by simp +contextual [subexpressions])
    exact (confined_evaluate operand part).bind fun _ => confined_outcome _
  | .post op operand, within => by
    have part : Within seen targets operand := within.part (by simp +contextual [subexpressions])
    exact (confined_evaluate operand part).bind fun _ => confined_outcome _
  | .bin left op right, within => by
    have first : Within seen targets left := within.part (by simp +contextual [subexpressions])
    have second : Within seen targets right := within.part (by simp +contextual [subexpressions])
    exact (confined_evaluate left first).bind fun _ =>
      (confined_evaluate right second).bind fun _ => confined_outcome _
  | .cond condition chosen other, within => by
    have part : Within seen targets condition := within.part (by simp +contextual [subexpressions])
    refine (confined_evaluate condition part).bind fun _ => ?_
    split
    · exact confined_evaluate other (within.part (by simp +contextual [subexpressions]))
    · exact confined_evaluate chosen (within.part (by simp +contextual [subexpressions]))
  | .call callee args, within => by
    have values := confined_evaluateAll args fun arg among =>
      within.part fun node member => by
        simp only [subexpressions, List.mem_cons, List.mem_append]
        exact .inr (.inr (mem_subexpressionsOf.2 ⟨arg, among, member⟩))
    by_cases named : ∃ label, callee = .name label
    · -- The function is looked up by the name that stands in the call.
      obtain ⟨label, rfl⟩ := named
      have called : (Expr.call (.name label) args).evaluate = (do
          let apply ← lookupFunction label
          let values ← evaluateAll args
          Eval.outcome (apply values)) := rfl
      rw [called]
      have known := within.mentions label (.inl (by simp [subexpressions]))
      exact (confined_lookupFunction known).bind fun apply => values.bind fun _ =>
        confined_outcome _
    · have unnamed : ∀ label, callee ≠ .name label := fun label same => named ⟨label, same⟩
      have refused : (Expr.call callee args).evaluate
          = Eval.outcome (.error (.ofEval .unnamedCallee)) := by
        rw [evaluate, calleeName_of_unnamed unnamed]
        rfl
      rw [refused]
      exact confined_outcome _
  | .foreign value, _ => confined_outcome (.error _)

/-- Evaluations of several expressions are confined to their names. -/
theorem confined_evaluateAll : ∀ args : List Expr, (∀ arg ∈ args, Within seen targets arg) →
    Confined seen targets (evaluateAll args)
  | [], _ => confined_outcome (.ok [])
  | first :: rest, within =>
    (confined_evaluate first (within first List.mem_cons_self)).bind fun value =>
      (confined_evaluateAll rest fun arg among => within arg (List.mem_cons_of_mem _ among)).bind
        fun values => confined_outcome (.ok (value :: values))

end

/--
Evaluation sees and changes nothing but the names of its expression. Two environments in which these
stand for the same give the same value or failure, and agree on them afterwards. However the
evaluation ends, names that are no targets of assignments in it stand for what they stood for, no
name is lost, and what has changed is a number now.
-/
theorem evaluation_stays_within_its_names (expr : Expr) {one other : Env}
    (agree : one.AgreeOn expr.Mentions other) :
    (expr.evaluate one).1 = (expr.evaluate other).1 ∧
      (expr.evaluate one).2.AgreeOn expr.Mentions (expr.evaluate other).2 ∧
      one.Assigned expr.IsTarget (expr.evaluate one).2 ∧
      other.Assigned expr.IsTarget (expr.evaluate other).2 := by
  have confined := confined_evaluate expr ⟨fun _ known => known, fun _ target => target⟩
  obtain ⟨same, left⟩ := confined.alike agree
  exact ⟨same, left, confined.assigned one, confined.assigned other⟩

/-- A name that is not mentioned makes no difference, and what was assigned before the failure
stays. -/
theorem assignment_is_kept_by_a_failing_quotient :
    let apply : List Number → Except Error Number := fun args => args.foldlM Number.add (.int 0)
    let a : Label := some "a"
    let f : Label := some "f"
    let expr := Expr.bin (.assign a (.call (.name f) [.name a, .number (.int 2)])) (some "/")
      (.number (.int 0))
    let one : Env := [(a, .number (.int 1)), (f, .function apply), (some "b", .number (.int 7))]
    let other : Env := [(f, .function apply), (a, .number (.int 1))]
    one.AgreeOn expr.Mentions other ∧
      expr.evaluate one = (.error (.evaluation .divisionByZero),
        [(a, .number (.int 3)), (f, .function apply), (some "b", .number (.int 7))]) ∧
      (expr.evaluate other).1 = .error (.evaluation .divisionByZero) := by
  intro apply a f expr one other
  have agree : one.AgreeOn expr.Mentions other := by
    intro name mentioned
    have known : name = a ∨ name = f := by
      simpa [expr, Mentions, IsTarget, subexpressions, subexpressionsOf, or_comm] using mentioned
    rcases known with rfl | rfl <;> rfl
  have failed : expr.evaluate one = (.error (.evaluation .divisionByZero),
      [(a, .number (.int 3)), (f, .function apply), (some "b", .number (.int 7))]) := rfl
  have same := (evaluation_stays_within_its_names expr agree).1
  exact ⟨agree, failed, by rw [← same, failed]⟩

end Expr

end Climb
