import Climb.Command.Run
import Climb.Proofs.Number.Telling
import Climb.Proofs.Text.Quoted

/-! Outlines tell expressions apart. -/

namespace Climb

namespace Expr

/-- An expression whose labels are all present, and whose numbers are whole or doubles. -/
inductive IsProper : Expr → Prop
  | name (label : String) : IsProper (name (some label))
  | number {value : Number} (proper : value.IsProper) : IsProper (number value)
  | assign (target : String) {value : Expr} (proper : IsProper value) :
    IsProper (assign (some target) value)
  | pre (op : String) {operand : Expr} (proper : IsProper operand) :
    IsProper (pre (some op) operand)
  | post (op : String) {operand : Expr} (proper : IsProper operand) :
    IsProper (post (some op) operand)
  | bin {left right : Expr} (first : IsProper left) (op : String) (second : IsProper right) :
    IsProper (bin left (some op) right)
  | cond {condition chosen other : Expr} (first : IsProper condition) (second : IsProper chosen)
    (third : IsProper other) : IsProper (cond condition chosen other)
  | call {callee : Expr} {args : List Expr} (proper : IsProper callee)
    (inside : ∀ arg ∈ args, IsProper arg) : IsProper (call callee args)

/-- The name of the form of an expression, as its outline starts with it. -/
def form : Expr → String
  | name _ => "NameExpr"
  | number _ => "NumberExpr"
  | assign _ _ => "AssignExpr"
  | pre _ _ => "PrefixExpr"
  | post _ _ => "PostfixExpr"
  | bin _ _ _ => "OperatorExpr"
  | cond _ _ _ => "ConditionalExpr"
  | call _ _ => "CallExpr"
  | foreign value => value.formName

/-- How many blanks a line starts with. -/
def leadingBlanks (text : String) : Nat :=
  (text.toList.takeWhile (· == ' ')).length

/-- A name of a form or of a field: one without blanks and line breaks. -/
def IsTitle (title : String) : Prop :=
  ∀ c ∈ title.toList, c ≠ ' ' ∧ c ≠ '\n'

/-- A field of an expression, as its outline shows it. -/
inductive Field where
  | label (title : String) (text : Label)
  | number (value : Number)
  | part (title : String) (value : Expr)
  /-- The arguments of a call. -/
  | args (values : List Expr)

namespace Field

/-- The lines of a field of an expression that stands at a depth. -/
def lines (depth : Int) : Field → List Line
  | label title text => labelField depth title text
  | number value => [fieldLine depth "value" value.outlineText]
  | part title value => fieldHeading depth title :: outline (depth + 2) value
  | args values =>
    if values.isEmpty then [fieldLine depth "args" (.ok "[]")]
    else fieldHeading depth "args" :: outlineAll (depth + 2) values

/-- Whether what a field holds is as it should be, and something holds of its expressions. -/
def All (holds : Expr → Prop) : Field → Prop
  | label _ text => text.isSome
  | number value => value.IsProper
  | part _ value => holds value
  | args values => ∀ value ∈ values, holds value

/-- Whether two fields are the same field, each with a value of its own. -/
def Like : Field → Field → Prop
  | label one _, label other _ => one = other
  | number _, number _ => True
  | part one _, part other _ => one = other
  | args _, args _ => True
  | _, _ => False

/-- The name of a field. -/
def title : Field → String
  | label title _ | part title _ => title
  | number _ => "value"
  | args _ => "args"

end Field

/-- The fields of an expression, in order. -/
def fields : Expr → List Field
  | name label => [.label "name" label]
  | number value => [.number value]
  | assign target value => [.label "name" target, .part "value" value]
  | pre op operand => [.label "op" op, .part "operand" operand]
  | post op operand => [.label "op" op, .part "operand" operand]
  | bin left op right => [.part "left" left, .label "op" op, .part "right" right]
  | cond condition chosen other =>
    [.part "condition" condition, .part "then_arm" chosen, .part "else_arm" other]
  | call callee args => [.part "function" callee, .args args]
  | foreign _ => []

/-- What holds of an expression if it holds of those in its fields holds of every proper one. -/
theorem IsProper.by_fields {holds : Expr → Prop}
    (step : ∀ {expr}, IsProper expr → (∀ field ∈ expr.fields, field.All holds) → holds expr)
    {expr : Expr} (proper : IsProper expr) : holds expr := by
  -- One case for each form; the fields hold all the expressions that the form has in it.
  induction proper with
  | name label => exact step (.name label) (by simp [fields, Field.All])
  | number proper => exact step (.number proper) (by simp [fields, Field.All, proper])
  | assign target proper ih => exact step (.assign target proper) (by simp [fields, Field.All, ih])
  | pre op proper ih => exact step (.pre op proper) (by simp [fields, Field.All, ih])
  | post op proper ih => exact step (.post op proper) (by simp [fields, Field.All, ih])
  | bin first op second one other =>
    exact step (.bin first op second) (by simp [fields, Field.All, one, other])
  | cond first second third one other another =>
    exact step (.cond first second third) (by simp [fields, Field.All, one, other, another])
  | call proper inside ih others =>
    exact step (.call proper inside) (by simpa [fields, Field.All, ih] using others)

/-- The expressions in the fields of a proper one are proper. -/
theorem IsProper.fields_proper {expr : Expr} (proper : IsProper expr) :
    ∀ field ∈ expr.fields, field.All IsProper := by
  cases proper <;> simp_all [fields, Field.All]

/-- The form of an expression has a name. -/
theorem IsProper.form_title {expr : Expr} (proper : IsProper expr) : IsTitle expr.form := by
  cases proper <;> simp [form, IsTitle]

/-- The fields of an expression have names. -/
theorem IsProper.fields_titled {expr : Expr} (proper : IsProper expr) :
    ∀ field ∈ expr.fields, IsTitle field.title := by
  cases proper <;> simp [fields, Field.title, IsTitle]

/-- The outline of a proper expression: its form, and its fields below it. -/
theorem IsProper.outline_eq {expr : Expr} (proper : IsProper expr) (depth : Int) :
    outline depth expr =
      .ok (indent depth ++ expr.form) :: expr.fields.flatMap (Field.lines depth) := by
  -- A part is shown below its name, never on the line of it, as no proper expression is a plain
  -- value.
  have below {value : Expr} (proper : IsProper value) (field : String) (lines : List Line) :
      fieldLines depth field value lines = fieldHeading depth field :: lines := by
    cases proper <;> rfl
  cases proper with
  | name | number => simp [outline, fields, form, Field.lines]
  | assign _ inner | pre _ inner | post _ inner =>
    simp [outline, fields, form, Field.lines, below inner]
  | bin first _ second => simp [outline, fields, form, Field.lines, below first, below second]
  | cond first second third =>
    simp [outline, fields, form, Field.lines, below first, below second, below third]
  | call inner => simp [outline, fields, form, Field.lines, below inner]

/-- Proper expressions of one form have the same fields. -/
theorem IsProper.fields_like {one other : Expr} (first : IsProper one) (second : IsProper other)
    (same : one.form = other.form) : List.Forall₂ Field.Like one.fields other.fields := by
  -- Two different forms have different names, so only the pairs of equal forms are left.
  cases first <;> cases second <;> simp [form] at same <;> simp [fields, Field.Like]

/-- An expression is given by its form and its fields. -/
theorem IsProper.eq_of_fields {one other : Expr} (first : IsProper one) (second : IsProper other)
    (same : one.form = other.form) (parts : one.fields = other.fields) : one = other := by
  cases first <;> cases second <;> simp [form] at same <;> simp_all [fields]

/-- Lines that could all be written. -/
def Complete (lines : List Line) : Prop :=
  ∀ line ∈ lines, ∃ text, line = .ok text

/-- Lines that start less deep than a limit, or with a line that has no text, or not at all. -/
def Above (limit : Nat) (lines : List Line) : Prop :=
  ∀ text, lines.head? = some (.ok text) → leadingBlanks text < limit

/-- No lines at all start at no depth. -/
theorem above_nil (limit : Nat) : Above limit [] := by
  simp [Above]

/-- Lines that start less deep than a limit start less deep than a greater one. -/
theorem Above.mono {less more : Nat} {lines : List Line} (above : Above less lines)
    (le : less ≤ more) : Above more lines :=
  fun text first => Nat.lt_of_lt_of_le (above text first) le

/-- A line starts with the blanks of its depth. -/
theorem leadingBlanks_indent (depth : Int) (text : String) :
    leadingBlanks (indent depth ++ text) = 2 * depth.toNat + leadingBlanks text := by
  unfold leadingBlanks indent
  rw [String.toList_append, String.toList_ofList, List.takeWhile_append_of_pos (by simp),
    List.length_append, List.length_replicate]

/-- A name starts without blanks, whatever follows it. -/
theorem leadingBlanks_title {title : String} (plain : IsTitle title) (text : String) :
    leadingBlanks (title ++ (":" ++ text)) = 0 ∧ leadingBlanks title = 0 := by
  unfold leadingBlanks
  rw [String.toList_append]
  -- A name without letters leaves the colon, which is no blank either.
  cases letters : title.toList with
  | nil => simp
  | cons c rest =>
    have solid : c ≠ ' ' := (plain c (letters ▸ List.mem_cons_self)).1
    simp [solid]

/-- The first line of an expression starts at its depth. -/
theorem leadingBlanks_form {expr : Expr} (proper : IsProper expr) (depth : Int) :
    leadingBlanks (indent depth ++ expr.form) = 2 * depth.toNat := by
  rw [leadingBlanks_indent, (leadingBlanks_title proper.form_title "").2, Nat.add_zero]

/-- The first line of an expression is not above its depth. -/
theorem not_above_outline {expr : Expr} (proper : IsProper expr) (depth : Int) (rest : List Line) :
    ¬ Above (2 * depth.toNat) (outline depth expr ++ rest) := by
  intro above
  -- Its first line is at its depth exactly.
  rw [proper.outline_eq] at above
  exact Nat.lt_irrefl _ (leadingBlanks_form proper depth ▸ above _ rfl)

/-- An expression starts no deeper than its depth. -/
theorem above_outlineAll {depth : Int} {exprs : List Expr} (proper : ∀ expr ∈ exprs, IsProper expr)
    {rest : List Line} (above : Above (2 * depth.toNat) rest) :
    Above (2 * depth.toNat + 1) (outlineAll depth exprs ++ rest) := by
  -- What comes first is the first argument, or what follows them all.
  cases exprs with
  | nil => exact above.mono (Nat.le_succ _)
  | cons expr exprs =>
    intro text first
    have head := proper expr List.mem_cons_self
    rw [outlineAll, head.outline_eq] at first
    obtain rfl : indent depth ++ expr.form = text := by simpa using first
    rw [leadingBlanks_form head]
    exact Nat.lt_succ_self _

/--
An expression is told apart from every other one by its outline: whatever follows one outline and
the other, unless it is deeper, the same lines come from the same expression.
-/
def Told (one : Expr) : Prop :=
  ∀ {other depth front back}, IsProper other → 0 ≤ depth → Complete (outline depth one) →
    Above (2 * depth.toNat + 1) front → Above (2 * depth.toNat + 1) back →
    outline depth one ++ front = outline depth other ++ back → one = other ∧ front = back

/-- Lines that are all written are written in their parts. -/
theorem complete_append {one other : List Line} :
    Complete (one ++ other) ↔ Complete one ∧ Complete other :=
  List.forall_mem_append

/-- The line of a field starts two blanks deeper than what the field belongs to. -/
theorem leadingBlanks_field (depth : Int) {title : String} (plain : IsTitle title) (text : String) :
    leadingBlanks (indent depth ++ "  " ++ title ++ (":" ++ text)) = 2 * depth.toNat + 2 := by
  -- The two blanks are part of the line, besides those of the depth.
  have two : leadingBlanks ("  " ++ (title ++ (":" ++ text))) =
      2 + leadingBlanks (title ++ (":" ++ text)) := by
    simp [leadingBlanks]
    omega
  rw [String.append_assoc, String.append_assoc, leadingBlanks_indent, two,
    (leadingBlanks_title plain text).1]

/-- The line of a field with the text of its value. -/
theorem fieldLine_ok (depth : Int) (title text : String) :
    fieldLine depth title (.ok text) =
      .ok (indent depth ++ "  " ++ title ++ (":" ++ (" " ++ text))) := by
  rw [fieldLine, Except.map, show ": " = ":" ++ " " from rfl]
  simp only [String.append_assoc]

/-- The heading of a field. -/
theorem fieldHeading_eq (depth : Int) (title : String) :
    fieldHeading depth title = .ok (indent depth ++ "  " ++ title ++ (":" ++ "")) := by
  simp [fieldHeading]

/-- The line of a field tells the text of its value. -/
theorem fieldLine_injective {depth : Int} {title one other : String}
    (same : fieldLine depth title (.ok one) = fieldLine depth title (.ok other)) : one = other := by
  rw [fieldLine_ok, fieldLine_ok] at same
  -- The depth, the name and the colon are the same on both lines, and are taken off the front.
  have text := (String.append_right_inj _).1 (Except.ok.inj same)
  exact (String.append_right_inj _).1 ((String.append_right_inj _).1 text)

/-- A line of a field that is written tells the value, also where that may have no text. -/
theorem fieldLine_cancel {depth : Int} {title : String} {one other : Except Error String}
    (written : ∃ text, fieldLine depth title one = .ok text)
    (same : fieldLine depth title one = fieldLine depth title other) :
    ∃ text, one = .ok text ∧ other = .ok text := by
  -- A line with no text on the one side would be a line that was not written.
  cases one with
  | error failure =>
    obtain ⟨text, written⟩ := written
    simp [fieldLine, Except.map] at written
  | ok text =>
    cases other with
    | error failure => simp [fieldLine, Except.map] at same
    | ok text' => exact ⟨text, rfl, by rw [fieldLine_injective same]⟩

/-- A field with a value on its line is not taken for one with lines below it. -/
theorem fieldLine_ne_fieldHeading (depth : Int) (title text : String) :
    fieldLine depth title (.ok text) ≠ fieldHeading depth title := by
  intro same
  rw [fieldLine_ok, fieldHeading_eq] at same
  -- Behind the colon the one line goes on and the other ends.
  have behind := (String.append_right_inj _).1 (Except.ok.inj same)
  have empty := congrArg String.toList ((String.append_right_inj _).1 behind)
  simp at empty

/-- The first line of a field has its name, or could not be written. -/
theorem Field.head_lines (depth : Int) {field : Field} {holds : Expr → Prop}
    (all : field.All holds) {rest : List Line} {text : String}
    (first : (field.lines depth ++ rest).head? = some (.ok text)) :
    ∃ shown, indent depth ++ "  " ++ field.title ++ (":" ++ shown) = text := by
  -- One case for each kind of field; only a number may be without a text.
  cases field with
  | label title label =>
    obtain ⟨label, rfl⟩ := Option.isSome_iff_exists.1 all
    rw [lines, labelField, Option.toList_some, List.map_singleton, fieldLine_ok] at first
    exact ⟨_, Except.ok.inj (Option.some.inj first)⟩
  | number value =>
    rw [lines] at first
    cases written : value.outlineText with
    | error failure => simp [written, fieldLine, Except.map] at first
    | ok shown =>
      rw [written, fieldLine_ok] at first
      exact ⟨_, Except.ok.inj (Option.some.inj first)⟩
  | part title value =>
    rw [lines, fieldHeading_eq] at first
    exact ⟨_, Except.ok.inj (Option.some.inj first)⟩
  | args values =>
    rw [lines, fieldLine_ok, fieldHeading_eq] at first
    split at first <;> exact ⟨_, Except.ok.inj (Option.some.inj first)⟩

/-- A field starts two blanks deeper than what it belongs to. -/
theorem Field.above_lines (depth : Int) {field : Field} {holds : Expr → Prop}
    (titled : IsTitle field.title) (all : field.All holds) (rest : List Line) :
    Above (2 * depth.toNat + 3) (field.lines depth ++ rest) := by
  intro text first
  -- Whatever its value, the first line starts with the name of the field.
  obtain ⟨shown, rfl⟩ := Field.head_lines depth all first
  rw [leadingBlanks_field depth titled]
  exact Nat.lt_succ_self _

section

variable {depth : Int} (deep : 0 ≤ depth)

include deep

/-- Arguments that are told apart from other expressions are told apart from other arguments. -/
theorem outlineAll_cancel {ones others : List Expr} {front back : List Line}
    (first : ∀ one ∈ ones, IsProper one ∧ Told one) (second : ∀ other ∈ others, IsProper other)
    (complete : Complete (outlineAll depth ones)) (ends : Above (2 * depth.toNat) front)
    (ends' : Above (2 * depth.toNat) back)
    (same : outlineAll depth ones ++ front = outlineAll depth others ++ back) :
    ones = others ∧ front = back := by
  induction ones generalizing others with
  | nil =>
    cases others with
    | nil => exact ⟨rfl, same⟩
    | cons other others =>
      -- What follows the arguments is above the first line of another one.
      rw [outlineAll, List.nil_append, outlineAll, List.append_assoc] at same
      exact absurd (same ▸ ends) (not_above_outline (second _ List.mem_cons_self) depth _)
  | cons one ones ih =>
    obtain ⟨⟨proper, told⟩, behind⟩ := List.forall_mem_cons.1 first
    rw [outlineAll, List.append_assoc] at same
    cases others with
    | nil =>
      rw [outlineAll, List.nil_append] at same
      exact absurd (same.symm ▸ ends') (not_above_outline proper depth _)
    | cons other others =>
      obtain ⟨proper', behind'⟩ := List.forall_mem_cons.1 second
      rw [outlineAll] at complete
      obtain ⟨here, there⟩ := complete_append.1 complete
      rw [outlineAll, List.append_assoc] at same
      obtain ⟨rfl, below⟩ := told proper' deep here
        (above_outlineAll (fun expr member => (behind expr member).1) ends)
        (above_outlineAll behind' ends') same
      obtain ⟨rfl, ends⟩ := ih behind behind' there below
      exact ⟨rfl, ends⟩

namespace Field

/-- A field is told apart from the same field with another value. -/
theorem cancel {one other : Field} {front back : List Line} (like : one.Like other)
    (first : one.All fun expr => IsProper expr ∧ Told expr) (second : other.All IsProper)
    (complete : Complete (one.lines depth)) (ends : Above (2 * depth.toNat + 3) front)
    (ends' : Above (2 * depth.toNat + 3) back)
    (same : one.lines depth ++ front = other.lines depth ++ back) : one = other ∧ front = back := by
  -- Both are the same field, so its kind decides on which lines the value stands.
  cases one with
  | label title text =>
    cases other with
    | label title' text' =>
      obtain rfl : title = title' := like
      obtain ⟨text, rfl⟩ := Option.isSome_iff_exists.1 first
      obtain ⟨text', rfl⟩ := Option.isSome_iff_exists.1 second
      obtain ⟨line, below⟩ := List.cons.inj same
      -- A label stands quoted on the line.
      rw [quoted_injective (fieldLine_injective line)]
      exact ⟨rfl, below⟩
    | _ => exact like.elim
  | number value =>
    cases other with
    | number value' =>
      obtain ⟨line, below⟩ := List.cons.inj same
      -- What could be written of one number can only be the text of the other.
      obtain ⟨text, shown, shown'⟩ := fieldLine_cancel (complete _ (List.mem_singleton.2 rfl)) line
      rw [Number.outlineText_injective first second shown shown']
      exact ⟨rfl, below⟩
    | _ => exact like.elim
  | part title value =>
    cases other with
    | part title' value' =>
      obtain rfl : title = title' := like
      obtain ⟨-, same⟩ := List.cons.inj same
      -- The heading is the same on both sides, and the part below it is told apart by assumption.
      obtain ⟨rfl, below⟩ := first.2 second (by omega)
        (fun line member => complete line (List.mem_cons_of_mem _ member))
        (ends.mono (by omega)) (ends'.mono (by omega)) same
      exact ⟨rfl, below⟩
    | _ => exact like.elim
  | args values =>
    cases other with
    | args values' =>
      -- No arguments are shown on the line itself, and some below it: the two are never taken for
      -- each other.
      simp only [lines] at same complete
      split at same
      · rename_i none
        split at same
        · rename_i none'
          rw [List.isEmpty_iff.1 none, List.isEmpty_iff.1 none']
          exact ⟨rfl, (List.cons.inj same).2⟩
        · exact absurd (List.cons.inj same).1 (fieldLine_ne_fieldHeading _ _ _)
      · rename_i some
        split at same
        · exact absurd (List.cons.inj same).1.symm (fieldLine_ne_fieldHeading _ _ _)
        · obtain ⟨-, same⟩ := List.cons.inj same
          rw [if_neg some] at complete
          obtain ⟨rfl, below⟩ := outlineAll_cancel (by omega) first second
            (fun line member => complete line (List.mem_cons_of_mem _ member))
            (ends.mono (by omega)) (ends'.mono (by omega)) same
          exact ⟨rfl, below⟩
    | _ => exact like.elim

/-- Fields are told apart from the same fields with other values. -/
theorem cancel_all {ones others : List Field} {front back : List Line}
    (like : List.Forall₂ Like ones others)
    (first : ∀ one ∈ ones, one.All fun expr => IsProper expr ∧ Told expr)
    (second : ∀ other ∈ others, other.All IsProper) (titled : ∀ one ∈ ones, IsTitle one.title)
    (titled' : ∀ other ∈ others, IsTitle other.title)
    (complete : Complete (ones.flatMap (lines depth))) (ends : Above (2 * depth.toNat + 1) front)
    (ends' : Above (2 * depth.toNat + 1) back)
    (same : ones.flatMap (lines depth) ++ front = others.flatMap (lines depth) ++ back) :
    ones = others ∧ front = back := by
  -- What stands below a field is another field, or what stands below the expression.
  have below {holds : Expr → Prop} {fields : List Field} {rest : List Line}
      (all : ∀ field ∈ fields, field.All holds) (titled : ∀ field ∈ fields, IsTitle field.title)
      (ends : Above (2 * depth.toNat + 1) rest) :
      Above (2 * depth.toNat + 3) (fields.flatMap (lines depth) ++ rest) := by
    cases fields with
    | nil => exact ends.mono (by omega)
    | cons field fields =>
      rw [List.flatMap_cons, List.append_assoc]
      exact above_lines depth (titled _ List.mem_cons_self) (all _ List.mem_cons_self) _
  -- Field by field: what has been told apart is taken off, and the same lines are left below it.
  induction like with
  | nil => exact ⟨rfl, same⟩
  | cons like _ ih =>
    obtain ⟨here, there⟩ := List.forall_mem_cons.1 first
    obtain ⟨here', there'⟩ := List.forall_mem_cons.1 second
    have inside := (List.forall_mem_cons.1 titled).2
    have inside' := (List.forall_mem_cons.1 titled').2
    rw [List.flatMap_cons] at complete
    obtain ⟨written, rest⟩ := complete_append.1 complete
    rw [List.flatMap_cons, List.flatMap_cons, List.append_assoc, List.append_assoc] at same
    obtain ⟨rfl, behind⟩ := cancel deep like here here' written (below there inside ends)
      (below there' inside' ends') same
    obtain ⟨rfl, last⟩ := ih there there' inside inside' rest behind
    exact ⟨rfl, last⟩

end Field

end

/-- Every proper expression is told apart from the other ones by its outline. -/
theorem IsProper.told {expr : Expr} (proper : IsProper expr) : Told expr := by
  -- By induction on the expression, where what is in the fields is told apart already.
  refine (@IsProper.by_fields (fun expr => IsProper expr ∧ Told expr) ?_ expr proper).2
  intro one first told
  refine ⟨first, fun {other depth front back} second deep complete ends ends' same => ?_⟩
  rw [first.outline_eq] at complete same
  rw [second.outline_eq] at same
  obtain ⟨line, same⟩ := List.cons.inj same
  -- The first line tells the form, the form tells which fields follow.
  have form := (String.append_right_inj _).1 (Except.ok.inj line)
  obtain ⟨parts, below⟩ := Field.cancel_all deep (first.fields_like second form) told
    second.fields_proper first.fields_titled second.fields_titled
    (fun line member => complete line (List.mem_cons_of_mem _ member)) ends ends' same
  exact ⟨first.eq_of_fields second form parts, below⟩

/-- The outlines of expressions stand one below the other. -/
theorem outlineAll_eq (depth : Int) (exprs : List Expr) :
    outlineAll depth exprs = exprs.flatMap (outline depth) := by
  induction exprs with
  | nil => rfl
  | cons expr exprs ih => rw [outlineAll, ih, List.flatMap_cons]

/-- A line without a line break in it. -/
def OnOneLine (line : Line) : Prop :=
  ∀ text, line = .ok text → '\n' ∉ text.toList

/-- Blanks before a text bring no line break into it. -/
theorem onOneLine_indent (depth : Int) {text : String} (free : '\n' ∉ text.toList) :
    OnOneLine (.ok (indent depth ++ text)) := by
  rintro _ ⟨⟩
  simp [indent, free]

/-- A field without line breaks in its title and its value has none in its line. -/
theorem onOneLine_field (depth : Int) {title text : String} (plain : '\n' ∉ title.toList)
    (free : '\n' ∉ text.toList) :
    OnOneLine (.ok (indent depth ++ "  " ++ title ++ (":" ++ text))) := by
  rintro _ ⟨⟩
  simp [indent, plain, free]

/-- The lines of a field have no line breaks in them. -/
theorem Field.onOneLine (depth : Int) {field : Field} (titled : IsTitle field.title)
    (all : field.All fun expr => ∀ depth, ∀ line ∈ outline depth expr, OnOneLine line) :
    ∀ line ∈ field.lines depth, OnOneLine line := by
  have plain : '\n' ∉ field.title.toList := fun member => (titled _ member).2 rfl
  -- Titles have no line breaks; labels are quoted, and numbers are digits, marks and letters.
  cases field with
  | label title label =>
    obtain ⟨label, rfl⟩ := Option.isSome_iff_exists.1 all
    rw [lines, labelField, Option.toList_some, List.map_singleton, fieldLine_ok]
    refine List.forall_mem_singleton.2 (onOneLine_field depth plain ?_)
    simp [newline_not_mem_quoted]
  | number value =>
    rw [lines]
    refine List.forall_mem_singleton.2 ?_
    cases written : value.outlineText with
    | error failure => exact fun text line => nomatch line
    | ok shown =>
      rw [fieldLine_ok]
      refine onOneLine_field depth plain ?_
      simp [Number.newline_not_mem_outlineText all written]
  | part title value =>
    rw [lines, fieldHeading_eq]
    exact List.forall_mem_cons.2 ⟨onOneLine_field depth plain (by simp), all _⟩
  | args values =>
    have each : ∀ line ∈ outlineAll (depth + 2) values, OnOneLine line := by
      rw [outlineAll_eq]
      intro line member
      obtain ⟨value, given, member⟩ := List.mem_flatMap.1 member
      exact all value given _ line member
    rw [lines, fieldLine_ok, fieldHeading_eq]
    split
    · exact List.forall_mem_singleton.2 (onOneLine_field depth plain (by simp))
    · exact List.forall_mem_cons.2 ⟨onOneLine_field depth plain (by simp), each⟩

/-- The lines of an outline have no line breaks in them. -/
theorem IsProper.onOneLine {expr : Expr} (proper : IsProper expr) :
    ∀ depth, ∀ line ∈ outline depth expr, OnOneLine line := by
  refine @IsProper.by_fields (fun expr => ∀ depth, ∀ line ∈ outline depth expr, OnOneLine line) ?_
    expr proper
  intro expr proper inside depth
  rw [proper.outline_eq]
  -- The first line is the form, and all others are lines of fields.
  refine List.forall_mem_cons.2 ⟨onOneLine_indent depth fun member =>
    (proper.form_title _ member).2 rfl, fun line member => ?_⟩
  obtain ⟨field, given, member⟩ := List.mem_flatMap.1 member
  exact Field.onOneLine depth (proper.fields_titled field given) (inside field given) line member

/-- The lines that are written are the first ones, up to one that could not be written. -/
theorem written_spec (lines : List Line) :
    ∃ rest, lines = (written lines).1.map .ok ++ rest ∧ (∀ limit, Above limit rest) ∧
      ((written lines).2 = none → rest = []) := by
  induction lines with
  | nil => exact ⟨[], rfl, above_nil, fun _ => rfl⟩
  | cons line lines ih =>
    cases line with
    | error failure =>
      -- The line that fails ends what is printed, and is above everything, having no text.
      exact ⟨.error failure :: lines, rfl, by simp [Above], fun finished => nomatch finished⟩
    | ok text =>
      obtain ⟨rest, parts, above, finished⟩ := ih
      exact ⟨rest, congrArg (.ok text :: ·) parts, above, finished⟩

end Expr

/-- Lines without line breaks are told by their characters, with a line break after each line. -/
theorem lines_cancel {ones others : List String} (first : ∀ one ∈ ones, '\n' ∉ one.toList)
    (second : ∀ other ∈ others, '\n' ∉ other.toList)
    (same : ones.flatMap (fun line => line.toList ++ ['\n']) =
      others.flatMap fun line => line.toList ++ ['\n']) : ones = others := by
  -- The first line ends with the first line break, and so on.
  have cut {line : String} (free : '\n' ∉ line.toList) (rest : List Char) :
      (line.toList ++ '\n' :: rest).takeWhile (· != '\n') = line.toList :=
    takeWhile_append_stop (fun c member => bne_iff_ne.2 fun same => free (same ▸ member)) (by simp)
  induction ones generalizing others with
  | nil =>
    cases others with
    | nil => rfl
    | cons other others => simp at same
  | cons one ones ih =>
    cases others with
    | nil => simp at same
    | cons other others =>
      obtain ⟨free, behind⟩ := List.forall_mem_cons.1 first
      obtain ⟨free', behind'⟩ := List.forall_mem_cons.1 second
      rw [List.flatMap_cons, List.flatMap_cons, List.append_assoc, List.append_assoc,
        List.singleton_append, List.singleton_append] at same
      have line := congrArg (List.takeWhile (· != '\n')) same
      rw [cut free, cut free'] at line
      rw [line] at same
      rw [String.toList_inj.1 line,
        ih behind behind' (List.cons.inj (List.append_cancel_left same)).2]

/-- Lines without line breaks are told by their text, in which each of them is ended. -/
theorem joinLines_injective {ones others : List String} (first : ∀ one ∈ ones, '\n' ∉ one.toList)
    (second : ∀ other ∈ others, '\n' ∉ other.toList) (same : joinLines ones = joinLines others) :
    ones = others := by
  -- Joined lines are the characters of each line and a line break after it.
  have chars (lines : List String) :
      (joinLines lines).toList = lines.flatMap fun line => line.toList ++ ['\n'] := by
    induction lines with
    | nil => rfl
    | cons line lines ih =>
      rw [List.flatMap_cons, ← ih]
      simp [joinLines]
  have letters := congrArg String.toList same
  rw [chars, chars] at letters
  exact lines_cancel first second letters

namespace Expr

/--
Outlines tell proper expressions apart: if all lines of one outline could be written, and what is
printed of another one is the same text, the expressions are equal, with the labels, the numbers and
the types of the numbers in them.
-/
theorem outlines_tell_apart (depth : Nat) {one other : Expr} (first : IsProper one)
    (second : IsProper other) (finished : (written (outline depth one)).2 = none)
    (same : joinLines (written (outline depth one)).1 =
      joinLines (written (outline depth other)).1) :
    one = other := by
  -- The first outline is written to its end, the second one perhaps not: what is left of it has no
  -- text in front, so it cannot be deeper.
  obtain ⟨rest, parts, -, ended⟩ := written_spec (outline depth one)
  obtain ⟨rest', parts', above, -⟩ := written_spec (outline depth other)
  obtain rfl := ended finished
  rw [List.append_nil] at parts
  have free {expr : Expr} (proper : IsProper expr) :
      ∀ text ∈ (written (outline depth expr)).1, '\n' ∉ text.toList := by
    intro text member
    obtain ⟨rest, parts, -⟩ := written_spec (outline depth expr)
    refine proper.onOneLine depth (.ok text) ?_ text rfl
    rw [parts]
    exact List.mem_append_left _ (List.mem_map_of_mem member)
  have lines := joinLines_injective (free first) (free second) same
  have complete : Complete (outline depth one) := by
    rw [parts]
    intro line member
    obtain ⟨text, -, rfl⟩ := List.mem_map.1 member
    exact ⟨text, rfl⟩
  -- The same lines follow in both, which is what telling apart is about.
  have together : outline depth one ++ rest' = outline depth other ++ [] := by
    rw [List.append_nil, parts', ← lines, ← parts]
  exact (first.told second (Int.natCast_nonneg depth) complete (above _)
    (above_nil _) together).1

/-- A call with two arguments is the only expression with its outline. -/
theorem call_is_told_apart :
    IsProper (call (name (some "f")) ([number (.int 1)] ++ [name (some "a")])) ∧
    (written (outline (0 : Nat) (call (name (some "f")) [number (.int 1), name (some "a")]))).1 =
      ["CallExpr", "  function:", "    NameExpr", "      name: 'f'", "  args:", "    NumberExpr",
        "      value: 1", "    NameExpr", "      name: 'a'"] ∧
    (written (outline (0 : Nat)
      (call (name (some "f")) [number (.int 1), name (some "a")]))).2 = none ∧
    call (name (some "f")) [number (.int 1), name (some "a")] =
      call (name (some "f")) ([number (.int 1)] ++ [name (some "a")]) := by
  have one : IsProper (number (.int 1)) := .number trivial
  have proper : IsProper (call (name (some "f")) [number (.int 1), name (some "a")]) :=
    .call (.name "f") (by simp [one, IsProper.name])
  have finished : (written (outline (0 : Nat)
      (call (name (some "f")) [number (.int 1), name (some "a")]))).2 = none :=
    Option.isNone_iff_eq_none.1 (by decide +kernel)
  exact ⟨proper, by decide +kernel, finished, outlines_tell_apart 0 proper proper finished rfl⟩

end Expr

end Climb
