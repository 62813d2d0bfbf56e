import Climb.Proofs.Expr.Evaluation
import Climb.Proofs.Expr.NormalForm
import Climb.Proofs.Expr.RoundTrip
import Climb.Proofs.Number.Writing

/-! What the text of a folded expression means. -/

namespace Climb

namespace Eval

variable {α β : Type} {failures : Error → Prop}

/-- An evaluation does what another one does, unless that one fails in one of some ways. -/
def AgreesUnless (failures : Error → Prop) (one other : Eval α) : Prop :=
  ∀ env, other env = one env ∨ ∃ failure, failures failure ∧ (one env).1 = .error failure

/-- An evaluation agrees with itself. -/
theorem AgreesUnless.refl (action : Eval α) : AgreesUnless failures action action :=
  fun _ => .inl rfl

/-- Evaluations that agree in parts agree. -/
theorem AgreesUnless.bind {one other : Eval α} {next follow : α → Eval β}
    (start : AgreesUnless failures one other)
    (rest : ∀ value, AgreesUnless failures (next value) (follow value)) :
    AgreesUnless failures (one >>= next) (other >>= follow) := by
  intro env
  rw [bind_apply, bind_apply]
  rcases start env with same | ⟨failure, known, failed⟩
  · -- The first parts agree, so the second ones start from the same names.
    rw [same]
    rcases one env with ⟨_ | value, after⟩
    · exact .inl rfl
    · exact rest value after
  · refine .inr ⟨failure, known, ?_⟩
    rcases run : one env with ⟨outcome, after⟩
    rw [run] at failed
    -- A first part that fails is all that is done.
    obtain rfl : outcome = .error failure := failed
    rfl

/-- What fails at its start fails as a whole. -/
theorem bind_fails {first : Eval α} {next : α → Eval β} {failure : Error} {env : Env}
    (failed : first env = (.error failure, env)) :
    (first >>= next) env = (.error failure, env) := by
  rw [bind_apply, failed]

end Eval

namespace Expr

open Climb.Eval

variable {numbers better : Number → Prop} {expr folded : Expr}

section

variable (any : ∀ value, numbers value)

include any

/-- Folding a node leaves it in the words of the language. -/
theorem Worded.fold (worded : Worded numbers expr) (done : expr.fold = .ok folded) :
    Worded numbers folded := by
  rcases fold_cases done with rfl | ⟨value, rfl⟩
  · exact worded
  · exact .number (any value)

omit any in
/-- Folding every node of expressions leaves them in the words of the language, if it does each. -/
theorem worded_foldEach {args newArgs : List Expr}
    (each : ∀ arg ∈ args, ∀ {folded}, arg.foldAll = .ok folded → Worded numbers folded)
    (done : foldEach args = .ok newArgs) : ∀ arg ∈ newArgs, Worded numbers arg := by
  -- They are folded in order, and the first one that fails would fail the whole.
  induction args generalizing newArgs with
  | nil =>
    cases done
    simp
  | cons first rest ih =>
    obtain ⟨one, others⟩ := List.forall_mem_cons.1 each
    obtain ⟨newFirst, inner, done⟩ := bind_ok done
    obtain ⟨newRest, more, done⟩ := bind_ok done
    cases done
    exact List.forall_mem_cons.2 ⟨one inner, ih others more⟩

/-- Folding every node leaves an expression in the words of the language. -/
theorem Worded.foldAll (worded : Worded numbers expr) :
    ∀ {folded}, expr.foldAll = .ok folded → Worded numbers folded := by
  -- The parts are folded first, and the node over them keeps its names and operators.
  induction worded with
  | name named => exact fun done => (Worded.name named).fold any done
  | number known => exact fun done => (Worded.number known).fold any done
  | assign named inner ih =>
    intro folded done
    obtain ⟨newValue, value, last⟩ := bind_ok done
    exact (Worded.assign named (ih value)).fold any last
  | pre known inner ih =>
    intro folded done
    obtain ⟨newOperand, operand, last⟩ := bind_ok done
    exact (Worded.pre known (ih operand)).fold any last
  | post inner ih =>
    intro folded done
    obtain ⟨newOperand, operand, last⟩ := bind_ok done
    exact (Worded.post (ih operand)).fold any last
  | bin one known other ihOne ihOther =>
    intro folded done
    obtain ⟨newLeft, left, done⟩ := bind_ok done
    obtain ⟨newRight, right, last⟩ := bind_ok done
    exact (Worded.bin (ihOne left) known (ihOther right)).fold any last
  | cond inner one two ih ihOne ihTwo =>
    intro folded done
    obtain ⟨newCondition, condition, done⟩ := bind_ok done
    obtain ⟨newChosen, chosen, done⟩ := bind_ok done
    obtain ⟨newOther, other, last⟩ := bind_ok done
    exact (Worded.cond (ih condition) (ihOne chosen) (ihTwo other)).fold any last
  | call inner all ih ihAll =>
    intro folded done
    obtain ⟨newCallee, callee, done⟩ := bind_ok done
    obtain ⟨newArgs, args, last⟩ := bind_ok done
    exact (Worded.call (ih callee) (worded_foldEach ihAll args)).fold any last

end

/-- An expression is worded with what is known of the numbers that stand in it. -/
theorem Worded.restrict (worded : Worded numbers expr)
    (inside : ∀ value, numbers value → .number value ∈ expr.subexpressions → better value) :
    Worded better expr := by
  -- What stands in a part stands in the whole, so each part is told the same of its numbers.
  induction worded with
  | name named => exact .name named
  | number known => exact .number (inside _ known (by simp [subexpressions]))
  | assign named inner ih =>
    exact .assign named (ih fun value known member =>
      inside value known (by simp [subexpressions, member]))
  | pre op inner ih =>
    exact .pre op (ih fun value known member =>
      inside value known (by simp [subexpressions, member]))
  | post inner ih =>
    exact .post (ih fun value known member =>
      inside value known (by simp [subexpressions, member]))
  | bin one op other ihOne ihOther =>
    exact .bin
      (ihOne fun value known member => inside value known (by simp [subexpressions, member])) op
      (ihOther fun value known member => inside value known (by simp [subexpressions, member]))
  | cond inner one two ih ihOne ihTwo =>
    exact .cond
      (ih fun value known member => inside value known (by simp [subexpressions, member]))
      (ihOne fun value known member => inside value known (by simp [subexpressions, member]))
      (ihTwo fun value known member => inside value known (by simp [subexpressions, member]))
  | call inner all ih ihAll =>
    refine .call
      (ih fun value known member => inside value known (by simp [subexpressions, member]))
      fun arg among => ihAll arg among fun value known member => inside value known ?_
    have within := mem_subexpressionsOf.2 ⟨arg, among, member⟩
    simp [subexpressions, within]

/-- Expressions that are written are written one by one. -/
theorem formatted_of_formatAll {args : List Expr} {labels : List Label}
    (written : formatAll args = .ok labels) : ∀ arg ∈ args, ∃ label, arg.format = .ok label := by
  induction args generalizing labels with
  | nil => simp
  | cons first rest ih =>
    obtain ⟨label, one, written⟩ := bind_ok written
    obtain ⟨others, more, -⟩ := bind_ok written
    exact List.forall_mem_cons.2 ⟨⟨label, one⟩, ih more⟩

/-- In an expression that is written every number is. -/
theorem Worded.written (worded : Worded numbers expr) : ∀ {label}, expr.format = .ok label →
    Worded (fun value => numbers value ∧ ∃ text, value.format = .ok text) expr := by
  -- The text of a node is made of the texts of its parts, so all of these are there.
  induction worded with
  | name named => exact fun _ => .name named
  | @number value known =>
    intro label written
    cases outcome : value.format with
    | error failure => simp [format, outcome, Except.map] at written
    | ok text => exact .number ⟨known, text, outcome⟩
  | assign named inner ih =>
    intro label written
    obtain ⟨_, value, -⟩ := bind_ok written
    exact .assign named (ih value)
  | pre op inner ih =>
    intro label written
    obtain ⟨_, operand, -⟩ := bind_ok written
    exact .pre op (ih operand)
  | post inner ih =>
    intro label written
    obtain ⟨_, operand, -⟩ := bind_ok written
    exact .post (ih operand)
  | bin one op other ihOne ihOther =>
    intro label written
    obtain ⟨_, left, written⟩ := bind_ok written
    obtain ⟨_, right, -⟩ := bind_ok written
    exact .bin (ihOne left) op (ihOther right)
  | cond inner one two ih ihOne ihTwo =>
    intro label written
    obtain ⟨_, condition, written⟩ := bind_ok written
    obtain ⟨_, chosen, written⟩ := bind_ok written
    obtain ⟨_, other, -⟩ := bind_ok written
    exact .cond (ih condition) (ihOne chosen) (ihTwo other)
  | call inner all ih ihAll =>
    intro label written
    obtain ⟨_, args, written⟩ := bind_ok written
    obtain ⟨_, -, written⟩ := bind_ok written
    obtain ⟨_, callee, -⟩ := bind_ok written
    refine .call (ih callee) fun arg among => ?_
    obtain ⟨_, text⟩ := formatted_of_formatAll args arg among
    exact ihAll arg among text

/-- A whole number that is written has few enough digits for that. -/
theorem isWritable_of_format {whole : Int} {text : String}
    (written : (Number.int whole).format = .ok text) : isWritable whole = true := by
  simp only [Number.format, intText] at written
  split at written
  · rename_i short
    exact short
  · cases written

/-- What is called is a name exactly if what its text is read as is that name. -/
theorem calleeName_unsigned (callee : Expr) : callee.unsigned.calleeName = callee.calleeName := by
  cases callee with
  | number value => cases value <;> rfl
  | post op operand =>
    -- Whether the sign goes before the operator or not, this is no name.
    simp only [unsigned]
    cases operand.signed <;> rfl
  | _ => rfl

/-- What is written with a sign before it is no name. -/
theorem calleeName_of_signed {callee : Expr} (sign : callee.signed = true) :
    callee.calleeName = throw (.ofEval .unnamedCallee) := by
  cases callee with
  | name label => cases sign
  | _ => rfl

/-- A call of something that has no name fails before anything else. -/
theorem evaluate_call_unnamed {callee : Expr} (args : List Expr) (env : Env)
    (unnamed : callee.calleeName = throw (.ofEval .unnamedCallee)) :
    (Expr.call callee args).evaluate env = (.error (.ofEval .unnamedCallee), env) := by
  rw [evaluate, unnamed]
  rfl

/-- A negative number means what its magnitude does behind a sign. -/
theorem evaluate_respelled_int (whole : Int) :
    (respelled (.number (.int whole))).evaluate = (Expr.number (.int whole)).evaluate := by
  by_cases negative : whole < 0
  · -- The sign is an operator now, and undoes what it was written for.
    have again : -(whole.natAbs : Int) = whole := by omega
    have known : respelled (.number (.int whole)) =
        .pre (some "-") (.number (.int whole.natAbs)) := by
      simp [respelled, signed, unsigned, withSign, negative]
    have negated : (Number.int whole.natAbs).applyBefore (some "-") = .ok (.int whole) := by
      rw [Number.applyBefore, Number.neg, again]
    rw [known]
    funext env
    simp only [evaluate]
    rw [bind_apply]
    exact congrArg (·, env) negated
  · -- Without a sign the number is its own magnitude.
    have same : (whole.natAbs : Int) = whole := by omega
    have known : respelled (.number (.int whole)) = .number (.int whole) := by
      simp [respelled, signed, unsigned, withSign, negative, same]
    rw [known]

variable {failures : Error → Prop}

/-- Arguments mean what they are respelled as, unless one of them fails in one of some ways. -/
theorem evaluateAll_respelled {args : List Expr}
    (each : ∀ arg ∈ args, AgreesUnless failures arg.evaluate arg.respelled.evaluate) :
    AgreesUnless failures (evaluateAll args) (evaluateAll (respelledAll args)) := by
  induction args with
  | nil => exact .refl _
  | cons first rest ih =>
    obtain ⟨one, others⟩ := List.forall_mem_cons.1 each
    exact one.bind fun value => (ih others).bind fun more => .refl _

/-- A call means what it is respelled as, unless an argument fails in one of some ways. -/
theorem evaluate_respelled_call {callee : Expr} {args : List Expr}
    (each : ∀ arg ∈ args, AgreesUnless failures arg.evaluate arg.respelled.evaluate) :
    AgreesUnless failures (Expr.call callee args).evaluate
      (respelled (.call callee args)).evaluate := by
  have known : respelled (.call callee args) =
      withSign callee.signed (.call callee.unsigned (respelledAll args)) := rfl
  rw [known]
  cases sign : callee.signed with
  | true =>
    -- A number is no function, with a sign before it or without.
    intro env
    have unnamed := calleeName_of_signed sign
    have failed := evaluate_call_unnamed (respelledAll args) env
      ((calleeName_unsigned callee).trans unnamed)
    exact .inl ((bind_fails failed).trans (evaluate_call_unnamed args env unnamed).symm)
  | false =>
    -- The same function is looked up, and then the arguments are evaluated in order.
    simp only [withSign, evaluate, calleeName_unsigned]
    exact .bind (.refl _) fun label => .bind (.refl _) fun apply =>
      (evaluateAll_respelled each).bind fun values => .refl _

/-- A negative number has no factorial. -/
theorem applyAfter_negative {value : Int} (negative : value < 0) :
    (Number.int value).applyAfter (some "!") = .error (.ofEval (.negativeFactorial value)) := by
  show Number.factorialOf value = _
  rw [Number.factorialOf, if_pos negative]

/-- The factorial of a negative number fails, and no name is changed. -/
theorem evaluate_negative_factorial {value : Int} (negative : value < 0) (env : Env) :
    (Expr.post (some "!") (.number (.int value))).evaluate env =
      (.error (.ofEval (.negativeFactorial value)), env) :=
  congrArg (·, env) (applyAfter_negative negative)

/-- The operator behind an operand takes it from its sign, if the operand has one. -/
theorem evaluate_respelled_post {operand : Expr}
    (worded : Worded (fun value => ∃ whole, value = .int whole) operand)
    (blamed : ∀ value < 0, operand = .number (.int value) →
      failures (.ofEval (.negativeFactorial value)))
    (inner : AgreesUnless failures operand.evaluate operand.respelled.evaluate) :
    AgreesUnless failures (Expr.post (some "!") operand).evaluate
      (respelled (.post (some "!") operand)).evaluate := by
  have known : respelled (.post (some "!") operand) =
      withSign operand.signed (.post (some "!") operand.unsigned) := rfl
  rw [known]
  cases sign : operand.signed with
  | false =>
    -- The operand has no sign to lose, so the operator does the same with its value.
    rw [respelled, sign] at inner
    exact inner.bind fun value => .refl _
  | true =>
    -- Only numbers below zero have a sign, and what is called by one.
    cases worded with
    | number whole =>
      -- Of a negative number there is no factorial, while there may be one of its magnitude.
      obtain ⟨value, rfl⟩ := whole
      have negative : value < 0 := by simpa [signed] using sign
      exact fun env => .inr ⟨_, blamed value negative rfl,
        congrArg Prod.fst (evaluate_negative_factorial negative env)⟩
    | @call callee args inner all =>
      -- What is called has no name either way, so both fail before the operator is come to.
      intro env
      have unnamed : callee.calleeName = throw (.ofEval .unnamedCallee) :=
        calleeName_of_signed sign
      have one := evaluate_call_unnamed args env unnamed
      have other := evaluate_call_unnamed (respelledAll args) env
        ((calleeName_unsigned callee).trans unnamed)
      exact .inl ((bind_fails (bind_fails other)).trans (bind_fails one).symm)
    | _ => cases sign

/-- An expression with whole numbers means what it is respelled as, but for some factorials. -/
theorem evaluate_respelled (worded : Worded (fun value => ∃ whole, value = .int whole) expr)
    (blamed : ∀ value < 0, .post (some "!") (.number (.int value)) ∈ expr.subexpressions →
      failures (.ofEval (.negativeFactorial value))) :
    AgreesUnless failures expr.evaluate expr.respelled.evaluate := by
  -- The induction is on the expression: its parts agree, and it does the same with their values.
  induction worded with
  | name named => exact .refl _
  | number known =>
    obtain ⟨whole, rfl⟩ := known
    rw [evaluate_respelled_int]
    exact .refl _
  | assign named inner ih =>
    have value := ih fun value negative member =>
      blamed value negative (by simp [subexpressions, member])
    exact value.bind fun _ => .refl _
  | pre known inner ih =>
    have operand := ih fun value negative member =>
      blamed value negative (by simp [subexpressions, member])
    exact operand.bind fun _ => .refl _
  | post inner ih =>
    refine evaluate_respelled_post inner (fun value negative same => ?_)
      (ih fun value negative member => blamed value negative (by simp [subexpressions, member]))
    exact blamed value negative (by simp [subexpressions, same])
  | bin one known other ihOne ihOther =>
    have left := ihOne fun value negative member =>
      blamed value negative (by simp [subexpressions, member])
    have right := ihOther fun value negative member =>
      blamed value negative (by simp [subexpressions, member])
    exact left.bind fun _ => right.bind fun _ => .refl _
  | cond inner one two ih ihOne ihTwo =>
    have condition := ih fun value negative member =>
      blamed value negative (by simp [subexpressions, member])
    have chosen := ihOne fun value negative member =>
      blamed value negative (by simp [subexpressions, member])
    have other := ihTwo fun value negative member =>
      blamed value negative (by simp [subexpressions, member])
    refine condition.bind fun value => ?_
    split
    · exact other
    · exact chosen
  | call inner all ih ihAll =>
    refine evaluate_respelled_call fun arg among => ihAll arg among fun value negative member => ?_
    have within := mem_subexpressionsOf.2 ⟨arg, among, member⟩
    exact blamed value negative (by simp [subexpressions, within])

/-- The failure is that of the factorial of a negative number that stands in the expression. -/
def IsNegativeFactorial (expr : Expr) (failure : Error) : Prop :=
  ∃ number < 0, .post (some "!") (.number (.int number)) ∈ expr.subexpressions ∧
    failure = .ofEval (.negativeFactorial number)

/--
Where an expression of whole numbers was folded on the way and can be written, its text is read
again. What is read has the same value or failure and leaves the same names as the folded
expression, from any names to begin with, unless that one fails at the factorial of a negative
number that stands in it.
-/
theorem text_of_folded_keeps_its_meaning {source text : String} {folded : Expr}
    (fused : foldedOfSource (.ofString source) true = .ok folded)
    (whole : ∀ value, .number value ∈ folded.subexpressions → ∃ number : Int, value = .int number)
    (written : folded.format = .ok (some text)) :
    ∃ reread, ofString text = .ok reread ∧ ∀ env,
      reread.evaluate env = folded.evaluate env ∨
        ∃ number < 0, .post (some "!") (.number (.int number)) ∈ folded.subexpressions ∧
          (folded.evaluate env).1 = .error (.ofEval (.negativeFactorial number)) := by
  obtain ⟨expr, read, done⟩ := read_of_folded fused
  -- The words are those of the source, and the numbers are whole and are written.
  have derived := (ofString_ok_iff.1 read).2
  have lexemes : ∀ token ∈ (lex source).1, IsWord (fun _ => True) token := fun token member =>
    ⟨Scanner.tokens_lexemes _ token member, fun _ _ _ => trivial⟩
  have worded := (derived.worded lexemes).foldAll (fun _ => trivial) done
  have ints : Worded (fun value => ∃ number : Int, value = .int number) folded :=
    worded.restrict fun value _ member => whole value member
  have short : Worded (fun value => ∃ number, value = .int number ∧ isWritable number = true)
      folded := by
    refine (ints.written written).restrict fun value known member => ?_
    obtain ⟨⟨number, rfl⟩, text, formatted⟩ := known
    exact ⟨number, rfl, isWritable_of_format formatted⟩
  -- The text is the one that is read as the folded expression is respelled.
  obtain ⟨known, tokens, spelled⟩ := short.spells
  obtain rfl : known = text := by simpa using spelled.format.symm.trans written
  refine ⟨folded.respelled, ofString_of_lexes spelled.lexes (spelled.whole.weaken (by decide)),
    fun env => ?_⟩
  have agrees : AgreesUnless (IsNegativeFactorial folded) folded.evaluate
      folded.respelled.evaluate :=
    evaluate_respelled ints fun number negative member => ⟨number, negative, member, rfl⟩
  rcases agrees env with same | ⟨_, ⟨number, negative, member, blamed⟩, failed⟩
  · exact .inl same
  · exact .inr ⟨number, negative, member, failed.trans (congrArg _ blamed)⟩

/-- A whole number of one digit can be written. -/
theorem isWritable_digit {value : Int} (small : value.natAbs < 10) : isWritable value = true := by
  have bound : tenPow 1 ≤ tenPow 4300 := tenPow_le (by decide)
  exact decide_eq_true (Nat.lt_of_lt_of_le small bound)

/-- A negative factor is read as a sign before its magnitude, and the product is the same. -/
theorem negative_factor_keeps_its_meaning :
    let folded := Expr.bin (.number (.int (-3))) (some "*") (.name (some "x"))
    foldedOfSource (.ofString "(0-3)*x") true = .ok folded ∧
      folded.format = .ok (some "(-3*x)") ∧
      ∃ reread, ofString "(-3*x)" = .ok reread ∧
        ∀ env, reread.evaluate env = folded.evaluate env := by
  intro folded
  have fused : foldedOfSource (.ofString "(0-3)*x") true = .ok folded := by cbv
  have three : isWritable (-3) = true := isWritable_digit (by decide)
  have written : folded.format = .ok (some "(-3*x)") := by
    simp only [folded, format, Number.format, intText, three, if_true]
    rfl
  have whole : ∀ value, .number value ∈ folded.subexpressions →
      ∃ number : Int, value = .int number := by
    simp [folded, subexpressions]
  obtain ⟨reread, read, means⟩ := text_of_folded_keeps_its_meaning fused whole written
  refine ⟨fused, written, reread, read, fun env => ?_⟩
  -- There is no factorial in the product.
  rcases means env with same | ⟨number, -, member, -⟩
  · exact same
  · simp [folded, subexpressions] at member

/-- The factorial of a negative number is read as the negative of a factorial, which has a value. -/
theorem negative_factorial_changes_its_meaning :
    let folded := Expr.post (some "!") (.number (.int (-3)))
    let reread := Expr.pre (some "-") (.post (some "!") (.number (.int 3)))
    foldedOfSource (.ofString "(0-3)!") true = .ok folded ∧
      folded.format = .ok (some "(-3!)") ∧ ofString "(-3!)" = .ok reread ∧
      folded.evaluate [] = (.error (.ofEval (.negativeFactorial (-3))), []) ∧
      reread.evaluate [] = (.ok (.int (-6)), []) := by
  intro folded reread
  have three : isWritable (-3) = true := isWritable_digit (by decide)
  have written : folded.format = .ok (some "(-3!)") := by
    simp only [folded, format, Number.format, intText, three, if_true]
    rfl
  have read : ofString "(0-3)!" = .ok (.post (some "!")
      (.bin (.number (.int 0)) (some "-") (.number (.int 3)))) := by
    cbv
  -- The difference is folded, and its factorial has no value and is left alone.
  have difference : (Expr.bin (.number (.int 0)) (some "-") (.number (.int 3))).foldAll =
      .ok (.number (.int (-3))) := by
    cbv
  have refused :
      Error.ofEval (.negativeFactorial (-3)) = .evaluation (.negativeFactorial (-3)) := by
    simp only [Error.ofEval, EvalFault.numbers, Number.writable, three, List.all_cons, List.all_nil,
      Bool.and_true, if_true]
  have fused : foldedOfSource (.ofString "(0-3)!") true = .ok folded := by
    rw [foldedOfSource_eq read, foldAll, difference]
    simp only [bind, Except.bind, fold, applyAfter_negative, Int.reduceNeg, Int.reduceLT, refused,
      foldOutcome, folded]
  have six : reread.evaluate [] = (.ok (.int (-6)), []) := by
    have product : (Expr.post (some "!") (.number (.int 3))).evaluate [] = (.ok (.int 6), []) :=
      congrArg (·, []) (Number.applyAfter_factorial 3 (by decide))
    rw [evaluate, Eval.bind_apply, product]
    rfl
  exact ⟨fused, written, by cbv, evaluate_negative_factorial (by decide) [], six⟩

end Expr

end Climb
