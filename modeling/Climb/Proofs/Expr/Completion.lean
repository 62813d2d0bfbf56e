import Climb.Proofs.Expr.Blame
import Climb.Proofs.Expr.Recognition

/-! What runs out of tokens can be completed. -/

namespace Climb

namespace Parser

variable {N α β : Type} {tokens : List Token}

/-- The action fails because the tokens have ended too early. -/
def RunsOut (action : Parser N α) (tokens : List Token) : Prop :=
  ∃ failure rest, failure.IsEnd ∧ action.Fails tokens failure rest

/-- One action after another runs out where the first does, or the second behind it. -/
theorem runsOut_bind {first : Parser N α} {next : α → Parser N β} (before : Steady first)
    (steady : ∀ middle, Steady (next middle)) :
    RunsOut (first >>= next) tokens ↔ RunsOut first tokens ∨
      ∃ value middle, first.Gives tokens value middle ∧ RunsOut (next value) middle := by
  -- The two parts fail as a whole does, and the kind of the failure goes with them.
  constructor
  · rintro ⟨failure, rest, ends, failed⟩
    rcases (fails_bind before steady).1 failed with failed | ⟨value, middle, given, failed⟩
    · exact .inl ⟨failure, rest, ends, failed⟩
    · exact .inr ⟨value, middle, given, failure, rest, ends, failed⟩
  · rintro (⟨failure, rest, ends, failed⟩ | ⟨value, middle, given, failure, rest, ends, failed⟩)
    · exact ⟨failure, rest, ends, (fails_bind before steady).2 (.inl failed)⟩
    · exact ⟨failure, rest, ends,
        (fails_bind before steady).2 (.inr ⟨value, middle, given, failed⟩)⟩

/-- What reads a value does not run out. -/
theorem Gives.not_runsOut {action : Parser N α} {value : α} {rest : List Token}
    (given : action.Gives tokens value rest) : ¬RunsOut action tokens := by
  rintro ⟨failure, left, -, failed⟩
  exact given.not_fails failed

/-- An action that takes no tokens runs out of none, unless its own failure says so. -/
theorem Still.not_runsOut {action : Parser N α} {outcome : Except Error α}
    (still : Still action outcome) (other : ∀ failure, outcome = .error failure → ¬failure.IsEnd) :
    ¬RunsOut action tokens := by
  rintro ⟨failure, rest, ends, failed⟩
  exact other failure (still.fails_iff.1 failed).1 ends

/-- Returning a value runs out of no tokens. -/
theorem not_runsOut_pure (value : α) : ¬RunsOut (pure value : Parser N α) tokens :=
  (still_pure value).not_runsOut fun _ failed => by cases failed

/-- An action that goes on to return a value runs out where the action does. -/
theorem runsOut_bind_pure {first : Parser N α} {finish : α → β} (before : Steady first) :
    RunsOut (first >>= fun value => pure (finish value)) tokens ↔ RunsOut first tokens := by
  rw [runsOut_bind before fun value => (still_pure _).steady]
  constructor
  · rintro (out | ⟨value, middle, -, out⟩)
    · exact out
    · exact absurd out (not_runsOut_pure _)
  · exact .inl

/-- A token of a type is run out of where there is no token. -/
theorem runsOut_consume {type : TokenType} :
    RunsOut (consume (some type) : Parser N Token) tokens ↔ tokens = [] := by
  constructor
  · rintro ⟨failure, rest, ends, failed⟩
    rcases fails_consume.1 failed with ⟨none, -, -⟩ | ⟨token, -, -, rfl⟩
    · exact none
    · exact absurd ends (Error.Blames.unexpectedToken token type).not_isEnd
  · rintro rfl
    exact ⟨_, [], ⟨some type, rfl⟩, fails_consume.2 (.inl ⟨rfl, rfl, rfl⟩)⟩

/-- Actions that agree on a list run out of it alike. -/
theorem Agree.runsOut_iff {one other : Parser N α} {size : Nat} (agree : Agree size one other)
    (short : tokens.length ≤ size) : RunsOut one tokens ↔ RunsOut other tokens := by
  simp only [RunsOut, agree.fails_iff short]

/-- What is done with the next token runs out behind it, if there is one. -/
theorem runsOut_consume_any {next : Token → Parser N β} (steady : ∀ token, Steady (next token))
    {token : Token} (out : RunsOut (consume none >>= next) (token :: tokens)) :
    RunsOut (next token) tokens := by
  rcases (runsOut_bind (steady_consume none) steady).1 out with
    ⟨failure, rest, -, failed⟩ | ⟨taken, middle, consumed, out⟩
  · cases (fails_consume_any.1 failed).1
  · cases gives_consume_any.1 consumed
    exact out

/-- Accepting a token runs out of none. -/
theorem not_runsOut_accept {type : TokenType} : ¬RunsOut (accept type : Parser N Bool) tokens := by
  rintro ⟨failure, rest, -, failed⟩
  exact not_fails_accept failed

end Parser

namespace Expr

open Climb.Parser

variable {tokens : List Token} {token : Token} {minimum : Int} {left : Expr}

/-- Where an expression runs out behind its first token, its start does or what that goes on to. -/
theorem runsOut_reads_cons (out : RunsOut (grammar.expression none minimum) (token :: tokens)) :
    (∃ rule, grammar.head? token = some rule ∧
      RunsOut (runHead (grammar.expression none) (tokens.length + 1) token rule) tokens) ∨
    ∃ start middle, Starts Reads token tokens start middle ∧
      RunsOut (grammar.resume none minimum start) middle := by
  have steady : ∀ strength, Steady (grammar.expression none strength) := Grammar.steady_expression
  -- The first token is there, so whatever runs out does so behind it.
  rw [(Grammar.agree_expression_start minimum (Nat.le_refl _)).runsOut_iff (Nat.le_refl _)] at out
  replace out := runsOut_consume_any
    (Grammar.steady_startBy steady (Grammar.steady_resume minimum) _) out
  cases found : grammar.head? token with
  | none =>
    -- A token that starts nothing is refused, which is another failure.
    simp only [Grammar.startBy, found] at out
    refine absurd out ((still_throw _).not_runsOut fun failure failed => ?_)
    cases failed
    exact (Error.Blames.noHeadRule token).not_isEnd
  | some rule =>
    simp only [Grammar.startBy, found, interpret, pure_bind] at out
    rcases (runsOut_bind (steady_runHead steady _ token rule) (Grammar.steady_resume minimum)).1
      out with out | ⟨start, middle, given, out⟩
    · exact .inl ⟨rule, rfl, out⟩
    · exact .inr ⟨start, middle, (head_gives steady).1 ⟨rule, found, given⟩, out⟩

/-- Where an expression runs out as it goes on, it does so behind a token that continues it. -/
theorem runsOut_resumes (positive : 0 ≤ minimum)
    (out : RunsOut (grammar.resume none minimum left) tokens) :
    ∃ token behind, tokens = token :: behind ∧ minimum < grammar.strengthOf (some token) ∧
      ((∃ rule, grammar.tail? token = some rule ∧
        RunsOut (runTail (grammar.expression none) (behind.length + 1) token left rule) behind) ∨
      ∃ next middle, Continues Reads left token behind next middle ∧
        RunsOut (grammar.resume none minimum next) middle) := by
  have steady : ∀ strength, Steady (grammar.expression none strength) := Grammar.steady_expression
  by_cases strong : minimum < grammar.strengthOf tokens.head?
  · cases tokens with
    | nil => exact absurd strong (Int.not_lt.2 positive)
    | cons token behind =>
      refine ⟨token, behind, rfl, strong, ?_⟩
      have continues : ∀ next, Steady (grammar.continueBy none (grammar.expression none)
          (behind.length + 1) left (grammar.resume none minimum) next) :=
        Grammar.steady_continueBy steady (Grammar.steady_resume minimum) _ left
      rw [(Grammar.agree_resume_round minimum left (Nat.le_refl _)).runsOut_iff (Nat.le_refl _),
        runsOut_bind (steady_peek 0) fun ahead => by
          split
          · exact (steady_consume none).bind continues
          · exact (still_pure left).steady] at out
      rcases out with ⟨failure, rest, -, failed⟩ | ⟨ahead, middle, seen, out⟩
      · exact absurd failed not_fails_peek
      · obtain ⟨rfl, rfl⟩ := gives_peek.1 seen
        rw [if_pos strong] at out
        replace out := runsOut_consume_any continues out
        cases found : grammar.tail? token with
        | none =>
          -- A token that binds has a rule.
          have weak := (strengthOf_bounds token).2.2.2 found
          simp only [List.head?_cons] at strong
          omega
        | some rule =>
          simp only [Grammar.continueBy, found, interpret, pure_bind] at out
          rcases (runsOut_bind (steady_runTail steady _ token left rule)
            (Grammar.steady_resume minimum)).1 out with out | ⟨next, middle, given, out⟩
          · exact .inl ⟨rule, rfl, out⟩
          · exact .inr ⟨next, middle,
              (tail_gives steady (Nat.lt_succ_self _)).1 ⟨rule, found, given⟩, out⟩
  · -- Where nothing continues it, an expression ends without looking any further.
    exact absurd out (resumes_self (Int.not_lt.1 strong)).not_runsOut

/-- Some more tokens complete the reading of a list, before any token that binds nothing. -/
def Completes {α : Type} (reads : List Token → α → List Token → Prop) (tokens : List Token) :
    Prop :=
  ∃ (more : List Token) (value : α), (∀ token ∈ more, token.IsOrdinary) ∧
    ∀ follow, grammar.strengthOf follow.head? ≤ 0 → reads (tokens ++ (more ++ follow)) value follow

/-- A name, to complete what lacks an operand. -/
def missingName : Token := .ofKind .name "x"

/-- A colon, to complete what lacks the second arm of a conditional. -/
def missingColon : Token := .ofKind .colon ":"

/-- A parenthesis, to complete what is open. -/
def missingClose : Token := .ofKind .rparen ")"

/-- A token that needs no reading and assigns nothing is ordinary. -/
theorem isOrdinary_ofKind {kind : Kind} {text : String}
    (other : kind ≠ .assign ∧ kind ≠ .number) : (Token.ofKind kind text).IsOrdinary where
  assigns := by simpa [Token.ofKind] using other.1
  readable typed := absurd typed (by simpa [Token.ofKind] using other.2)

/-- The name that completes is ordinary. -/
theorem missingName_ordinary : missingName.IsOrdinary :=
  isOrdinary_ofKind (by decide)

/-- The colon that completes is ordinary. -/
theorem missingColon_ordinary : missingColon.IsOrdinary :=
  isOrdinary_ofKind (by decide)

/-- The parenthesis that completes is ordinary. -/
theorem missingClose_ordinary : missingClose.IsOrdinary :=
  isOrdinary_ofKind (by decide)

/-- A name is read as an expression wherever one may end. -/
theorem reads_missingName (positive : 0 ≤ minimum) {follow : List Token}
    (weak : grammar.strengthOf follow.head? ≤ 0) :
    Reads minimum (missingName :: follow) (.name (some "x")) follow :=
  reads_cons.2 ⟨_, follow, .name rfl, resumes_self (Int.le_trans weak positive)⟩

/-- An expression that ended with the tokens ends as well before one that binds nothing. -/
theorem reads_before {expr : Expr} (read : Reads 0 tokens expr []) {follow : List Token}
    (weak : grammar.strengthOf follow.head? ≤ 0) : Reads 0 (tokens ++ follow) expr follow := by
  -- What was derived does not depend on what follows, as long as nothing there continues it.
  obtain ⟨taken, split, derived, -⟩ := reads_zero_iff.1 read
  rw [List.append_nil] at split
  subst split
  exact reads_zero_iff.2 ⟨taken, rfl, derived, weak_iff_no_tail.1 weak⟩

/-- Wherever an operand of a list runs out, it can be completed. -/
def CompleteOperands (tokens : List Token) : Prop :=
  ∀ strength, 0 ≤ strength → ∀ list, list <:+ tokens →
    RunsOut (grammar.expression none strength) list → Completes (Reads strength) list

/-- What holds for the operands of a list holds for those of its ends. -/
theorem CompleteOperands.suffix {list : List Token} (operands : CompleteOperands tokens)
    (ends : list <:+ tokens) : CompleteOperands list :=
  fun strength positive shorter further =>
    operands strength positive shorter (further.trans ends)

section

variable (ordinary : ∀ token ∈ tokens, token.IsOrdinary) {next : Token} {rest : List Token}
  {expr : Expr}

include ordinary

/-- What is read before a token is read there whatever comes behind. -/
theorem reads_more (positive : 0 ≤ minimum) (read : Reads minimum tokens expr (next :: rest))
    (more : List Token) : Reads minimum (tokens ++ more) expr (next :: (rest ++ more)) :=
  (prompt_expression positive ordinary).more (Grammar.steady_expression minimum) read more

/-- Operands are read promptly from every end of ordinary tokens. -/
theorem promptOperands : PromptOperands (grammar.expression none) tokens :=
  fun _ positive _ ends =>
    prompt_expression positive fun token member => ordinary token (ends.mem member)

omit ordinary in
/-- What is left behind a start is the end of what there was. -/
theorem starts_suffix (starts : Starts Reads token tokens expr rest) : rest <:+ tokens := by
  obtain ⟨rule, -, given⟩ : ∃ rule, grammar.head? token = some rule ∧
      (runHead (grammar.expression none) 0 token rule).Gives tokens expr rest :=
    (head_gives Grammar.steady_expression).2 starts
  exact given.suffix (steady_runHead Grammar.steady_expression 0 token rule)

omit ordinary in
/-- What is left behind a continuation is the end of what there was. -/
theorem continues_suffix (continues : Continues Reads left token tokens expr rest) :
    rest <:+ tokens := by
  obtain ⟨rule, -, given⟩ :=
    (tail_gives Grammar.steady_expression (Nat.lt_succ_self _)).2 continues
  exact given.suffix (steady_runTail Grammar.steady_expression _ token left rule)

/-- What starts before a token starts there whatever comes behind. -/
theorem starts_more (known : token.IsOrdinary)
    (starts : Starts Reads token tokens expr (next :: rest)) (more : List Token) :
    Starts Reads token (tokens ++ more) expr (next :: (rest ++ more)) := by
  -- The rule of the token reads promptly, and so do the operands that it reads.
  have steady : ∀ strength, Steady (grammar.expression none strength) := Grammar.steady_expression
  obtain ⟨rule, found, given⟩ : ∃ rule, grammar.head? token = some rule ∧
      (runHead (grammar.expression none) 0 token rule).Gives tokens expr (next :: rest) :=
    (head_gives steady).2 starts
  have prompt : Prompt (runHead (grammar.expression none) 0 token rule) tokens :=
    prompt_runHead steady known found (promptOperands ordinary)
  exact (head_gives steady).1
    ⟨rule, found, prompt.more (steady_runHead steady 0 token rule) given more⟩

/-- What is continued before a token is continued there whatever comes behind. -/
theorem continues_more (known : token.IsOrdinary)
    (continues : Continues Reads left token tokens expr (next :: rest)) (more : List Token) :
    Continues Reads left token (tokens ++ more) expr (next :: (rest ++ more)) := by
  have steady : ∀ strength, Steady (grammar.expression none strength) := Grammar.steady_expression
  -- One bound is enough for the list with more tokens and without them.
  have short : tokens.length < (tokens ++ more).length + 1 := by
    simp only [List.length_append]
    omega
  obtain ⟨rule, found, given⟩ := (tail_gives steady short).2 continues
  have prompt : Prompt (runTail (grammar.expression none) _ token left rule) tokens :=
    prompt_runTail steady known found short (promptOperands ordinary)
  exact (tail_gives steady (Nat.lt_succ_self _)).1
    ⟨rule, found, prompt.more (steady_runTail steady _ token left rule) given more⟩

end

/-- An action whose result is built without a failure runs out where it does itself. -/
theorem runsOut_built {action : Parser Expr Expr} {build : Expr → Except Error Expr}
    (steady : Steady action) (succeeds : ∀ right, ∃ expr, build right = .ok expr)
    (out : RunsOut (action >>= fun right => built (build right)) tokens) :
    RunsOut action tokens := by
  rcases (runsOut_bind steady fun right => (still_built _).steady).1 out with
    out | ⟨right, middle, -, out⟩
  · exact out
  · obtain ⟨expr, same⟩ := succeeds right
    refine absurd out ((still_built _).not_runsOut fun failure failed => ?_)
    cases same.symm.trans failed

/-- What can be completed can be completed and closed. -/
theorem Completes.closed (completes : Completes (Reads 0) tokens) {closing : Token}
    (known : closing.IsOrdinary) (weak : grammar.strengthOf (some closing) ≤ 0) :
    ∃ (more : List Token) (expr : Expr), (∀ token ∈ more, token.IsOrdinary) ∧
      ∀ follow, Reads 0 (tokens ++ (more ++ follow)) expr (closing :: follow) := by
  -- The closing token is one of those before which the expression ends.
  obtain ⟨more, expr, ordinary, reads⟩ := completes
  refine ⟨more ++ [closing], expr, ?_, fun follow => ?_⟩
  · simpa [or_imp, forall_and] using ⟨ordinary, known⟩
  · simpa only [List.append_assoc, List.singleton_append] using reads (closing :: follow) weak

/--
Where an expression and a token of some type behind it run out, the expression can be completed, or
both are there and the rest runs out.
-/
theorem completes_or_parted {type : TokenType} {next : Expr → Token → Parser Expr Expr}
    (steady : ∀ inner token, Steady (next inner token)) (operands : CompleteOperands tokens)
    (out : RunsOut (grammar.expression none 0 >>= fun inner =>
      consume (some type) >>= next inner) tokens) :
    Completes (Reads 0) tokens ∨ ∃ inner parting behind,
      Reads 0 tokens inner (parting :: behind) ∧ parting.type = type ∧
        RunsOut (next inner parting) behind := by
  have further : ∀ inner, Steady (consume (some type) >>= next inner) :=
    fun inner => (steady_consume _).bind (steady inner)
  rcases (runsOut_bind (Grammar.steady_expression 0) further).1 out with
    out | ⟨inner, middle, read, out⟩
  · exact .inl (operands 0 (Int.le_refl 0) tokens List.suffix_rfl out)
  · rcases (runsOut_bind (steady_consume _) (steady inner)).1 out with
      ended | ⟨parting, behind, taken, goesOn⟩
    · -- The expression ended with the tokens, and is complete as it is.
      obtain rfl := runsOut_consume.1 ended
      exact .inl ⟨[], inner, by simp, fun follow weak => reads_before read weak⟩
    · obtain ⟨rfl, typed⟩ := gives_consume.1 taken
      exact .inr ⟨inner, parting, behind, read, typed, goesOn⟩

/-- A start that runs out can be completed. -/
theorem completes_starts {rule : HeadRule Expr} {bound : Nat} (known : token.IsOrdinary)
    (found : grammar.head? token = some rule) (operands : CompleteOperands tokens)
    (out : RunsOut (runHead (grammar.expression none) bound token rule) tokens) :
    Completes (Starts Reads token) tokens := by
  rcases head?_cases found with ⟨typed, rfl⟩ | ⟨typed, rfl⟩ | ⟨typed, rfl⟩ | ⟨typed, rfl⟩
  · exact absurd out (not_runsOut_pure _)
  · -- A number that is readable reads nothing behind its token.
    obtain ⟨value, read⟩ := known.readable typed
    refine absurd out ((still_built _).not_runsOut fun failure failed => ?_)
    simp only [buildNumber, read, bind, Except.bind, pure, Except.pure, reduceCtorEq] at failed
  · obtain ⟨more, operand, ordinary, reads⟩ := operands 7 (by decide) tokens List.suffix_rfl
      (runsOut_built (Grammar.steady_expression 7) (fun right => ⟨_, rfl⟩) out)
    exact ⟨more, _, ordinary, fun follow weak => .pre typed (reads follow weak)⟩
  · rw [runHead_group] at out
    rcases completes_or_parted (fun inner _ => (still_pure inner).steady) operands out with
      completes | ⟨inner, parting, behind, -, -, out⟩
    · obtain ⟨more, inner, ordinary, reads⟩ :=
        completes.closed missingClose_ordinary (by decide)
      exact ⟨more, inner, ordinary, fun follow _ => .group typed (reads follow) rfl⟩
    · exact absurd out (not_runsOut_pure _)

/-- Arguments of a call behind its opening parenthesis: one, and what follows it. -/
def Arguments (tokens : List Token) (args : List Expr) (rest : List Token) : Prop :=
  ∃ first others middle, args = first :: others ∧ Reads 0 tokens first middle ∧
    Further (Reads 0) (.kind .comma) (.kind .rparen) middle others rest

/-- Arguments that run out can be completed, if those behind the first can be. -/
theorem completes_arguments (ordinary : ∀ token ∈ tokens, token.IsOrdinary)
    (operands : CompleteOperands tokens) {next : Expr → Parser Expr (List Expr)}
    (steady : ∀ first, Steady (next first))
    (goesOn : ∀ first middle, middle <:+ tokens → RunsOut (next first) middle →
      Completes (Further (Reads 0) (.kind .comma) (.kind .rparen)) middle)
    (out : RunsOut (grammar.expression none 0 >>= next) tokens) : Completes Arguments tokens := by
  -- If the first argument can be completed, a parenthesis makes it the last one as well.
  have last : Completes (Reads 0) tokens → Completes Arguments tokens := by
    intro completes
    obtain ⟨more, first, known, reads⟩ := completes.closed missingClose_ordinary (by decide)
    exact ⟨more, [first], known, fun follow _ =>
      ⟨first, [], missingClose :: follow, rfl, reads follow, .done rfl⟩⟩
  rcases (runsOut_bind (Grammar.steady_expression 0) steady).1 out with
    out | ⟨first, middle, read, out⟩
  · exact last (operands 0 (Int.le_refl 0) tokens List.suffix_rfl out)
  · cases middle with
    | nil => exact last ⟨[], first, by simp, fun follow weak => reads_before read weak⟩
    | cons ahead behind =>
      have ends := read.suffix (Grammar.steady_expression 0)
      obtain ⟨more, others, known, further⟩ := goesOn first _ ends out
      exact ⟨more, first :: others, known, fun follow weak =>
        ⟨first, others, _, rfl, reads_more ordinary (Int.le_refl 0) read (more ++ follow),
          further follow weak⟩⟩

/-- What follows an argument can be completed where it runs out. -/
theorem completes_further (bound : Nat) : ∀ (nodes : List Expr) {tokens : List Token},
    (∀ token ∈ tokens, token.IsOrdinary) → CompleteOperands tokens →
      RunsOut (moreItems (grammar.expression none) (.kind .comma) bound nodes >>=
        closeItems (.kind .rparen)) tokens →
      Completes (Further (Reads 0) (.kind .comma) (.kind .rparen)) tokens := by
  have steady : ∀ strength, Steady (grammar.expression none strength) := Grammar.steady_expression
  have loops : ∀ bound nodes, Steady (moreItems (grammar.expression none) (.kind .comma) bound nodes
      >>= closeItems (.kind .rparen)) := fun bound nodes =>
    (steady_moreItems steady _ bound nodes).bind (steady_closeItems _)
  -- The induction is on the rounds of the loop, each of which takes a comma.
  induction bound with
  | zero =>
    intro nodes tokens ordinary operands out
    rcases (runsOut_bind (steady_moreItems steady _ 0 nodes) (steady_closeItems _)).1 out with
      out | ⟨all, middle, given, -⟩
    · refine absurd out ((still_throw _).not_runsOut fun failure failed => ?_)
      cases failed
      rintro ⟨expected, same⟩
      cases same
    · cases ((still_throw _).gives_iff.1 given).1
  | succ bound ih =>
    intro nodes tokens ordinary operands out
    -- One round, with the closing token behind each of its branches.
    have unfolded : moreItems (grammar.expression none) (.kind .comma) (bound + 1) nodes >>=
        closeItems (.kind .rparen) = (accept (.kind .comma) >>= fun accepted =>
          if accepted = true then grammar.expression none 0 >>= fun node =>
            moreItems (grammar.expression none) (.kind .comma) bound (nodes ++ [node]) >>=
              closeItems (.kind .rparen)
          else closeItems (.kind .rparen) nodes) := by
      rw [moreItems, bind_assoc]
      congr 1
      funext accepted
      cases accepted with
      | true => simp only [if_true, bind_assoc]
      | false => simp
    rw [unfolded, runsOut_bind (steady_accept _) fun accepted => by
      split
      · exact (steady 0).bind fun node => loops bound _
      · exact steady_closeItems _ nodes] at out
    rcases out with out | ⟨accepted, middle, taken, out⟩
    · exact absurd out not_runsOut_accept
    · cases accepted with
      | true =>
        obtain ⟨comma, rfl, typed⟩ := gives_accept_true.1 taken
        have ends : middle <:+ comma :: middle := List.suffix_cons comma middle
        have known : ∀ token ∈ middle, token.IsOrdinary :=
          fun token member => ordinary token (ends.mem member)
        obtain ⟨more, args, known, arguments⟩ := completes_arguments known (operands.suffix ends)
          (fun node => loops bound _) (fun first behind shorter out =>
            ih _ (fun token member => known token (shorter.mem member))
              (operands.suffix (shorter.trans ends)) out) out
        refine ⟨more, args, known, fun follow weak => ?_⟩
        obtain ⟨first, others, rest, rfl, read, further⟩ := arguments follow weak
        exact .next typed read further
      | false =>
        -- Only the parenthesis is missing.
        obtain ⟨rfl, -⟩ := gives_accept_false.1 taken
        simp only [Bool.false_eq_true, if_false, closeItems, discard_eq, bind_assoc,
          pure_bind] at out
        obtain rfl := runsOut_consume.1 ((runsOut_bind_pure (steady_consume _)).1 out)
        exact ⟨[missingClose], [], by simpa using missingClose_ordinary, fun follow _ => .done rfl⟩

/-- A call that runs out can be completed. -/
theorem completes_call {bound : Nat} {strength : Int} (typed : token.type = .kind .lparen)
    (ordinary : ∀ token ∈ tokens, token.IsOrdinary) (operands : CompleteOperands tokens)
    (out : RunsOut (runTail (grammar.expression none) bound token left
      (.form "call" callSteps buildCall strength)) tokens) :
    Completes (Continues Reads left token) tokens := by
  have steady : ∀ strength, Steady (grammar.expression none strength) := Grammar.steady_expression
  have loops : ∀ node, Steady (moreItems (grammar.expression none) (.kind .comma) bound [node] >>=
      closeItems (.kind .rparen)) := fun node =>
    (steady_moreItems steady _ bound [node]).bind (steady_closeItems _)
  rw [runTail_call, runsOut_bind_pure (steady_items steady bound _ _)] at out
  have unfolded : items (grammar.expression none) bound (.kind .comma) (.kind .rparen) =
      (accept (.kind .rparen) >>= fun accepted =>
        if accepted = true then pure [] else grammar.expression none 0 >>= fun node =>
          moreItems (grammar.expression none) (.kind .comma) bound [node] >>=
            closeItems (.kind .rparen)) := rfl
  rw [unfolded, runsOut_bind (steady_accept _) fun accepted => by
    split
    · exact (still_pure []).steady
    · exact (steady 0).bind loops] at out
  rcases out with out | ⟨accepted, middle, taken, out⟩
  · exact absurd out not_runsOut_accept
  · -- A call that is closed at once is complete; any other has a first argument.
    cases accepted with
    | true => exact absurd out (not_runsOut_pure _)
    | false =>
      obtain ⟨rfl, -⟩ := gives_accept_false.1 taken
      obtain ⟨more, args, known, arguments⟩ := completes_arguments ordinary operands loops
        (fun first behind shorter out => completes_further bound [first]
          (fun token member => ordinary token (shorter.mem member)) (operands.suffix shorter) out)
        out
      refine ⟨more, .call left args, known, fun follow weak => ?_⟩
      obtain ⟨first, others, rest, rfl, read, further⟩ := arguments follow weak
      exact .call typed (first_of_reads read) read further

/-- A conditional that runs out can be completed. -/
theorem completes_cond {bound : Nat} {strength : Int} (typed : token.type = .kind .question)
    (ordinary : ∀ token ∈ tokens, token.IsOrdinary) (operands : CompleteOperands tokens)
    (out : RunsOut (runTail (grammar.expression none) bound token left
      (.form "cond" condSteps buildCond strength)) tokens) :
    Completes (Continues Reads left token) tokens := by
  have last : ∀ chosen (_ : Token), Steady (grammar.expression none 2 >>= fun other =>
      pure (Expr.cond left chosen other)) := fun chosen _ =>
    (Grammar.steady_expression 2).bind fun other => (still_pure _).steady
  rw [runTail_cond] at out
  rcases completes_or_parted last operands out with
    completes | ⟨chosen, colon, behind, one, splits, out⟩
  · -- The first arm is completed, and a colon and a name make up for the second.
    obtain ⟨more, chosen, known, reads⟩ := completes.closed missingColon_ordinary (by decide)
    refine ⟨more ++ [missingName], .cond left chosen (.name (some "x")), ?_, fun follow weak => ?_⟩
    · simpa [or_imp, forall_and] using ⟨known, missingName_ordinary⟩
    · have chosenRead := reads (missingName :: follow)
      have whole : Continues Reads left token (tokens ++ (more ++ missingName :: follow)) _
          follow := .cond typed chosenRead rfl (reads_missingName (by decide) weak)
      simpa only [List.append_assoc, List.singleton_append] using whole
  · -- The second arm is completed behind the colon, which ends the first arm as before.
    have ends : behind <:+ tokens :=
      (List.suffix_cons colon behind).trans (one.suffix (Grammar.steady_expression 0))
    rw [runsOut_bind_pure (Grammar.steady_expression 2)] at out
    obtain ⟨more, other, known, reads⟩ := operands 2 (by decide) behind ends out
    exact ⟨more, .cond left chosen other, known, fun follow weak =>
      .cond typed (reads_more ordinary (Int.le_refl 0) one _) splits (reads follow weak)⟩

/-- A continuation that runs out can be completed. -/
theorem completes_continues {rule : TailRule Expr} {bound : Nat} (known : token.IsOrdinary)
    (found : grammar.tail? token = some rule) (ordinary : ∀ token ∈ tokens, token.IsOrdinary)
    (operands : CompleteOperands tokens)
    (out : RunsOut (runTail (grammar.expression none) bound token left rule) tokens) :
    Completes (Continues Reads left token) tokens := by
  -- An operator between operands runs out in the right one, and is complete with it.
  have right : ∀ {strength associativity}, 0 ≤ rightStrength strength associativity →
      RunsOut (runTail (grammar.expression none) bound token left
        (.binary "bin" buildBin strength associativity)) tokens →
      Completes (Reads (rightStrength strength associativity)) tokens := fun positive out =>
    operands _ positive tokens List.suffix_rfl
      (runsOut_built (Grammar.steady_expression _) (fun right => ⟨_, rfl⟩) out)
  rcases tail?_cases found with ⟨typed, rfl⟩ | ⟨typed, rfl⟩ | ⟨typed, rfl⟩ | ⟨typed, rfl⟩ |
    ⟨typed, rfl⟩ | ⟨typed, rfl⟩ | ⟨typed, rfl⟩ | ⟨typed, rfl⟩
  · obtain ⟨more, operand, ordinary, reads⟩ := right (by decide) out
    exact ⟨more, _, ordinary, fun follow weak => .sequence typed (reads follow weak)⟩
  · exact absurd typed known.assigns
  · exact completes_cond typed ordinary operands out
  · obtain ⟨more, operand, ordinary, reads⟩ := right (by decide) out
    exact ⟨more, _, ordinary, fun follow weak => .sum typed (reads follow weak)⟩
  · obtain ⟨more, operand, ordinary, reads⟩ := right (by decide) out
    exact ⟨more, _, ordinary, fun follow weak => .product typed (reads follow weak)⟩
  · obtain ⟨more, operand, ordinary, reads⟩ := right (by decide) out
    exact ⟨more, _, ordinary, fun follow weak => .power typed (reads follow weak)⟩
  · exact absurd out (not_runsOut_pure _)
  · exact completes_call typed ordinary operands out

/-- Reading that runs out can be completed, and so can what a start goes on to. -/
theorem completes (size : Nat) : ∀ {tokens : List Token}, tokens.length = size →
    (∀ token ∈ tokens, token.IsOrdinary) → ∀ {minimum : Int}, 0 ≤ minimum →
      (RunsOut (grammar.expression none minimum) tokens → Completes (Reads minimum) tokens) ∧
      ∀ {left : Expr}, RunsOut (grammar.resume none minimum left) tokens →
        Completes (Resumes minimum left) tokens := by
  -- As for reading itself, the induction is on the number of tokens and covers both at once.
  induction size using Nat.strongRecOn with
  | ind size ih =>
    intro tokens sized ordinary minimum positive
    -- Behind the first token all operands can be completed.
    have behind : ∀ {token list}, tokens = token :: list → CompleteOperands list := by
      rintro token list rfl strength positive shorter ends
      have length := ends.length_le
      simp only [List.length_cons] at sized
      exact (ih shorter.length (by omega) rfl
        (fun token member => ordinary token (List.mem_cons_of_mem _ (ends.mem member)))
        positive).1
    constructor
    · intro out
      cases tokens with
      | nil =>
        exact ⟨[missingName], _, by simpa using missingName_ordinary, fun follow weak =>
          reads_missingName positive weak⟩
      | cons token list =>
        simp only [List.mem_cons, forall_eq_or_imp] at ordinary
        simp only [List.length_cons] at sized
        rcases runsOut_reads_cons out with ⟨rule, found, out⟩ | ⟨start, middle, starts, out⟩
        · -- The start is completed, and ends there.
          obtain ⟨more, start, known, starts⟩ :=
            completes_starts ordinary.1 found (behind rfl) out
          exact ⟨more, start, known, fun follow weak => reads_cons.2
            ⟨start, follow, starts follow weak, resumes_self (Int.le_trans weak positive)⟩⟩
        · -- The start is there, and a token behind it: the rest is completed.
          obtain ⟨ahead, rest, rfl, -⟩ := runsOut_resumes positive out
          have ends := starts_suffix starts
          have length := ends.length_le
          obtain ⟨more, expr, known, resumes⟩ := (ih _ (by omega) rfl
            (fun token member => ordinary.2 token (ends.mem member)) positive).2 out
          exact ⟨more, expr, known, fun follow weak => reads_cons.2
            ⟨start, _, starts_more ordinary.2 ordinary.1 starts _, resumes follow weak⟩⟩
    · intro left out
      obtain ⟨token, list, rfl, strong, out⟩ := runsOut_resumes positive out
      simp only [List.mem_cons, forall_eq_or_imp] at ordinary
      simp only [List.length_cons] at sized
      rcases out with ⟨rule, found, out⟩ | ⟨next, middle, continues, out⟩
      · obtain ⟨more, next, known, continues⟩ :=
          completes_continues ordinary.1 found ordinary.2 (behind rfl) out
        exact ⟨more, next, known, fun follow weak => (resumes_cons strong).2
          ⟨next, follow, continues follow weak, resumes_self (Int.le_trans weak positive)⟩⟩
      · -- As for a start: what is there stays, and the rest is completed.
        obtain ⟨ahead, rest, rfl, -⟩ := runsOut_resumes positive out
        have ends := continues_suffix continues
        have length := ends.length_le
        obtain ⟨more, expr, known, resumes⟩ := (ih _ (by omega) rfl
          (fun token member => ordinary.2 token (ends.mem member)) positive).2 out
        exact ⟨more, expr, known, fun follow weak => (resumes_cons strong).2
          ⟨next, _, continues_more ordinary.2 ordinary.1 continues _, resumes follow weak⟩⟩

end Expr

end Climb
