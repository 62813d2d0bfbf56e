import Mathlib
import Climb.Proofs.Expr.Completion
import Climb.Proofs.Grammar.Failing

/-! Failures are found at the first token that does not fit. -/

namespace Climb

namespace Expr

open Climb.Parser

variable {tokens : List Token} {token : Token}

/-- The tokens are an expression, with nothing left over. -/
def Accepted (tokens : List Token) : Prop :=
  ∃ expr, ofSource (.ofTokens tokens) true = .ok expr

/-- The tokens are the start of an expression that ordinary tokens complete. -/
def Viable (tokens : List Token) : Prop :=
  ∃ more, (∀ token ∈ more, token.IsOrdinary) ∧ Accepted (tokens ++ more)

/-- Tokens are accepted exactly if they are read to their end. -/
theorem accepted_iff : Accepted tokens ↔ ∃ expr, Reads 0 tokens expr [] := by
  have ends : (Source.ofTokens tokens).feed.Ends := trivial
  have shown : (Source.ofTokens tokens).feed.cursor = ⟨tokens, none⟩ := rfl
  simp only [Accepted, ofSource, Grammar.run_ok_iff ends shown, forall_const, exists_eq_right]

/-- Where reading runs out, the tokens are the start of an expression. -/
theorem viable_of_runsOut (ordinary : ∀ token ∈ tokens, token.IsOrdinary)
    (out : RunsOut (grammar.expression none 0) tokens) : Viable tokens := by
  obtain ⟨more, expr, known, reads⟩ := (completes _ rfl ordinary (Int.le_refl 0)).1 out
  have read := reads [] (Int.le_refl 0)
  rw [List.append_nil] at read
  exact ⟨more, known, accepted_iff.2 ⟨expr, read⟩⟩

/-- What is accepted is the start of an expression. -/
theorem Accepted.viable (accepted : Accepted tokens) : Viable tokens :=
  ⟨[], by simp, by simpa using accepted⟩

/-- The tokens before one that is refused are the start of an expression. -/
theorem viable_before {before rest : List Token} {failure : Error}
    (ordinary : ∀ other ∈ before ++ token :: rest, other.IsOrdinary)
    (failed : (grammar.expression none 0).Fails (before ++ token :: rest) failure rest) :
    Viable before := by
  have steady : Steady (grammar.expression none 0) := Grammar.steady_expression 0
  have known : ∀ other ∈ before, other.IsOrdinary :=
    fun other member => ordinary other (List.mem_append_left _ member)
  rcases steady.gives_or_fails before with ⟨expr, left, read⟩ | ⟨other, left, fails⟩
  · cases left with
    | nil => exact Accepted.viable (accepted_iff.2 ⟨expr, read⟩)
    | cons next behind =>
      -- What ends before a token within these would have ended there in the whole as well.
      have whole := reads_more known (Int.le_refl 0) read (token :: rest)
      exact absurd failed whole.not_fails
  · rcases (prompt_expression (Int.le_refl 0) known).blamed fails with
      ends | ⟨front, wrong, split, -, stays⟩
    · exact viable_of_runsOut known ⟨other, left, ends, fails⟩
    · -- A token that is refused within these would have been refused in the whole as well.
      have whole := stays (left ++ token :: rest)
      rw [← List.cons_append, ← List.append_assoc, ← split] at whole
      rw [Fails, whole] at failed
      have lengths := congrArg (fun answer => answer.2.tokens.length) failed
      simp only [List.length_append, List.length_cons] at lengths
      omega

/--
A token of the list is the first that does not fit: the tokens before it are the start of an
expression, and nothing that starts with them and the token is one.
-/
def FirstMisfit (tokens : List Token) (token : Token) : Prop :=
  ∃ index, tokens[index]? = some token ∧ Viable (tokens.take index) ∧
    ∀ more, ¬Accepted (tokens.take (index + 1) ++ more)

/-- A token is the first that does not fit if what stands before it is refused only with it. -/
theorem firstMisfit_of_split {before rest : List Token} (viable : Viable before)
    (refused : ∀ more, ¬Accepted (before ++ token :: more)) :
    FirstMisfit (before ++ token :: rest) token := by
  -- The place of the token is the number of those before it.
  refine ⟨before.length, by simp, by simpa using viable, fun more => ?_⟩
  rw [List.take_length_add_append]
  simpa using refused more

/-- A token that an expression refuses is the first that does not fit. -/
theorem firstMisfit_of_blamed {before rest : List Token} {failure : Error}
    (ordinary : ∀ other ∈ before ++ token :: rest, other.IsOrdinary)
    (stays : ∀ other, (grammar.expression none 0).Fails (before ++ token :: other) failure other) :
    FirstMisfit (before ++ token :: rest) token := by
  -- Whatever comes behind the token, it is refused there again.
  refine firstMisfit_of_split (viable_before ordinary (stays rest)) fun more accepted => ?_
  obtain ⟨expr, read⟩ := accepted_iff.1 accepted
  exact read.not_fails (stays more)

/-- A token that is left over behind an expression is the first that does not fit. -/
theorem firstMisfit_of_excess {expr : Expr} {rest : List Token}
    (ordinary : ∀ token ∈ tokens, token.IsOrdinary) (read : Reads 0 tokens expr (token :: rest)) :
    FirstMisfit tokens token := by
  obtain ⟨before, rfl, derived, -⟩ := reads_zero_iff.1 read
  have alone : Reads 0 before expr [] := reads_zero_iff.2 ⟨before, by simp, derived, by simp⟩
  have viable : Viable before := Accepted.viable (accepted_iff.2 ⟨expr, alone⟩)
  refine firstMisfit_of_split viable fun more accepted => ?_
  -- Whatever comes behind the token, the expression ends before it.
  obtain ⟨other, whole⟩ := accepted_iff.1 accepted
  have again := (prompt_expression (Int.le_refl 0) ordinary).settled rfl read more
  rw [Reads, Gives, again] at whole
  cases whole

/--
What a fault says about the tokens. One that names a token names the first that does not fit; one at
the end of the input says that more tokens are needed; and there is no other.
-/
def Explains (tokens : List Token) : ParseFault → Prop
  | .noHeadRule token | .unexpectedToken token _ | .excessToken token => FirstMisfit tokens token
  | .endOfInput _ => ¬Accepted tokens ∧ Viable tokens
  | .noTailRule _ | .assignmentTarget _ | .tooDeep | .custom _ _ => False

/--
Where reading fails, it does so at the first token that does not fit, or at the end of tokens that
are the start of an expression.
-/
theorem failures_are_at_the_first_misfit (tokens : List Token)
    (ordinary : ∀ token ∈ tokens, token.IsOrdinary) {failure : Error}
    (failed : ofSource (.ofTokens tokens) true = .error failure) :
    ∃ fault, failure = .parse fault ∧ Explains tokens fault := by
  have ends : (Source.ofTokens tokens).feed.Ends := trivial
  have shown : (Source.ofTokens tokens).feed.cursor = ⟨tokens, none⟩ := rfl
  rcases Grammar.run_error ends shown failed with ⟨rest, fails⟩ | ⟨expr, token, rest, read, rfl⟩
  · rcases (prompt_expression (Int.le_refl 0) ordinary).blamed fails with
      ends | ⟨before, token, rfl, blames, stays⟩
    · -- The tokens have ended, and can be completed.
      have viable := viable_of_runsOut ordinary ⟨failure, rest, ends, fails⟩
      obtain ⟨expected, rfl⟩ := ends
      refine ⟨_, rfl, fun accepted => ?_, viable⟩
      obtain ⟨expr, read⟩ := accepted
      cases read.symm.trans failed
    · -- A token was refused where an expression should start or a token of one type should stand.
      have misfit := firstMisfit_of_blamed ordinary stays
      cases blames with
      | noHeadRule => exact ⟨_, rfl, misfit⟩
      | unexpectedToken => exact ⟨_, rfl, misfit⟩
  · -- The expression was read, and a token is left over.
    exact ⟨_, rfl, firstMisfit_of_excess ordinary read⟩

/-- The parenthesis is the first token that does not fit where a conditional lacks its colon. -/
theorem missing_colon_is_found :
    let one : Token := .ofKind .number "1"
    let name : Token := .ofKind .name "f"
    let close : Token := .ofKind .rparen ")"
    let tokens := [name, .ofKind .lparen "(", one, .ofKind .question "?", name, close, name]
    ofSource (.ofTokens tokens) true = .error (.parse (.unexpectedToken close (.kind .colon))) ∧
      FirstMisfit tokens close := by
  intro one name close tokens
  have failed : ofSource (.ofTokens tokens) true =
      .error (.parse (.unexpectedToken close (.kind .colon))) := by cbv
  have readable : one.IsOrdinary := ⟨by decide, fun _ => ⟨.int 1, by cbv⟩⟩
  have ordinary : ∀ token ∈ tokens, token.IsOrdinary := by
    simp only [tokens, List.forall_mem_cons]
    have plain : name.IsOrdinary ∧ close.IsOrdinary :=
      ⟨isOrdinary_ofKind (by decide), isOrdinary_ofKind (by decide)⟩
    exact ⟨plain.1, isOrdinary_ofKind (by decide), readable, isOrdinary_ofKind (by decide),
      plain.1, plain.2, plain.1, by simp⟩
  obtain ⟨fault, same, explains⟩ := failures_are_at_the_first_misfit tokens ordinary failed
  cases same
  exact ⟨failed, explains⟩

end Expr

end Climb
