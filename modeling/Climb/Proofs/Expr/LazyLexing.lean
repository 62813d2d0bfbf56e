import Climb.Proofs.Expr.Failures
import Climb.Proofs.Grammar.Lookahead
import Climb.Proofs.Token.Lexing
import Climb.Token.Lexer

/-! Reading an expression from a text is reading it from the tokens of the text. -/

namespace Climb

namespace Grammar

open Climb.Parser

variable {N : Type} {grammar : Grammar N}

/-- A list with a failure behind it is read in step with one that ends there. -/
theorem inStep_listed (tokens : List Token) (failure : Error) :
    Buffer.InStep tokens.length (some failure) (.ofSource { feed := .listed tokens none })
      (.ofSource { feed := .listed tokens (some failure) }) where
  queue := rfl
  exhausted := rfl
  pulled := rfl
  within := Nat.zero_le _
  same further before := by
    have inside : further < tokens.length := by
      simpa [Buffer.asked, Buffer.ofSource] using before
    exact (Feed.ask_listed inside none).trans (Feed.ask_listed inside (some failure)).symm
  parting := by
    rintro _ ⟨⟩
    refine ⟨rfl, fun further before => ?_, fun further place => ?_, fun further place => ?_⟩
    · exact ⟨_, Feed.ask_listed (by simpa [Buffer.asked, Buffer.ofSource] using before) none⟩
    · obtain rfl : further = tokens.length := by
        simpa [Buffer.asked, Buffer.ofSource] using place
      exact Feed.ask_listed_past tokens none
    · obtain rfl : further = tokens.length := by
        simpa [Buffer.asked, Buffer.ofSource] using place
      exact Feed.ask_listed_past tokens (some failure)

/--
Reading a list with a failure behind it fails with that exactly if reading the list alone asks for
a token after the last. Else both come to the same.
-/
theorem IsNear.run_listed (near : grammar.IsNear) (interpreter : Option (Interpreter N))
    (tokens : List Token) (failure : Error) (exhaust : Bool) :
    let eager := grammar.run interpreter (.ofTokens tokens) exhaust
    let late := (grammar.run interpreter { feed := .listed tokens (some failure) } exhaust).1
    0 < eager.2.buffer.source.ends ∧ late = .error failure ∨
      eager.2.buffer.source.ends = 0 ∧ late = eager.1 := by
  have alongside : Alongside tokens.length (some failure)
      (grammar.inputWithin interpreter (tokens.length + 1) exhaust)
      ⟨.ofSource { feed := .listed tokens none }, []⟩
      ⟨.ofSource { feed := .listed tokens (some failure) }, []⟩ :=
    ((near.keepsTo interpreter).composed_inputWithin (fun _ => trivial) _ exhaust).parallel
      (inStep_listed tokens failure)
  cases alongside with
  | along outcome left => exact .inr ⟨(left.parting failure rfl).unended, outcome.symm⟩
  | beyond far fails =>
    obtain ⟨failed, ended⟩ := fails failure rfl
    exact .inl ⟨ended, failed⟩
  | broken unknown failed => cases unknown

end Grammar

namespace Expr

open Climb.Parser

/-- A lexical fault is none of the failures that come with reading a list of tokens. -/
theorem run_listed_not_lexical {interpreter : Option (Interpreter Expr)}
    (numeric : ∀ {node failure}, interpreted interpreter node = .error failure →
      failure.IsNumeric) (tokens : List Token) (exhaust : Bool) (fault : LexFault) :
    (grammar.run interpreter (.ofTokens tokens) exhaust).1 ≠ .error (.lexical fault) := by
  -- Its rules fail by their tokens, and all else is a failure of the numbers.
  let failures (failure : Error) : Prop := (∃ fault, failure = .parse fault) ∨ failure.IsNumeric
  have faults : ∀ fault, failures (.parse fault) := fun fault => .inl ⟨fault, rfl⟩
  have keeps : grammar.KeepsTo interpreter (· = 0) (fun _ => True) failures := by
    refine keepsTo (fun fault _ => faults fault) (fun _ _ failed => .inr ?_)
      fun failed => .inr (numeric failed)
    obtain ⟨fault, rfl⟩ := readNumber_fails failed
    trivial
  let fresh : ParseState Expr := ⟨.ofSource (.ofTokens tokens), []⟩
  have start : fresh.buffer.Supplies (fun _ => True) failures :=
    ⟨fun _ _ => trivial, fun _ _ _ => trivial, fun place failure failed => by
      cases (Feed.ask_listed_only place tokens none).2 failure failed⟩
  have fails := ((keeps.composed_inputWithin faults (tokens.length + 1) exhaust).fails
    faults start).2
  intro lexical
  rcases fails _ lexical with ⟨_, same⟩ | numeric
  · cases same
  · exact numeric

/-- Folding on the way, or building the tree as it stands. -/
def interpreterFor (fused : Bool) : Option (Interpreter Expr) :=
  if fused then some fold else none

/-- Both ways fail for a node at most with a failure of the numbers. -/
theorem interpreterFor_fails {fused : Bool} {node : Expr} {failure : Error}
    (failed : interpreted (interpreterFor fused) node = .error failure) : failure.IsNumeric := by
  cases fused with
  | false => cases failed
  | true => exact fold_fails failed

/--
Reading a text has the outcome of reading the list of its tokens. If the text has a lexical fault,
that is the outcome exactly if reading the tokens before it asks for one more, and else reading
these has the outcome. So a text that is used up has no lexical fault.
-/
theorem lexing_on_the_way_is_lexing_before (text : String) (exhaust fused : Bool) :
    let interpreter := interpreterFor fused
    let lazily := (grammar.run interpreter (.ofString text) exhaust).1
    match (Lexer.ofString text).lex.1 with
    | .ok tokens => lazily = (grammar.run interpreter (.ofTokens tokens) exhaust).1
    | .error fault =>
      let eager := grammar.run interpreter (.ofTokens (lex text).1) exhaust
      (lazily = .error fault ↔ 0 < eager.2.buffer.source.ends) ∧
        (eager.2.buffer.source.ends = 0 → lazily = eager.1) ∧
        (exhaust = true → ∀ expr, lazily ≠ .ok expr) := by
  intro interpreter lazily
  rcases known : (Scanner.ofString text).tokens with ⟨tokens, fault, stop⟩
  have shown : (Feed.scanned (.ofString text)).cursor = ⟨tokens, fault⟩ := by
    simp only [Feed.cursor, known]
  have length : tokens.length < (Feed.scanned (.ofString text)).size + 1 := by
    have bound := (Feed.scanned (.ofString text)).cursor_length
    rw [shown] at bound
    exact Nat.lt_succ_of_le bound
  -- The text is read like the list of its tokens with its fault behind them.
  have ends : (Feed.scanned (.ofString text)).Ends := trivial
  have otherEnds : (Feed.listed tokens fault).Ends := trivial
  have listed : lazily =
      (grammar.run interpreter { feed := .listed tokens fault } exhaust).1 :=
    Grammar.runWithin_outcome ends otherEnds shown (by rw [shown]; exact length)
      (by rw [shown]; exact Nat.lt_succ_self _)
  cases fault with
  | none =>
    simp only [Lexer.lex, Lexer.ofString, known]
    exact listed
  | some failure =>
    simp only [Lexer.lex, Lexer.ofString, lex, known]
    obtain ⟨fault, rfl⟩ := (Scanner.ofString text).tokens_lexical failure (by simp [known])
    have different := run_listed_not_lexical (@interpreterFor_fails fused) tokens exhaust fault
    have parted := grammar_isNear.run_listed interpreter tokens (.lexical fault) exhaust
    simp only [← listed] at parted
    refine ⟨?_, ?_, ?_⟩
    · rcases parted with ⟨asked, failed⟩ | ⟨unasked, same⟩
      · exact iff_of_true failed asked
      · -- What the list comes to is no lexical fault, so the text has not come to one.
        rw [same, unasked]
        exact iff_of_false different (Nat.lt_irrefl 0)
    · rcases parted with ⟨asked, -⟩ | ⟨-, same⟩
      · exact fun unasked => absurd unasked asked.ne'
      · exact fun _ => same
    · rintro rfl expr read
      have calm : (Feed.scanned (.ofString text)).cursor.failure = none :=
        ((Grammar.run_whole_iff ends).1 read).1
      rw [shown] at calm
      cases calm

/-- The dollar sign is come to only where the name before it is not all that was looked for. -/
example : (grammar.run none (.ofString "a$") false).1 =
    .error (.lexical (.unexpectedCharacter '$' 1)) := by cbv

end Expr

end Climb
