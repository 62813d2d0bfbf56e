import Climb.Token.Scanner

/-! Scanning makes progress, so the bound on the search for tokens is never felt. -/

namespace Climb.Scanner

/-- Skipping blanks never makes a text longer. -/
theorem skipBlanks_length (scanner : Scanner) :
    scanner.skipBlanks.rest.length ≤ scanner.rest.length := by
  simp [skipBlanks, advance]

/-- A number that starts with a digit has at least one character. -/
theorem numberLength_pos {c : Char} (digit : isDigit c = true) (rest : List Char) :
    0 < numberLength (c :: rest) := by
  -- The digits before the point already count.
  have whole : 0 < ((c :: rest).takeWhile isDigit).length := by simp [digit]
  simp only [numberLength]
  split
  · split <;> omega
  · exact whole

/-- Every lexeme has at least one character. -/
theorem lexeme?_pos {text : List Char} {kind : Kind} {length : Nat}
    (found : lexeme? text = some (kind, length)) : 0 < length := by
  cases text with
  | nil => simp [lexeme?] at found
  | cons c rest =>
    simp only [lexeme?] at found
    split at found
    · -- A punctuator is one character.
      simp only [Option.some.injEq, Prod.mk.injEq] at found
      omega
    · -- What is no punctuator is a number, a name, or no lexeme at all.
      split at found
      · rename_i digit
        simp only [Option.some.injEq, Prod.mk.injEq] at found
        have := numberLength_pos digit rest
        omega
      · split at found
        · simp only [Option.some.injEq, Prod.mk.injEq] at found
          omega
        · simp at found

/-- Delivering a token uses up at least one character. -/
theorem next_length {scanner after : Scanner} {token : Token}
    (found : scanner.next = (.ok (some token), after)) :
    after.rest.length < scanner.rest.length := by
  have skipped := scanner.skipBlanks_length
  simp only [next] at found
  -- The scanner skips blanks first, which never lengthens the text.
  split at found
  · simp at found
  · rename_i c rest start
    split at found
    · simp at found
    · rename_i kind length located
      -- The lexeme is cut off behind the blanks, and it has a character.
      have positive := lexeme?_pos located
      simp only [Prod.mk.injEq] at found
      rw [← found.2]
      simp only [advance, List.length_drop]
      have : scanner.skipBlanks.rest.length ≠ 0 := by simp [start]
      omega

/-- At the end of a text nothing is left of it. -/
theorem next_end {scanner after : Scanner} (found : scanner.next = (.ok none, after)) :
    after.rest = [] := by
  simp only [next] at found
  -- The end is reported only where nothing but white space was left.
  split at found
  · rename_i start
    simp only [Prod.mk.injEq] at found
    rw [← found.2]
    exact start
  · split at found <;> simp at found

/-- Two searches that are both long enough find the same. -/
theorem drain_eq {first : Nat} : ∀ {second : Nat} {scanner : Scanner},
    scanner.rest.length < first → scanner.rest.length < second →
      scanner.drain first = scanner.drain second := by
  -- Each token shortens the text, so both bounds stay ahead of it.
  induction first with
  | zero => intro second scanner long _; omega
  | succ first ih =>
    intro second scanner long longer
    cases second with
    | zero => omega
    | succ second =>
      simp only [drain]
      split
      · rfl
      · rfl
      · rename_i token after found
        have shorter := next_length found
        have same : after.drain first = after.drain second := ih (by omega) (by omega)
        rw [same]

/-- At the end of a text there are no tokens. -/
theorem tokens_end {scanner stop : Scanner} (found : scanner.next = (.ok none, stop)) :
    scanner.tokens = ([], none, stop) := by
  simp only [tokens, drain, found]

/-- A fault ends the tokens. -/
theorem tokens_fault {scanner stop : Scanner} {fault : Error}
    (found : scanner.next = (.error fault, stop)) : scanner.tokens = ([], some fault, stop) := by
  simp only [tokens, drain, found]

/-- The tokens of a text are the first one and those of the rest. -/
theorem tokens_cons {scanner after : Scanner} {token : Token}
    (found : scanner.next = (.ok (some token), after)) :
    scanner.tokens = (token :: after.tokens.1, after.tokens.2) := by
  -- The rest of the text is searched within a bound that is still large enough.
  have shorter := next_length found
  have same : after.drain scanner.rest.length = after.tokens :=
    drain_eq shorter (Nat.lt_succ_self _)
  rw [tokens, drain, found]
  simp only [same]

/-- A text with nothing left has no tokens. -/
theorem tokens_nil {scanner : Scanner} (empty : scanner.rest = []) :
    scanner.tokens.1 = [] ∧ scanner.tokens.2.1 = none := by
  simp [tokens, drain, next, skipBlanks, advance, empty]

/-- A text has no more tokens than characters. -/
theorem tokens_length (scanner : Scanner) :
    scanner.tokens.1.length ≤ scanner.rest.length := by
  -- The induction is on the length of the text, which every token shortens.
  induction size : scanner.rest.length using Nat.strongRecOn generalizing scanner with
  | ind size ih =>
    rcases found : scanner.next with ⟨outcome, after⟩
    match outcome with
    | .ok none => simp [tokens_end found]
    | .error fault => simp [tokens_fault found]
    | .ok (some token) =>
      have shorter := next_length found
      have rest := ih _ (size ▸ shorter) after rfl
      simp only [tokens_cons found, List.length_cons]
      omega

end Climb.Scanner
