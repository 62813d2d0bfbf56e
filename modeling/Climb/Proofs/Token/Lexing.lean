import Climb.Proofs.Text.Classes
import Climb.Proofs.Token.Scanner

/-! Texts and their tokens: which characters make a token, and where one token ends. -/

namespace Climb

/-- A character that is a token on its own belongs to no other class. -/
theorem classes_of_punctuator {c : Char} {kind : Kind} (found : Kind.ofChar? c = some kind) :
    kind.punctuator? = some c ∧ isBlank c = false ∧ isDigit c = false ∧
      continuesName c = false ∧ c ≠ '.' := by
  have same : kind.punctuator? = some c := by
    simpa using List.find?_some found
  refine ⟨same, ?_⟩
  -- There are fourteen such characters.
  cases kind <;> cases same <;> decide

/-- A digit is neither white space nor a token on its own. -/
theorem classes_of_digit {c : Char} (digit : isDigit c = true) :
    isBlank c = false ∧ Kind.ofChar? c = none := by
  refine ⟨isBlank_of_isDigit digit, ?_⟩
  -- A token on its own would be no digit.
  cases found : Kind.ofChar? c with
  | none => rfl
  | some kind =>
    have other := (classes_of_punctuator found).2.2.1
    simp [digit] at other

/-- The start of a name is neither white space nor a digit nor a token on its own. -/
theorem classes_of_start {c : Char} (start : startsName c = true) :
    isBlank c = false ∧ isDigit c = false ∧ Kind.ofChar? c = none := by
  have single : Kind.ofChar? c = none := by
    cases found : Kind.ofChar? c with
    | none => rfl
    | some kind =>
      -- What starts a name can also continue one, which no punctuator does.
      have other := (classes_of_punctuator found).2.2.2.1
      simp only [startsName, Bool.or_eq_true] at start
      rcases start with letter | underscore
      · simp [continuesName, letter] at other
      · simp [continuesName, underscore] at other
  simp only [startsName, Bool.or_eq_true, beq_iff_eq] at start
  rcases start with letter | rfl
  · -- Letters lie above the digits.
    have above := toNat_of_isLetter letter
    refine ⟨isBlank_of_isLetter letter, ?_, single⟩
    rw [Bool.eq_false_iff]
    intro digit
    have range := isDigit_iff.1 digit
    omega
  · exact ⟨by decide, by decide, single⟩

/-- Whether a text is a name: a letter or an underscore, and what a name may go on with. -/
def isName (text : String) : Bool :=
  match text.toList with
  | [] => false
  | first :: rest => startsName first && rest.all continuesName

/-- A text that starts no token that could go on the one before it. -/
def Parted (text : List Char) : Prop :=
  ∀ c ∈ text.head?, (Kind.ofChar? c).isSome = true

/-- The end of a text goes on nothing. -/
theorem Parted.nil : Parted [] := by
  simp [Parted]

/-- A punctuator goes on nothing. -/
theorem Parted.cons (c : Char) (rest : List Char) (found : (Kind.ofChar? c).isSome = true) :
    Parted (c :: rest) := by
  simpa [Parted] using found

/-- As many characters as a run at the start of a text has are that run. -/
theorem take_run (holds : Char → Bool) (text : List Char) :
    text.take (text.takeWhile holds).length = text.takeWhile holds :=
  (List.prefix_iff_eq_take.1 (List.takeWhile_prefix _)).symm

/-- A run of characters of one class ends where a text starts that is parted from it. -/
theorem takeWhile_append_parted {holds : Char → Bool} {word rest : List Char}
    (inside : ∀ c ∈ word, holds c = true)
    (outside : ∀ {c kind}, Kind.ofChar? c = some kind → holds c = false) (parted : Parted rest) :
    (word ++ rest).takeWhile holds = word := by
  -- What follows starts with a punctuator, or not at all, and the run stops in front of it.
  apply takeWhile_append_stop inside
  intro c first
  obtain ⟨kind, found⟩ := Option.isSome_iff_exists.1 (parted c first)
  exact outside found

/-- The tokens of a text, wherever it stands, with no fault after them. -/
def Lexes (text : List Char) (tokens : List Token) : Prop :=
  ∀ offset, (Scanner.tokens ⟨text, offset⟩).1 = tokens ∧
    (Scanner.tokens ⟨text, offset⟩).2.1 = none

namespace Lexes

variable {text rest : List Char} {tokens : List Token} {kind : Kind} {c : Char}

/-- An empty text has no tokens. -/
theorem nil : Lexes [] [] :=
  fun _ => Scanner.tokens_nil rfl

/-- A text starts with the token of its first lexeme. -/
theorem cons (solid : ∀ c ∈ text.head?, isBlank c = false)
    (found : Scanner.lexeme? (text ++ rest) = some (kind, text.length))
    (later : Lexes rest tokens) :
    Lexes (text ++ rest) (.ofKind kind (String.ofList text) :: tokens) := by
  intro offset
  cases text with
  | nil =>
    have positive := Scanner.lexeme?_pos found
    simp at positive
  | cons first word =>
    -- No blank comes first, so the lexeme is read where the text starts.
    have start : Scanner.skipBlanks ⟨first :: word ++ rest, offset⟩ =
        ⟨first :: word ++ rest, offset⟩ := by
      simp [Scanner.skipBlanks, Scanner.advance, solid first rfl]
    have step : Scanner.next ⟨first :: word ++ rest, offset⟩ =
        (.ok (some (.ofKind kind (String.ofList (first :: word)))),
          ⟨rest, offset + (first :: word).length⟩) := by
      rw [List.cons_append] at found start ⊢
      simp only [Scanner.next, start, found, Scanner.advance]
      simp
    rw [Scanner.tokens_cons step]
    exact ⟨congrArg _ (later _).1, (later _).2⟩

/-- A punctuator is a token. -/
theorem punctuator (found : Kind.ofChar? c = some kind) (later : Lexes rest tokens) :
    Lexes (c :: rest) (.ofKind kind (String.singleton c) :: tokens) := by
  -- The scanner tries punctuators first, and they are one character long.
  have lexeme : Scanner.lexeme? ([c] ++ rest) = some (kind, 1) := by
    simp [Scanner.lexeme?, found]
  have solid : ∀ first ∈ [c].head?, isBlank first = false := by
    simpa using (classes_of_punctuator found).2.1
  exact cons solid lexeme later

/-- A name is a token, if it is parted from what follows. -/
theorem name {word : String} (named : isName word = true) (parted : Parted rest)
    (later : Lexes rest tokens) :
    Lexes (word.toList ++ rest) (.ofKind .name word :: tokens) := by
  simp only [isName] at named
  split at named
  · simp at named
  · rename_i first others same
    simp only [Bool.and_eq_true, List.all_eq_true] at named
    obtain ⟨blank, digit, single⟩ := classes_of_start named.1
    -- The run takes all of the name and none of what follows.
    have run : (others ++ rest).takeWhile continuesName = others :=
      takeWhile_append_parted named.2 (fun found => (classes_of_punctuator found).2.2.2.1) parted
    have lexeme : Scanner.lexeme? (word.toList ++ rest) = some (.name, word.toList.length) := by
      rw [same]
      simp only [List.cons_append, Scanner.lexeme?, single, digit, named.1, run]
      simp [Nat.add_comm]
    have solid : ∀ c ∈ word.toList.head?, isBlank c = false := by
      simpa [same] using blank
    simpa using cons solid lexeme later

/-- Digits are a number, if they are parted from what follows. -/
theorem digits {word : String} (some : word.toList ≠ [])
    (inside : ∀ c ∈ word.toList, isDigit c = true) (parted : Parted rest)
    (later : Lexes rest tokens) :
    Lexes (word.toList ++ rest) (.ofKind .number word :: tokens) := by
  have run : (word.toList ++ rest).takeWhile isDigit = word.toList :=
    takeWhile_append_parted inside (fun found => (classes_of_punctuator found).2.2.1) parted
  -- What follows is no point, so the number has no fraction.
  have length : Scanner.numberLength (word.toList ++ rest) = word.toList.length := by
    simp only [Scanner.numberLength, run, List.drop_left]
    split
    · obtain ⟨kind, found⟩ := Option.isSome_iff_exists.1 (parted '.' rfl)
      exact absurd rfl (classes_of_punctuator found).2.2.2.2
    · rfl
  obtain ⟨first, others, same⟩ := List.exists_cons_of_ne_nil some
  obtain ⟨blank, single⟩ := classes_of_digit (inside first (by simp [same]))
  have lexeme : Scanner.lexeme? (word.toList ++ rest) = .some (.number, word.toList.length) := by
    rw [same] at length inside ⊢
    simp only [List.cons_append, Scanner.lexeme?, single, inside first List.mem_cons_self]
    simpa using length
  have solid : ∀ c ∈ word.toList.head?, isBlank c = false := by
    simpa [same] using blank
  simpa using cons solid lexeme later

end Lexes

/-- A token as a text has it: a punctuator, a name, or digits if it is a number with no point. -/
inductive Token.IsLexeme : Token → Prop
  | punctuator {kind : Kind} {c : Char} (single : kind.punctuator? = some c) :
    IsLexeme (.ofKind kind (String.singleton c))
  | name {text : String} (named : isName text = true) : IsLexeme (.ofKind .name text)
  | number {text : String} (digits : '.' ∉ text.toList →
      text.toList ≠ [] ∧ ∀ c ∈ text.toList, isDigit c = true) :
    IsLexeme (.ofKind .number text)

namespace Scanner

/-- A number without a point in it is all digits. -/
theorem take_numberLength {text : List Char} (whole : '.' ∉ text.take (numberLength text)) :
    text.take (numberLength text) = text.takeWhile isDigit := by
  have length : numberLength text = (text.takeWhile isDigit).length := by
    simp only [numberLength] at whole ⊢
    split at whole
    · rename_i fraction behind
      split at whole
      · rename_i none
        simp [none]
      · -- A fraction would bring its point along.
        refine absurd ?_ whole
        rw [Nat.add_assoc, List.take_add, behind, Nat.add_comm 1]
        simp
    · rfl
  rw [length, take_run]

/-- The lexeme at the start of a text makes a token of its kind. -/
theorem lexeme_of_lexeme? {text : List Char} {kind : Kind} {length : Nat}
    (found : lexeme? text = some (kind, length)) :
    (Token.ofKind kind (String.ofList (text.take length))).IsLexeme := by
  cases text with
  | nil => simp [lexeme?] at found
  | cons c rest =>
    -- The scanner tries a punctuator, then a number, then a name, by the first character.
    simp only [lexeme?] at found
    split at found
    · rename_i known single
      simp only [Option.some.injEq, Prod.mk.injEq] at found
      obtain ⟨rfl, rfl⟩ := found
      exact .punctuator (classes_of_punctuator single).1
    · split at found
      · rename_i digit
        simp only [Option.some.injEq, Prod.mk.injEq] at found
        obtain ⟨rfl, rfl⟩ := found
        refine .number fun whole => ?_
        rw [String.toList_ofList] at whole ⊢
        rw [take_numberLength whole]
        exact ⟨by simp [digit], List.all_eq_true.1 List.all_takeWhile⟩
      · split at found
        · rename_i start
          simp only [Option.some.injEq, Prod.mk.injEq] at found
          obtain ⟨rfl, rfl⟩ := found
          refine .name ?_
          rw [Nat.add_comm, List.take_succ_cons, take_run]
          simp only [isName, String.toList_ofList, start, Bool.true_and, List.all_takeWhile]
        · simp at found

/-- The next token of a text is one that a text can have. -/
theorem next_lexeme {scanner after : Scanner} {token : Token}
    (found : scanner.next = (.ok (some token), after)) : token.IsLexeme := by
  simp only [next] at found
  -- Nothing is left, or the character starts no lexeme, or there is one.
  split at found
  · simp at found
  · split at found
    · simp at found
    · rename_i kind length located
      simp only [Prod.mk.injEq, Except.ok.injEq, Option.some.injEq] at found
      rw [← found.1]
      exact lexeme_of_lexeme? located

/-- A text is refused only by a lexical fault. -/
theorem next_lexical {scanner after : Scanner} {failure : Error}
    (failed : scanner.next = (.error failure, after)) : ∃ fault, failure = .lexical fault := by
  simp only [next] at failed
  split at failed
  · simp at failed
  · split at failed
    · simp only [Prod.mk.injEq, Except.error.injEq] at failed
      exact ⟨_, failed.1.symm⟩
    · simp at failed

/-- What holds of whatever a scanner comes up with next holds of all that a text has. -/
theorem tokens_all {tokens : Token → Prop} {failures : Error → Prop}
    (delivers : ∀ {scanner after : Scanner} {token}, scanner.next = (.ok (some token), after) →
      tokens token)
    (fails : ∀ {scanner after : Scanner} {failure}, scanner.next = (.error failure, after) →
      failures failure) (scanner : Scanner) :
    (∀ token ∈ scanner.tokens.1, tokens token) ∧
      ∀ failure ∈ scanner.tokens.2.1, failures failure := by
  -- The induction is on the length of the text, which every token shortens.
  induction size : scanner.rest.length using Nat.strongRecOn generalizing scanner with
  | ind size ih =>
    rcases found : scanner.next with ⟨outcome, after⟩
    match outcome with
    | .ok none => simp [tokens_end found]
    | .error failure => simpa [tokens_fault found] using fails found
    | .ok (some token) =>
      have shorter := next_length found
      obtain ⟨rest, fault⟩ := ih _ (size ▸ shorter) after rfl
      simp only [tokens_cons found, List.mem_cons, forall_eq_or_imp]
      exact ⟨⟨delivers found, rest⟩, fault⟩

/-- Every token of a text is one that a text can have. -/
theorem tokens_lexemes (scanner : Scanner) : ∀ token ∈ scanner.tokens.1, token.IsLexeme :=
  (scanner.tokens_all next_lexeme fun _ => trivial).1

/-- The fault of a text is a lexical one. -/
theorem tokens_lexical (scanner : Scanner) :
    ∀ failure ∈ scanner.tokens.2.1, ∃ fault, failure = .lexical fault :=
  (scanner.tokens_all (fun _ => trivial) next_lexical).2

end Scanner

end Climb
