import Climb.Proofs.Token.Lexing

/-! The lexical grammar: what the lexemes of each kind are, written out character by character. -/

namespace Climb

/-- A non-empty run of digits. -/
def IsDigits (text : List Char) : Prop :=
  text ≠ [] ∧ ∀ c ∈ text, isDigit c = true

instance (text : List Char) : Decidable (IsDigits text) :=
  decidable_of_iff (text ≠ [] ∧ text.all isDigit = true) (and_congr Iff.rfl List.all_eq_true)

/-- The lexical grammar: which texts are lexemes of a kind. -/
inductive Kind.Admits : Kind → List Char → Prop
  /-- A letter or an underscore, then letters, numerals of any script and underscores. -/
  | name {first : Char} {rest : List Char} (start : isLetter first = true ∨ first = '_')
      (inside : ∀ c ∈ rest, isLetter c = true ∨ isNumeral c = true ∨ c = '_') :
    Admits .name (first :: rest)
  /-- Digits. -/
  | whole {digits : List Char} (inside : IsDigits digits) : Admits .number digits
  /-- Digits on both sides of a point. -/
  | decimal {digits fraction : List Char} (inside : IsDigits digits) (behind : IsDigits fraction) :
    Admits .number (digits ++ '.' :: fraction)
  /-- A single character of its own. -/
  | punctuator {kind : Kind} {c : Char} (single : kind.punctuator? = some c) : Admits kind [c]

/-- A name starts with a letter or an underscore. -/
theorem startsName_iff {c : Char} : startsName c = true ↔ isLetter c = true ∨ c = '_' := by
  simp [startsName]

/-- A name goes on with letters, numerals and underscores. -/
theorem continuesName_iff {c : Char} :
    continuesName c = true ↔ isLetter c = true ∨ isNumeral c = true ∨ c = '_' := by
  simp [continuesName, or_assoc]

/-- No two kinds have the same character. -/
theorem Kind.ofChar?_of_punctuator {kind : Kind} {c : Char} (single : kind.punctuator? = some c) :
    Kind.ofChar? c = some kind := by
  cases kind <;> cases single <;> rfl

/-- The first character of a lexeme tells its kind. -/
theorem Kind.Admits.first {kind : Kind} {word : List Char} (admitted : kind.Admits word) :
    ∃ c rest, word = c :: rest ∧
      (kind = .name ∧ startsName c = true ∨ kind = .number ∧ isDigit c = true ∨
        kind.punctuator? = some c) := by
  cases admitted with
  | name start inside => exact ⟨_, _, rfl, .inl ⟨rfl, startsName_iff.2 start⟩⟩
  | whole inside =>
    obtain ⟨c, rest, rfl⟩ := List.exists_cons_of_ne_nil inside.1
    exact ⟨c, rest, rfl, .inr (.inl ⟨rfl, inside.2 c List.mem_cons_self⟩)⟩
  | decimal inside behind =>
    obtain ⟨c, rest, rfl⟩ := List.exists_cons_of_ne_nil inside.1
    exact ⟨c, _, rfl, .inr (.inl ⟨rfl, inside.2 c List.mem_cons_self⟩)⟩
  | punctuator single => exact ⟨_, [], rfl, .inr (.inr single)⟩

/-- A number has a point with digits on both sides, or is digits alone. -/
theorem Kind.Admits.number_cases {word : List Char} (admitted : Kind.number.Admits word) :
    IsDigits word ∨ ∃ digits fraction, word = digits ++ '.' :: fraction ∧ IsDigits digits ∧
      IsDigits fraction := by
  cases admitted with
  | whole inside => exact .inl inside
  | decimal inside behind => exact .inr ⟨_, _, rfl, inside, behind⟩
  | punctuator single => cases single

/-- No lexeme starts with white space. -/
theorem Kind.Admits.solid {kind : Kind} {word : List Char} (admitted : kind.Admits word) :
    ∀ c ∈ word.head?, isBlank c = false := by
  -- Letters, digits and punctuators are none.
  obtain ⟨c, rest, rfl, ⟨-, start⟩ | ⟨-, digit⟩ | single⟩ := admitted.first
  · simpa using (classes_of_start start).1
  · simpa using isBlank_of_isDigit digit
  · simpa using (classes_of_punctuator (Kind.ofChar?_of_punctuator single)).2.1

/-- No lexeme of whatever kind at the start of a text is longer than a word. -/
def Longest (word text : List Char) : Prop :=
  ∀ (kind : Kind) (longer : List Char), kind.Admits longer → longer <+: text →
    longer.length ≤ word.length

namespace Scanner

/-- The digits that a text starts with are no longer than its number. -/
theorem le_numberLength (text : List Char) :
    (text.takeWhile isDigit).length ≤ numberLength text := by
  simp only [numberLength]
  -- A fraction only makes the number longer.
  split
  · split <;> omega
  · exact Nat.le_refl _

/-- A number ends with its digits where neither a digit nor a point follows. -/
theorem numberLength_whole {digits rest : List Char} (inside : ∀ c ∈ digits, isDigit c = true)
    (stop : ∀ c ∈ rest.head?, isDigit c = false) (point : rest.head? ≠ some '.') :
    numberLength (digits ++ rest) = digits.length := by
  have run : (digits ++ rest).takeWhile isDigit = digits := takeWhile_append_stop inside stop
  simp only [numberLength, run, List.drop_left]
  -- What follows the digits is looked at only for a point.
  split
  · exact absurd rfl point
  · rfl

/-- A point with digits behind it takes all of them into the number. -/
theorem numberLength_decimal {digits fraction : List Char} (inside : ∀ c ∈ digits, isDigit c = true)
    (behind : IsDigits fraction) (rest : List Char) :
    numberLength (digits ++ '.' :: (fraction ++ rest))
      = (digits ++ '.' :: fraction).length + (rest.takeWhile isDigit).length := by
  have run : (digits ++ '.' :: (fraction ++ rest)).takeWhile isDigit = digits := by
    -- The point is no digit, so the first run ends in front of it.
    refine takeWhile_append_stop inside fun c first => ?_
    obtain rfl : '.' = c := Option.some.inj first
    decide
  have after : (fraction ++ rest).takeWhile isDigit = fraction ++ rest.takeWhile isDigit :=
    List.takeWhile_append_of_pos behind.2
  have some : 0 < fraction.length := List.length_pos_iff.mpr behind.1
  simp only [numberLength, run, List.drop_left, after, List.length_append, List.length_cons]
  -- There is a digit behind the point, so the case without one does not arise.
  split <;> omega

/-- What starts like a name is scanned as one. -/
theorem lexeme?_name {first : Char} (start : isLetter first = true ∨ first = '_')
    (rest : List Char) :
    lexeme? (first :: rest) = some (.name, 1 + (rest.takeWhile continuesName).length) := by
  obtain ⟨-, digit, single⟩ := classes_of_start (startsName_iff.2 start)
  simp [lexeme?, single, digit, startsName_iff.2 start]

/-- What starts with digits is scanned as a number. -/
theorem lexeme?_number {digits : List Char} (inside : IsDigits digits) (rest : List Char) :
    lexeme? (digits ++ rest) = some (.number, numberLength (digits ++ rest)) := by
  obtain ⟨some, every⟩ := inside
  obtain ⟨first, others, rfl⟩ := List.exists_cons_of_ne_nil some
  have digit : isDigit first = true := every first List.mem_cons_self
  simp [lexeme?, (classes_of_digit digit).2, digit]

/-- A punctuator is scanned as one. -/
theorem lexeme?_punctuator {kind : Kind} {c : Char} (single : kind.punctuator? = some c)
    (rest : List Char) : lexeme? (c :: rest) = some (kind, 1) := by
  simp [lexeme?, Kind.ofChar?_of_punctuator single]

/-- What is scanned is at least as long as any lexeme that the text starts with. -/
theorem lexeme?_longest {text word : List Char} {kind other : Kind} {length : Nat}
    (found : lexeme? text = some (kind, length)) (admitted : other.Admits word)
    (front : word <+: text) : word.length ≤ length := by
  obtain ⟨more, rfl⟩ := front
  -- The first characters of the lexeme decide what the scanner has measured.
  cases admitted with
  | @name first rest start inside =>
    have run : ∀ c ∈ rest, continuesName c = true := fun c member =>
      continuesName_iff.2 (inside c member)
    rw [List.cons_append, lexeme?_name start, List.takeWhile_append_of_pos run] at found
    simp only [Option.some.injEq, Prod.mk.injEq, List.length_append] at found
    simp only [List.length_cons]
    omega
  | whole inside =>
    have least := le_numberLength (word ++ more)
    rw [List.takeWhile_append_of_pos inside.2, List.length_append] at least
    simp only [lexeme?_number inside, Option.some.injEq, Prod.mk.injEq] at found
    omega
  | @decimal digits fraction inside behind =>
    rw [List.append_assoc, lexeme?_number inside, List.cons_append,
      numberLength_decimal inside.2 behind] at found
    simp only [Option.some.injEq, Prod.mk.injEq] at found
    omega
  | punctuator single => exact lexeme?_pos found

/-- The number at the start of a text is one of the lexical grammar. -/
theorem numberLength_admits {text : List Char} (some : text.takeWhile isDigit ≠ []) :
    ∃ word rest, text = word ++ rest ∧ word.length = numberLength text ∧
      Kind.number.Admits word := by
  have digits : IsDigits (text.takeWhile isDigit) :=
    ⟨some, List.all_eq_true.1 List.all_takeWhile⟩
  have parts := List.take_append_drop (text.takeWhile isDigit).length text
  rw [take_run] at parts
  simp only [numberLength]
  -- Behind the digits there is a point or not, and behind the point digits or not.
  split
  · rename_i fraction behind
    split
    · exact ⟨_, _, parts.symm, rfl, .whole digits⟩
    · -- The point and the digits behind it come along.
      rename_i more
      refine ⟨text.takeWhile isDigit ++ '.' :: fraction.takeWhile isDigit,
        fraction.dropWhile isDigit, ?_, ?_, ?_⟩
      · rw [List.append_assoc, List.cons_append, List.takeWhile_append_dropWhile, ← behind, parts]
      · simp only [List.length_append, List.length_cons]
        omega
      · exact .decimal digits ⟨fun none => more (by rw [none]; rfl),
          List.all_eq_true.1 List.all_takeWhile⟩
  · exact ⟨_, _, parts.symm, rfl, .whole digits⟩

/-- What is scanned is a lexeme of its kind. -/
theorem lexeme?_admits {text : List Char} {kind : Kind} {length : Nat}
    (found : lexeme? text = some (kind, length)) :
    ∃ word rest, text = word ++ rest ∧ word.length = length ∧ kind.Admits word := by
  cases text with
  | nil => simp [lexeme?] at found
  | cons c rest =>
    -- The scanner tries a punctuator, then a number, then a name, by the first character.
    simp only [lexeme?] at found
    split at found
    · rename_i single
      simp only [Option.some.injEq, Prod.mk.injEq] at found
      obtain ⟨rfl, rfl⟩ := found
      exact ⟨[c], rest, rfl, rfl, .punctuator (classes_of_punctuator single).1⟩
    · split at found
      · rename_i digit
        simp only [Option.some.injEq, Prod.mk.injEq] at found
        obtain ⟨rfl, rfl⟩ := found
        exact numberLength_admits (by simp [digit])
      · split at found
        · rename_i start
          simp only [Option.some.injEq, Prod.mk.injEq] at found
          obtain ⟨rfl, rfl⟩ := found
          refine ⟨c :: rest.takeWhile continuesName, rest.dropWhile continuesName, ?_, ?_, ?_⟩
          · rw [List.cons_append, List.takeWhile_append_dropWhile]
          · rw [List.length_cons, Nat.add_comm]
          · exact .name (startsName_iff.1 start) fun c member =>
              continuesName_iff.1 (List.all_eq_true.1 List.all_takeWhile c member)
        · simp at found

/-- The next token of a text is a lexeme of its kind. -/
theorem next_admits {scanner after : Scanner} {token : Token}
    (found : scanner.next = (.ok (some token), after)) :
    ∃ kind word, token = .ofKind kind (String.ofList word) ∧ kind.Admits word := by
  simp only [next] at found
  split at found
  · simp at found
  · rename_i c rest start
    split at found
    · simp at found
    · rename_i kind length located
      obtain ⟨word, left, whole, rfl, admitted⟩ := lexeme?_admits located
      simp only [Prod.mk.injEq, Except.ok.injEq, Option.some.injEq] at found
      exact ⟨kind, word, by rw [← found.1, whole, List.take_left], admitted⟩

/-- Every token of a text is a lexeme of its kind. -/
theorem tokens_admitted (scanner : Scanner) : ∀ token ∈ scanner.tokens.1,
    ∃ kind word, token = .ofKind kind (String.ofList word) ∧ kind.Admits word :=
  (scanner.tokens_all next_admits fun _ => trivial).1

/-- A text that starts with a lexeme is scanned for its kind. -/
theorem exists_lexeme? {kind : Kind} {word : List Char} (admitted : kind.Admits word)
    (rest : List Char) : ∃ length, lexeme? (word ++ rest) = some (kind, length) := by
  cases admitted with
  | name start inside => exact ⟨_, lexeme?_name start _⟩
  | whole inside => exact ⟨_, lexeme?_number inside rest⟩
  | @decimal digits fraction inside behind =>
    rw [List.append_assoc]
    exact ⟨_, lexeme?_number inside _⟩
  | punctuator single => exact ⟨1, lexeme?_punctuator single rest⟩

/-- What is scanned is the longest lexeme at the start of a text, and its kind. -/
theorem lexeme?_eq_some_iff {text : List Char} {kind : Kind} {length : Nat} :
    lexeme? text = some (kind, length) ↔
      ∃ word rest, text = word ++ rest ∧ word.length = length ∧ kind.Admits word ∧
        Longest word text := by
  constructor
  · -- Whatever else the text starts with has been measured as well.
    intro found
    obtain ⟨word, rest, rfl, rfl, admitted⟩ := lexeme?_admits found
    exact ⟨word, rest, rfl, rfl, admitted, fun _ _ => lexeme?_longest found⟩
  · rintro ⟨word, rest, rfl, rfl, admitted, longest⟩
    obtain ⟨length, found⟩ := exists_lexeme? admitted rest
    obtain ⟨other, left, same, rfl, fits⟩ := lexeme?_admits found
    -- Neither of the two lexemes is longer than the other.
    have above : word.length ≤ other.length :=
      lexeme?_longest found admitted (List.prefix_append word rest)
    have below : other.length ≤ word.length := longest kind other fits ⟨left, same.symm⟩
    rw [found, Nat.le_antisymm above below]

/-- A character that no lexeme starts with. -/
theorem lexeme?_eq_none {c : Char} {rest : List Char} (none : lexeme? (c :: rest) = none) :
    (∀ kind : Kind, kind.punctuator? ≠ some c) ∧ isDigit c = false ∧ isLetter c = false ∧
      c ≠ '_' := by
  -- A character of any of the classes would have been scanned.
  refine ⟨fun kind single => ?_, ?_, ?_, fun underscore => ?_⟩
  · simp [lexeme?_punctuator single] at none
  · rw [Bool.eq_false_iff]
    intro digit
    have digits : IsDigits [c] := ⟨List.cons_ne_nil c [], by simpa using digit⟩
    have read := lexeme?_number digits rest
    simp [none] at read
  · rw [Bool.eq_false_iff]
    intro letter
    simp [lexeme?_name (.inl letter)] at none
  · simp [lexeme?_name (.inr underscore)] at none

end Scanner

/-- What follows a lexeme of a kind does not go on with it. -/
def Kind.EndsBefore (kind : Kind) (rest : List Char) : Prop :=
  ∀ c ∈ rest.head?, match kind with
    | .name => continuesName c = false
    | .number => isDigit c = false ∧ c ≠ '.'
    | _ => True

/-- A lexeme that nothing goes on with is what is scanned. -/
theorem Kind.Admits.scanned {kind : Kind} {word rest : List Char} (admitted : kind.Admits word)
    (ends : kind.EndsBefore rest) :
    Scanner.lexeme? (word ++ rest) = some (kind, word.length) := by
  -- Each run that the scanner measures stops where the lexeme ends.
  cases admitted with
  | name start inside =>
    have run := takeWhile_append_stop (fun c member => continuesName_iff.2 (inside c member)) ends
    rw [List.cons_append, Scanner.lexeme?_name start, run, List.length_cons, Nat.add_comm]
  | whole inside =>
    have point : rest.head? ≠ some '.' := fun first => (ends '.' first).2 rfl
    rw [Scanner.lexeme?_number inside,
      Scanner.numberLength_whole inside.2 (fun c first => (ends c first).1) point]
  | @decimal digits fraction inside behind =>
    -- Behind the fraction a point would not matter.
    have stop : ([] ++ rest).takeWhile isDigit = [] :=
      takeWhile_append_stop (by simp) fun c first => (ends c first).1
    rw [List.append_assoc, Scanner.lexeme?_number inside, List.cons_append,
      Scanner.numberLength_decimal inside.2 behind, ← List.nil_append rest, stop]
    rfl
  | punctuator single => exact Scanner.lexeme?_punctuator single rest

/-- A character that is inside neither a name nor a number goes on with no lexeme. -/
theorem Kind.endsBefore_cons (kind : Kind) {c : Char} (name : continuesName c = false)
    (digit : isDigit c = false) (point : c ≠ '.') (rest : List Char) :
    kind.EndsBefore (c :: rest) := by
  intro first same
  obtain rfl : c = first := Option.some.inj same
  cases kind <;> first | exact name | exact ⟨digit, point⟩ | trivial

/-- White space goes on with no lexeme. -/
theorem Kind.endsBefore_of_isBlank (kind : Kind) {c : Char} (blank : isBlank c = true)
    (rest : List Char) : kind.EndsBefore (c :: rest) := by
  -- No letter, no numeral and no digit is white space, and neither are the two marks.
  have name : continuesName c = false := by
    rw [Bool.eq_false_iff]
    intro continues
    rcases continuesName_iff.1 continues with letter | numeral | rfl
    · simp [isBlank_of_isLetter letter] at blank
    · simp [isBlank_of_isNumeral numeral] at blank
    · exact absurd blank (by decide)
  have digit : isDigit c = false := by
    rw [Bool.eq_false_iff]
    intro digit
    simp [isBlank_of_isDigit digit] at blank
  apply kind.endsBefore_cons name digit
  rintro rfl
  exact absurd blank (by decide)

end Climb
