import Climb.Proofs.Token.Lexemes
import Climb.Token.Lexer

/-! Maximal munch: a text is cut into the longest lexemes, with white space between them. -/

namespace Climb

/-- White space, or nothing. -/
def IsSpace (text : List Char) : Prop :=
  ∀ c ∈ text, isBlank c = true

instance (text : List Char) : Decidable (IsSpace text) :=
  decidable_of_iff (text.all isBlank = true) List.all_eq_true

/-- A lexeme with the white space behind it. -/
structure Piece where
  kind : Kind
  word : List Char
  space : List Char
  lexeme : kind.Admits word
  blank : IsSpace space

namespace Piece

/-- The token of a lexeme: its kind and its text. -/
def token (piece : Piece) : Token :=
  .ofKind piece.kind (String.ofList piece.word)

/-- The text of some lexemes, each with the white space behind it. -/
def written : List Piece → List Char
  | [] => []
  | piece :: rest => piece.word ++ (piece.space ++ written rest)

/-- Each lexeme is the longest at its place in a text that ends with a given rest. -/
def Greedy : List Piece → List Char → Prop
  | [], _ => True
  | piece :: others, rest =>
    Longest piece.word (written (piece :: others) ++ rest) ∧ Greedy others rest

/-- Whether a lexeme of the second kind would go on with one of the first. -/
def joins : Kind → Kind → Bool
  | .name, .name | .name, .number | .number, .number => true
  | _, _ => false

/-- Between two neighbours that would run together there is white space. -/
def Apart : List Piece → Prop
  | [] => True
  | piece :: rest =>
    (∀ next ∈ rest.head?, joins piece.kind next.kind = true → piece.space ≠ []) ∧ Apart rest

/-- What follows a lexeme that is apart from the next one does not go on with it. -/
theorem endsBefore {piece : Piece} {rest : List Piece} (apart : Apart (piece :: rest)) :
    piece.kind.EndsBefore (piece.space ++ written rest) := by
  cases space : piece.space with
  | cons c others =>
    -- White space parts the lexeme from whatever follows.
    have blank : isBlank c = true := piece.blank c (by simp [space])
    exact Kind.endsBefore_of_isBlank piece.kind blank _
  | nil =>
    -- With nothing between them, the two kinds are none that run together.
    cases rest with
    | nil => exact fun c first => by simp [written] at first
    | cons next rest =>
      have parted : joins piece.kind next.kind = false := by
        rw [Bool.eq_false_iff]
        exact fun joined => apart.1 next rfl joined space
      obtain ⟨c, others, word, opening⟩ := next.lexeme.first
      have whole : [] ++ written (next :: rest) =
          c :: (others ++ (next.space ++ written rest)) := by
        simp only [written, word, List.nil_append, List.cons_append]
      rw [whole]
      rcases opening with ⟨name, start⟩ | ⟨number, -⟩ | single
      · -- A name goes on with a name only, which is parted from it.
        obtain ⟨-, digit, -⟩ := classes_of_start start
        intro first same
        obtain rfl : c = first := Option.some.inj same
        have point : c ≠ '.' := by
          rintro rfl
          exact absurd start (by decide)
        cases kind : piece.kind with
        | name =>
          rw [kind, name] at parted
          exact absurd parted (by decide)
        | number => exact ⟨digit, point⟩
        | _ => trivial
      · -- A number goes on with a name or a number, and both are parted from it.
        intro first same
        cases kind : piece.kind with
        | name =>
          rw [kind, number] at parted
          exact absurd parted (by decide)
        | number =>
          rw [kind, number] at parted
          exact absurd parted (by decide)
        | _ => trivial
      · -- A punctuator goes on with nothing.
        obtain ⟨-, -, digit, name, point⟩ :=
          classes_of_punctuator (Kind.ofChar?_of_punctuator single)
        exact piece.kind.endsBefore_cons name digit point _

end Piece

namespace Scanner

/-- White space in front of a text is skipped with the white space that the text starts with. -/
theorem skipBlanks_append {space : List Char} (blank : IsSpace space) (text : List Char)
    (offset : Nat) :
    skipBlanks ⟨space ++ text, offset⟩ = skipBlanks ⟨text, offset + space.length⟩ := by
  have run : (space ++ text).takeWhile isBlank = space ++ text.takeWhile isBlank :=
    List.takeWhile_append_of_pos blank
  simp only [skipBlanks, advance, run, List.length_append, ← List.drop_drop, List.drop_left,
    Nat.add_assoc]

/-- Places in a text that lead to the same next token lead to the same tokens. -/
theorem tokens_congr {scanner other : Scanner} (same : scanner.next = other.next) :
    scanner.tokens = other.tokens := by
  rcases found : other.next with ⟨outcome, after⟩
  rw [found] at same
  -- The bounds on the two searches differ, so each outcome of the first step is taken by itself.
  match outcome with
  | .ok none => rw [tokens_end same, tokens_end found]
  | .error fault => rw [tokens_fault same, tokens_fault found]
  | .ok (some token) => rw [tokens_cons same, tokens_cons found]

end Scanner

/-- White space in front of a text is no part of its tokens. -/
theorem Lexes.blanks {space text : List Char} {tokens : List Token} (blank : IsSpace space)
    (later : Lexes text tokens) : Lexes (space ++ text) tokens := by
  intro offset
  have same : Scanner.next ⟨space ++ text, offset⟩
      = Scanner.next ⟨text, offset + space.length⟩ := by
    simp only [Scanner.next, Scanner.skipBlanks_append blank]
  rw [Scanner.tokens_congr same]
  exact later _

namespace Piece

/-- Lexemes that are apart are the tokens of their text. -/
theorem lexes {pieces : List Piece} (apart : Apart pieces) :
    Lexes (written pieces) (pieces.map token) := by
  -- Along the lexemes: nothing goes on with the first, and the white space behind it is skipped.
  induction pieces with
  | nil => exact Lexes.nil
  | cons piece rest ih =>
    have scanned := piece.lexeme.scanned (endsBefore apart)
    exact Lexes.cons piece.lexeme.solid scanned (Lexes.blanks piece.blank (ih apart.2))

end Piece

/-- A character that is neither white space nor the start of a lexeme. -/
structure Unlexed (c : Char) : Prop where
  blank : isBlank c = false
  single : ∀ kind : Kind, kind.punctuator? ≠ some c
  digit : isDigit c = false
  letter : isLetter c = false
  underscore : c ≠ '_'

/-- How the search for tokens ends in front of a rest: without a fault if nothing is left, else at a
character of no token, which the fault names with its place. -/
def Stops (place : Nat) : List Char → Option Error → Prop
  | [], fault => fault = none
  | c :: _, fault => fault = some (.lexical (.unexpectedCharacter c place)) ∧ Unlexed c

/-- A text as a scanner cuts it: white space, the longest lexemes with white space behind them, and
a rest that has no token. -/
structure Cut (scanner : Scanner) (space : List Char) (pieces : List Piece) (rest : List Char) :
    Prop where
  blank : IsSpace space
  whole : scanner.rest = space ++ (Piece.written pieces ++ rest)
  tokens : scanner.tokens.1 = pieces.map Piece.token
  greedy : Piece.Greedy pieces rest
  stops : Stops (scanner.offset + (space ++ Piece.written pieces).length) rest scanner.tokens.2.1

/-- A lexeme that is read and the cut of what is behind it make a cut. -/
theorem Cut.cons {scanner : Scanner} {kind : Kind} {space word left behind rest : List Char}
    {pieces : List Piece} (blank : IsSpace space) (whole : scanner.rest = space ++ (word ++ left))
    (step : scanner.next = (.ok (some (.ofKind kind (String.ofList word))),
      ⟨left, scanner.offset + space.length + word.length⟩))
    (admitted : kind.Admits word) (longest : Longest word (word ++ left))
    (later : Cut ⟨left, scanner.offset + space.length + word.length⟩ behind pieces rest) :
    Cut scanner space (⟨kind, word, behind, admitted, later.blank⟩ :: pieces) rest := by
  have known : left = behind ++ (Piece.written pieces ++ rest) := later.whole
  have text : word ++ left
      = Piece.written (⟨kind, word, behind, admitted, later.blank⟩ :: pieces) ++ rest := by
    simp only [Piece.written, List.append_assoc]
    exact congrArg (word ++ ·) known
  have place : scanner.offset + space.length + word.length + (behind ++ Piece.written pieces).length
      = scanner.offset + (space ++ Piece.written
          (⟨kind, word, behind, admitted, later.blank⟩ :: pieces)).length := by
    simp only [Piece.written, List.length_append]
    omega
  have tokens := Scanner.tokens_cons step
  -- The text and the place of its end are those of the later cut, with the lexeme in front.
  refine ⟨blank, whole.trans (congrArg (space ++ ·) text), ?_, ⟨text ▸ longest, later.greedy⟩, ?_⟩
  · rw [tokens, later.tokens]
    rfl
  · rw [tokens, ← place]
    exact later.stops

namespace Scanner

/-- The scanner skips exactly the white space that a text starts with. -/
theorem skipBlanks_eq (scanner : Scanner) : ∃ space behind, IsSpace space ∧
    scanner.rest = space ++ behind ∧ (∀ c ∈ behind.head?, isBlank c = false) ∧
      scanner.skipBlanks = ⟨behind, scanner.offset + space.length⟩ := by
  have parts := List.take_append_drop (scanner.rest.takeWhile isBlank).length scanner.rest
  rw [take_run] at parts
  have same := List.append_cancel_left (parts.trans (List.takeWhile_append_dropWhile).symm)
  refine ⟨scanner.rest.takeWhile isBlank, scanner.rest.dropWhile isBlank,
    List.all_eq_true.1 List.all_takeWhile, (List.takeWhile_append_dropWhile).symm, ?_, ?_⟩
  · intro c first
    -- The run of white space would have gone on.
    have stopped := List.head?_dropWhile_not isBlank scanner.rest
    rw [Option.mem_def.1 first] at stopped
    exact stopped
  · simp only [skipBlanks, advance, same]

/-- Every text is cut into the longest lexemes, up to its end or its first fault. -/
theorem exists_cut (scanner : Scanner) : ∃ space pieces rest, Cut scanner space pieces rest := by
  -- The induction is on the length of the text, which every token shortens.
  induction size : scanner.rest.length using Nat.strongRecOn generalizing scanner with
  | ind size ih =>
    obtain ⟨space, behind, blank, whole, solid, skipped⟩ := scanner.skipBlanks_eq
    cases behind with
    | nil =>
      -- Nothing but white space is left.
      have step : scanner.next = (.ok none, ⟨[], scanner.offset + space.length⟩) := by
        simp only [next, skipped]
      refine ⟨space, [], [], blank, whole, ?_, trivial, ?_⟩
      · rw [tokens_end step]
        rfl
      · rw [tokens_end step]
        rfl
    | cons c left =>
      cases found : lexeme? (c :: left) with
      | none =>
        -- The character starts no lexeme.
        have step : scanner.next
            = (.error (.lexical (.unexpectedCharacter c (scanner.offset + space.length))),
              ⟨c :: left, scanner.offset + space.length⟩) := by
          simp only [next, skipped, found]
        obtain ⟨single, digit, letter, underscore⟩ := lexeme?_eq_none found
        refine ⟨space, [], c :: left, blank, whole, ?_, trivial, ?_⟩
        · rw [tokens_fault step]
          rfl
        · rw [tokens_fault step, Piece.written, List.append_nil]
          exact ⟨rfl, solid c rfl, single, digit, letter, underscore⟩
      | some lexeme =>
        -- The lexeme is cut off, and the induction goes on behind it.
        obtain ⟨kind, length⟩ := lexeme
        obtain ⟨word, after, same, rfl, admitted, longest⟩ := lexeme?_eq_some_iff.1 found
        have step : scanner.next = (.ok (some (.ofKind kind (String.ofList word))),
            ⟨after, scanner.offset + space.length + word.length⟩) := by
          simp only [next, skipped, found]
          simp only [same, List.take_left, advance, List.drop_left]
        obtain ⟨tail, pieces, rest, later⟩ := ih _ (size ▸ next_length step) _ rfl
        rw [same] at whole longest
        exact ⟨space, _, rest, Cut.cons blank whole step admitted longest later⟩

end Scanner

namespace Lexer

/--
The lexer accepts exactly its lexical grammar, with the longest lexemes. A text that it accepts is
white space around the tokens, each the longest lexeme at its place; a text that it refuses is so up
to the character that the fault names, which is neither white space nor the start of a lexeme. And
the text of any lexemes, with white space at least between those that would run together, is
accepted with exactly these tokens.
-/
theorem accepts_exactly_the_longest_lexemes :
    (∀ text : String,
      match (ofString text).lex.1 with
      | .ok tokens => ∃ (space : List Char) (pieces : List Piece),
          IsSpace space ∧ text.toList = space ++ Piece.written pieces ∧
            tokens = pieces.map Piece.token ∧ Piece.Greedy pieces []
      | .error fault => ∃ (space : List Char) (pieces : List Piece) (c : Char) (rest : List Char),
          IsSpace space ∧ text.toList = space ++ Piece.written pieces ++ c :: rest ∧
            Piece.Greedy pieces (c :: rest) ∧ Unlexed c ∧
              fault = .lexical (.unexpectedCharacter c (space ++ Piece.written pieces).length)) ∧
    ∀ (space : List Char) (pieces : List Piece), IsSpace space → Piece.Apart pieces →
      (ofString (String.ofList (space ++ Piece.written pieces))).lex.1
        = .ok (pieces.map Piece.token) := by
  refine ⟨fun text => ?_, fun space pieces blank apart => ?_⟩
  · obtain ⟨space, pieces, rest, cut⟩ := (Scanner.ofString text).exists_cut
    have whole : text.toList = space ++ (Piece.written pieces ++ rest) := cut.whole
    have stops := cut.stops
    simp only [lex, ofString]
    -- The text is refused exactly where something is left behind the last token.
    cases rest with
    | nil =>
      have calm : (Scanner.ofString text).tokens.2.1 = none := stops
      rw [calm]
      exact ⟨space, pieces, cut.blank, by rw [whole, List.append_nil], cut.tokens, cut.greedy⟩
    | cons c rest =>
      obtain ⟨fault, unlexed⟩ := stops
      rw [fault]
      refine ⟨space, pieces, c, rest, cut.blank, ?_, cut.greedy, unlexed, ?_⟩
      · rw [whole, List.append_assoc]
      · -- A text starts at place zero.
        have zero : (Scanner.ofString text).offset = 0 := rfl
        rw [zero, Nat.zero_add]
  · -- Lexemes that are apart are read as they were written.
    obtain ⟨tokens, calm⟩ := Lexes.blanks blank (Piece.lexes apart) 0
    have start : Scanner.ofString (String.ofList (space ++ Piece.written pieces))
        = ⟨space ++ Piece.written pieces, 0⟩ := by
      rw [Scanner.ofString, String.toList_ofList]
    simp only [lex, ofString, start, tokens, calm]

/-- The lexemes of a short text: a blank parts a name from a number, which touches the next name. -/
def touching : List Piece := [
    ⟨.name, ['x', '2'], [' '], .name (.inl (by decide)) (List.forall_mem_singleton.2 (by decide)),
      by decide⟩,
    ⟨.number, ['1', '.', '5'], [], @Kind.Admits.decimal ['1'] ['5'] (by decide) (by decide),
      by decide⟩,
    ⟨.name, ['e'], [], .name (.inl (by decide)) (by simp), by decide⟩,
    ⟨.plus, ['+'], [], .punctuator rfl, by decide⟩]

/-- White space is needed in one place of this text only, and it is there. -/
theorem touching_lexemes_are_accepted :
    IsSpace [' '] ∧ Piece.Apart touching ∧ (ofString " x2 1.5e+").lex.1
      = .ok [.ofKind .name "x2", .ofKind .number "1.5", .ofKind .name "e", .ofKind .plus "+"] := by
  have blank : IsSpace [' '] := by decide
  have apart : Piece.Apart touching := by simp [touching, Piece.Apart, Piece.joins]
  exact ⟨blank, apart, accepts_exactly_the_longest_lexemes.2 [' '] touching blank apart⟩

-- A point that no digit follows is no part of a number, and it starts no lexeme.
example : (ofString "12.5.x").lex.1 = .error (.lexical (.unexpectedCharacter '.' 4)) := rfl

end Lexer

end Climb
