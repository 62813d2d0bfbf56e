import Climb.Proofs.Token.Cursor
import Climb.Proofs.Token.MaximalMunch

/-! Several readers on one text stop at the same fault, and each token goes to one of them. -/

namespace Climb

namespace Scanner

/-- White space is skipped up to the first character that is none. -/
theorem skipBlanks_of_solid {scanner : Scanner} {space behind : List Char} (blank : IsSpace space)
    (whole : scanner.rest = space ++ behind) (solid : ∀ c ∈ behind.head?, isBlank c = false) :
    scanner.skipBlanks = ⟨behind, scanner.offset + space.length⟩ := by
  have run : (space ++ behind).takeWhile isBlank = space := takeWhile_append_stop blank solid
  simp only [skipBlanks, advance, whole, run, List.drop_left]

end Scanner

/-- Where a character stands that starts no lexeme, there is none. -/
theorem Unlexed.lexeme?_eq_none {c : Char} (unlexed : Unlexed c) (rest : List Char) :
    Scanner.lexeme? (c :: rest) = none := by
  cases found : Scanner.lexeme? (c :: rest) with
  | none => rfl
  | some lexeme =>
    -- A lexeme would start with a character of one of the classes.
    obtain ⟨word, behind, whole, -, admitted, -⟩ := Scanner.lexeme?_eq_some_iff.1 found
    obtain ⟨first, others, rfl, start⟩ := admitted.first
    obtain ⟨rfl, -⟩ : c = first ∧ rest = others ++ behind := by simpa using whole
    rcases start with ⟨-, name⟩ | ⟨-, digit⟩ | single
    · rcases startsName_iff.1 name with letter | underscore
      · exact absurd letter (by simp [unlexed.letter])
      · exact absurd underscore unlexed.underscore
    · exact absurd digit (by simp [unlexed.digit])
    · exact absurd single (unlexed.single _)

/-- Some lexemes are written before others. -/
theorem Piece.written_append (earlier later : List Piece) :
    written (earlier ++ later) = written earlier ++ written later := by
  induction earlier with
  | nil => rfl
  | cons piece rest ih => simp only [List.cons_append, written, ih, List.append_assoc]

namespace Cut

variable {scanner : Scanner} {space rest : List Char} {piece : Piece} {pieces : List Piece}

/-- The first lexeme of a cut is what is read next. -/
theorem next_cons (cut : Cut scanner space (piece :: pieces) rest) :
    scanner.next = (.ok (some piece.token), ⟨piece.space ++ (Piece.written pieces ++ rest),
      scanner.offset + space.length + piece.word.length⟩) := by
  -- No lexeme starts with a blank, so the white space ends where the word starts, and the word is
  -- the longest one there.
  obtain ⟨c, others, word, -⟩ := piece.lexeme.first
  have text : Piece.written (piece :: pieces) ++ rest
      = piece.word ++ (piece.space ++ (Piece.written pieces ++ rest)) := by
    simp only [Piece.written, List.append_assoc]
  have solid : ∀ first ∈ (Piece.written (piece :: pieces) ++ rest).head?,
      isBlank first = false := by
    have start := piece.lexeme.solid
    rw [word] at start
    rw [text, word]
    exact start
  have skipped := Scanner.skipBlanks_of_solid cut.blank cut.whole solid
  have found := Scanner.lexeme?_eq_some_iff.2 ⟨piece.word, _, text, rfl, piece.lexeme, cut.greedy.1⟩
  rw [text, word] at skipped found
  rw [List.cons_append] at skipped found
  simp only [Scanner.next, skipped, found, Scanner.advance]
  rw [← List.cons_append, ← word, List.take_left, List.drop_left]
  rfl

/-- Behind the first lexeme of a cut the others are cut. -/
theorem tail (cut : Cut scanner space (piece :: pieces) rest) :
    Cut ⟨piece.space ++ (Piece.written pieces ++ rest),
      scanner.offset + space.length + piece.word.length⟩ piece.space pieces rest := by
  -- The tokens, the words and the end are those of the cut, without the first of them.
  have tokens := Scanner.tokens_cons cut.next_cons
  have place : scanner.offset + (space ++ Piece.written (piece :: pieces)).length
      = scanner.offset + space.length + piece.word.length
        + (piece.space ++ Piece.written pieces).length := by
    simp only [Piece.written, List.length_append]
    omega
  have all := cut.tokens
  have stops := cut.stops
  rw [tokens] at all stops
  rw [place] at stops
  exact ⟨piece.blank, rfl, (List.cons.inj all).2, cut.greedy.2, stops⟩

/-- Without a fault nothing is left behind the lexemes. -/
theorem rest_eq_nil (cut : Cut scanner space pieces rest) (calm : scanner.tokens.2.1 = none) :
    rest = [] := by
  have stops := cut.stops
  -- A character that is left over would be a fault.
  cases rest with
  | nil => rfl
  | cons c behind =>
    rw [stops.1] at calm
    cases calm

/-- Where no lexeme is left, the scanner moves to the rest. -/
theorem skipBlanks_nil (cut : Cut scanner space [] rest) :
    scanner.skipBlanks = ⟨rest, scanner.offset + space.length⟩ ∧
      Scanner.skipBlanks ⟨rest, scanner.offset + space.length⟩
        = ⟨rest, scanner.offset + space.length⟩ := by
  -- The rest is nothing, or starts with a character that is no white space either.
  have solid : ∀ c ∈ rest.head?, isBlank c = false := by
    cases rest with
    | nil => simp
    | cons c behind => simpa using cut.stops.2.blank
  have nothing : IsSpace [] := by simp [IsSpace]
  exact ⟨Scanner.skipBlanks_of_solid cut.blank cut.whole solid,
    Scanner.skipBlanks_of_solid nothing rfl solid⟩

/-- Where no lexeme is left, the scanner finds the end or the fault, and stands at the rest. -/
theorem next_nil (cut : Cut scanner space [] rest) :
    scanner.next
      = ((Cursor.take ⟨[], scanner.tokens.2.1⟩).1, ⟨rest, scanner.offset + space.length⟩) := by
  have skipped := cut.skipBlanks_nil.1
  have stops := cut.stops
  simp only [Piece.written, List.append_nil] at stops
  -- The end of the text, or the character that no lexeme starts with.
  cases rest with
  | nil =>
    have calm : scanner.tokens.2.1 = none := stops
    simp only [Scanner.next, skipped, calm, Cursor.take]
  | cons c behind =>
    obtain ⟨fault, unlexed⟩ := stops
    simp only [Scanner.next, skipped, fault, unlexed.lexeme?_eq_none, Cursor.take]

/-- Where the scanner stands at the rest, it finds there what it found before. -/
theorem halt (cut : Cut scanner space [] rest) :
    Cut ⟨rest, scanner.offset + space.length⟩ [] [] rest ∧
      (Scanner.tokens ⟨rest, scanner.offset + space.length⟩).2.1 = scanner.tokens.2.1 := by
  obtain ⟨before, after⟩ := cut.skipBlanks_nil
  -- The blanks are skipped once, and a second time there are none.
  have same : Scanner.next ⟨rest, scanner.offset + space.length⟩ = scanner.next := by
    simp only [Scanner.next, before, after]
  have tokens := Scanner.tokens_congr same
  refine ⟨⟨by simp [IsSpace], rfl, tokens ▸ cut.tokens, trivial, ?_⟩, by rw [tokens]⟩
  rw [tokens]
  simpa only [Piece.written, List.append_nil, List.length_nil, Nat.add_zero] using cut.stops

/-- All tokens are read up to the rest. -/
theorem stop (cut : Cut scanner space pieces rest) :
    scanner.tokens.2.2 = ⟨rest, scanner.offset + (space ++ Piece.written pieces).length⟩ := by
  -- Along the lexemes, which are read one after another.
  induction pieces generalizing scanner space with
  | nil =>
    have next := cut.next_nil
    simp only [Piece.written, List.append_nil]
    cases fault : scanner.tokens.2.1 with
    | none =>
      rw [fault] at next
      rw [Scanner.tokens_end next]
    | some failure =>
      rw [fault] at next
      rw [Scanner.tokens_fault next]
  | cons piece pieces ih =>
    rw [Scanner.tokens_cons cut.next_cons]
    refine (ih cut.tail).trans ?_
    simp only [Piece.written, List.length_append, Nat.add_assoc]

/-- Where all tokens have been read, the rest is found, and what is behind it. -/
theorem halted (cut : Cut scanner space pieces rest) :
    Cut scanner.tokens.2.2 [] [] rest ∧
      scanner.tokens.2.2.tokens.2.1 = scanner.tokens.2.1 := by
  -- Along the lexemes, as for the place where reading stops.
  induction pieces generalizing scanner space with
  | nil =>
    have stopped := cut.stop
    simp only [Piece.written, List.append_nil] at stopped
    rw [stopped]
    exact cut.halt
  | cons piece pieces ih =>
    rw [Scanner.tokens_cons cut.next_cons]
    exact ih cut.tail

end Cut

namespace Lexer

/-- One turn of those who share a text. -/
inductive Turn where
  /-- A reader is opened. -/
  | opening
  /-- A reader asks for its next token. -/
  | next (reader : Nat)
  /-- All tokens that are left are asked for. -/
  | lex
deriving Repr, DecidableEq

/-- The tokens that a turn delivers, or the fault that it ends with. -/
abbrev Reply := Except Error (List Token)

/-- Takes a turn. -/
def turn (lexer : Lexer) : Turn → Reply × Lexer
  | .opening => (.ok [], lexer.openReader.2)
  | .next reader => ((lexer.next reader).1.map Option.toList, (lexer.next reader).2)
  | .lex => lexer.lex

/-- Takes turns in order: the replies to them, and the text after the last. -/
def turns (lexer : Lexer) : List Turn → List Reply × Lexer
  | [] => ([], lexer)
  | first :: rest =>
    let (reply, next) := lexer.turn first
    let (replies, last) := next.turns rest
    (reply :: replies, last)

/-- The tokens that some replies deliver, in order. -/
def delivered (replies : List Reply) : List Token :=
  replies.flatMap fun reply => reply.toOption.getD []

variable {lexer : Lexer} {replies : List Reply}

/-- One reply more delivers its tokens after the others. -/
theorem delivered_concat (replies : List Reply) (reply : Reply) :
    delivered (replies ++ [reply]) = delivered replies ++ reply.toOption.getD [] := by
  simp [delivered]

/-- An open reader gets the token that is read next. -/
theorem next_token {reader : Nat} {token : Token} {after : Scanner}
    (active : lexer.isActive reader = true)
    (found : lexer.scanner.next = (.ok (some token), after)) :
    lexer.next reader = (.ok (some token), { lexer with scanner := after }) := by
  simp only [next, active, if_true, found]

/-- An open reader that gets no token has ended. -/
theorem next_over {reader : Nat} {outcome : Except Error (Option Token)} {after : Scanner}
    (active : lexer.isActive reader = true) (found : lexer.scanner.next = (outcome, after))
    (none : ∀ token, outcome ≠ .ok (some token)) :
    lexer.next reader = (outcome, ⟨after, lexer.ended.set reader true⟩) := by
  -- The end and the fault both mark the reader.
  rcases outcome with failure | _ | token
  · simp only [next, active, if_true, found]
  · simp only [next, active, if_true, found]
  · exact absurd rfl (none token)

/-- A reader that is not open gets nothing, and nothing happens. -/
theorem next_closed {reader : Nat} (closed : ¬lexer.isActive reader = true) :
    lexer.next reader = (.ok none, lexer) := by
  simp only [next, closed]
  rfl

/-- A reader is open from its opening until it gets no token. -/
theorem isActive_turn_iff (lexer : Lexer) (turn : Turn) (reader : Nat) :
    (lexer.turn turn).2.isActive reader = true ↔
      (turn = .opening ∧ reader = lexer.ended.length) ∨
        lexer.isActive reader = true ∧
          (turn = .next reader → ∃ token, (lexer.next reader).1 = .ok (some token)) := by
  -- An opening adds a reader behind the others, and a turn of one reader can mark only that one.
  cases turn with
  | opening =>
    simp only [Lexer.turn, openReader, isActive, beq_iff_eq]
    grind
  | lex => simp [Lexer.turn, Lexer.lex, isActive]
  | next other =>
    by_cases active : lexer.isActive other = true
    · rcases found : lexer.scanner.next with ⟨outcome, after⟩
      by_cases given : ∃ token, outcome = .ok (some token)
      · obtain ⟨token, rfl⟩ := given
        have gets := next_token active found
        simp only [Lexer.turn, gets]
        grind [isActive]
      · have stopped := next_over active found fun token same => given ⟨token, same⟩
        simp only [Lexer.turn, stopped, isActive, beq_iff_eq, List.getElem?_set]
        grind
    · simp only [Lexer.turn, next_closed active]
      grind

/-- A turn forgets no reader. -/
theorem ended_length_le (lexer : Lexer) (turn : Turn) :
    lexer.ended.length ≤ (lexer.turn turn).2.ended.length := by
  cases turn with
  | opening => simp [Lexer.turn, openReader]
  | lex => simp [Lexer.turn, lex]
  | next reader =>
    simp only [Lexer.turn, next]
    grind

/-- A reader that has ended is not opened again. -/
theorem closed_turns {reader : Nat} (opened : reader < lexer.ended.length)
    (closed : ¬lexer.isActive reader = true) (more : List Turn) :
    ¬(lexer.turns more).2.isActive reader = true := by
  -- Along the turns: only an opening makes a reader active, and what it opens is a new one.
  induction more generalizing lexer with
  | nil => exact closed
  | cons first more ih =>
    refine ih (Nat.lt_of_lt_of_le opened (lexer.ended_length_le first)) fun active => ?_
    rcases (isActive_turn_iff lexer first reader).1 active with ⟨-, fresh⟩ | ⟨before, -⟩
    · omega
    · exact closed before

/-- A reader that got no token gets nothing after any turns, and nothing happens. -/
theorem next_after_last {reader : Nat} (active : lexer.isActive reader = true)
    (none : ∀ token, (lexer.next reader).1 ≠ .ok (some token)) (more : List Turn) :
    ((lexer.next reader).2.turns more).2.next reader
      = (.ok Option.none, ((lexer.next reader).2.turns more).2) := by
  rcases found : lexer.scanner.next with ⟨outcome, after⟩
  have last : ∀ token, outcome ≠ .ok (some token) := by
    rintro token rfl
    exact none token (by rw [next_token active found])
  -- The reader is marked by this turn, and no opening gives its index to another one.
  have step := next_over active found last
  have opened : reader < lexer.ended.length := by
    simp only [isActive, beq_iff_eq] at active
    grind
  refine next_closed (closed_turns ?_ ?_ more)
  · rw [step]
    simpa using opened
  · rw [step]
    simp [isActive, opened]

/-- Where the readers of a text stand: what has been delivered comes first in a cut of the text,
then what was lost to a fault, and then what is still ahead. -/
structure Stands (space : List Char) (pieces : List Piece) (rest : List Char)
    (fault : Option Error) (replies : List Reply) (lexer : Lexer) (gap : List Char)
    (earlier lost later : List Piece) : Prop where
  cut : Cut lexer.scanner gap later rest
  same : lexer.scanner.tokens.2.1 = fault
  whole : pieces = earlier ++ (lost ++ later)
  given : delivered replies = earlier.map Piece.token
  place : lexer.offset + gap.length = (space ++ Piece.written (earlier ++ lost)).length
  faults : ∀ failure, .error failure ∈ replies → later = [] ∧ fault = some failure
  unspent : (∀ failure, .error failure ∉ replies) → lost = []

namespace Stands

variable {space rest gap : List Char} {pieces earlier lost later others : List Piece}
  {piece : Piece} {fault : Option Error}

/-- Where a lexeme is ahead, no fault has been raised. -/
theorem calm_of_cons
    (stands : Stands space pieces rest fault replies lexer gap earlier lost (piece :: others)) :
    ∀ failure, .error failure ∉ replies := fun failure raised => by
  have nothing := (stands.faults failure raised).1
  cases nothing

/-- Where there is no fault, none has been raised. -/
theorem calm_of_none
    (stands : Stands space pieces rest none replies lexer gap earlier lost later) :
    ∀ failure, .error failure ∉ replies := fun failure raised => by
  have some := (stands.faults failure raised).2
  cases some

/-- A turn that delivers nothing and reads nothing changes nothing. -/
theorem idle (stands : Stands space pieces rest fault replies lexer gap earlier lost later)
    {changed : Lexer} (same : changed.scanner = lexer.scanner) :
    Stands space pieces rest fault (replies ++ [.ok []]) changed gap earlier lost later := by
  -- The place in the text and what was delivered are those from before.
  obtain ⟨cut, fixed, whole, given, place, faults, unspent⟩ := stands
  refine ⟨same ▸ cut, same ▸ fixed, whole, ?_, ?_, ?_, ?_⟩
  · rw [delivered_concat, given]
    simp [Except.toOption]
  · rw [offset, same]
    exact place
  · simpa using faults
  · simpa using unspent

/-- A turn that reads the next token delivers it. -/
theorem step
    (stands : Stands space pieces rest fault replies lexer gap earlier lost (piece :: others))
    {changed : Lexer} (moved : changed.scanner = lexer.scanner.next.2) :
    Stands space pieces rest fault (replies ++ [.ok [piece.token]]) changed piece.space
      (earlier ++ [piece]) [] others := by
  have calm := stands.calm_of_cons
  obtain ⟨cut, fixed, whole, given, place, faults, unspent⟩ := stands
  -- Nothing has been lost yet, so the lexeme follows what was delivered.
  obtain rfl := unspent calm
  rw [cut.next_cons] at moved
  rw [Scanner.tokens_cons cut.next_cons] at fixed
  refine ⟨moved ▸ cut.tail, moved ▸ fixed, ?_, ?_, ?_, ?_, fun _ => rfl⟩
  · simpa using whole
  · rw [delivered_concat, given]
    simp [Except.toOption]
  · simp only [offset] at place
    simp only [offset, moved, Piece.written_append, Piece.written, List.length_append,
      List.append_nil] at place ⊢
    omega
  · intro failure raised
    have before : .error failure ∈ replies := by simpa using raised
    exact absurd before (calm failure)

/-- A turn that reads on to the end delivers all that is ahead. -/
theorem finish (stands : Stands space pieces rest none replies lexer gap earlier lost later)
    {changed : Lexer} (moved : changed.scanner = lexer.scanner.tokens.2.2) :
    Stands space pieces rest none (replies ++ [.ok (later.map Piece.token)]) changed []
      (earlier ++ later) [] [] := by
  have calm := stands.calm_of_none
  obtain ⟨cut, fixed, whole, given, place, faults, unspent⟩ := stands
  obtain rfl := unspent calm
  -- Without a fault nothing is lost, and the cut ends where the text does.
  obtain ⟨halted, behind⟩ := cut.halted
  refine ⟨moved ▸ halted, moved ▸ behind.trans fixed, ?_, ?_, ?_, ?_, fun _ => rfl⟩
  · simpa using whole
  · rw [delivered_concat, given]
    simp [Except.toOption]
  · simp only [offset, List.append_nil] at place
    simp only [offset, moved, cut.stop, List.append_nil, Piece.written_append, List.length_append,
      List.length_nil] at place ⊢
    omega
  · intro failure raised
    have before : .error failure ∈ replies := by simpa using raised
    exact absurd before (calm failure)

/-- A turn that reads on to the fault raises it, and what was ahead is lost. -/
theorem fail {failure : Error}
    (stands : Stands space pieces rest (some failure) replies lexer gap earlier lost later)
    {changed : Lexer} (moved : changed.scanner = lexer.scanner.tokens.2.2) :
    Stands space pieces rest (some failure) (replies ++ [.error failure]) changed []
      earlier (lost ++ later) [] := by
  obtain ⟨cut, fixed, whole, given, place, faults, -⟩ := stands
  -- What was ahead moves over to what is lost, and is not delivered.
  obtain ⟨halted, behind⟩ := cut.halted
  refine ⟨moved ▸ halted, moved ▸ behind.trans fixed, ?_, ?_, ?_, ?_, ?_⟩
  · simpa using whole
  · rw [delivered_concat, given]
    simp [Except.toOption]
  · simp only [offset] at place
    simp only [offset, moved, cut.stop, Piece.written_append, List.length_append,
      List.length_nil] at place ⊢
    omega
  · intro other raised
    -- It is the fault that was raised before, or now.
    rcases List.mem_append.1 raised with before | now
    · exact ⟨rfl, (faults other before).2⟩
    · obtain rfl : other = failure := by simpa using now
      exact ⟨rfl, rfl⟩
  · exact fun calm => absurd (List.mem_append_right replies (List.mem_singleton_self _))
      (calm failure)

/-- An open reader gets the token of the next lexeme. -/
theorem next_cons
    (stands : Stands space pieces rest fault replies lexer gap earlier lost (piece :: others))
    {reader : Nat} (active : lexer.isActive reader = true) :
    lexer.next reader
      = (.ok (some piece.token), { lexer with scanner := lexer.scanner.next.2 }) := by
  have found := stands.cut.next_cons
  rw [found]
  exact next_token active found

/-- Where no lexeme is ahead, an open reader meets the end or the fault. -/
theorem next_nil (stands : Stands space pieces rest fault replies lexer gap earlier lost [])
    {reader : Nat} (active : lexer.isActive reader = true) :
    lexer.next reader = ((Cursor.take ⟨[], fault⟩).1,
      ⟨lexer.scanner.tokens.2.2, lexer.ended.set reader true⟩) := by
  have found := stands.cut.next_nil
  have stop := stands.cut.stop
  rw [stands.same] at found
  rw [Piece.written, List.append_nil] at stop
  rw [stop]
  refine next_over active found ?_
  cases fault with
  | none => simp [Cursor.take]
  | some failure => simp [Cursor.take]

/-- All that is ahead is delivered, unless there is a fault behind it. -/
theorem lex_eq (stands : Stands space pieces rest fault replies lexer gap earlier lost later) :
    lexer.lex = (fault.elim (.ok (later.map Piece.token)) .error,
      { lexer with scanner := lexer.scanner.tokens.2.2 }) := by
  -- The same tokens as a whole scan from here, or its fault in place of them.
  have calm := stands.same
  simp only [lex, calm, stands.cut.tokens]
  cases fault <;> rfl

/-- After every turn the readers stand somewhere in the text. -/
theorem turn (stands : Stands space pieces rest fault replies lexer gap earlier lost later)
    (turn : Turn) : ∃ gap earlier lost later, Stands space pieces rest fault
      (replies ++ [(lexer.turn turn).1]) (lexer.turn turn).2 gap earlier lost later := by
  -- A turn reads nothing, or the next lexeme, or all that is left up to the end or the fault.
  cases turn with
  | opening => exact ⟨_, _, _, _, stands.idle rfl⟩
  | lex =>
    simp only [Lexer.turn, stands.lex_eq]
    cases fault with
    | none => exact ⟨_, _, _, _, stands.finish rfl⟩
    | some failure => exact ⟨_, _, _, _, stands.fail rfl⟩
  | next reader =>
    by_cases active : lexer.isActive reader = true
    · cases later with
      | cons piece others =>
        simp only [Lexer.turn, stands.next_cons active]
        exact ⟨_, _, _, _, stands.step rfl⟩
      | nil =>
        simp only [Lexer.turn, stands.next_nil active]
        cases fault with
        | none => exact ⟨_, _, _, _, stands.finish rfl⟩
        | some failure => exact ⟨_, _, _, _, stands.fail rfl⟩
    · simp only [Lexer.turn, next_closed active]
      exact ⟨_, _, _, _, stands.idle rfl⟩

/-- What was delivered is the beginning of the tokens. -/
theorem inOrder (stands : Stands space pieces rest fault replies lexer gap earlier lost later) :
    delivered replies <+: pieces.map Piece.token := by
  rw [stands.given, stands.whole, List.map_append]
  exact List.prefix_append _ _

/-- The readers stand inside the text. -/
theorem inside (stands : Stands space pieces rest fault replies lexer gap earlier lost later) :
    lexer.offset ≤ (space ++ (Piece.written pieces ++ rest)).length := by
  have place := stands.place
  rw [stands.whole]
  simp only [Piece.written_append, List.length_append] at place ⊢
  omega

/-- No turn leads back. -/
theorem forward (stands : Stands space pieces rest fault replies lexer gap earlier lost later)
    (turn : Turn) : lexer.offset ≤ (lexer.turn turn).2.offset := by
  have stop := stands.cut.stop
  -- A turn stays, or goes on to the end of a lexeme or of them all.
  cases turn with
  | opening => exact Nat.le_refl _
  | lex =>
    simp only [Lexer.turn, stands.lex_eq, offset, stop]
    omega
  | next reader =>
    by_cases active : lexer.isActive reader = true
    · cases later with
      | cons piece others =>
        simp only [Lexer.turn, stands.next_cons active, stands.cut.next_cons, offset]
        omega
      | nil =>
        simp only [Lexer.turn, stands.next_nil active, offset, stop]
        omega
    · simp only [Lexer.turn, next_closed active]
      exact Nat.le_refl _

/-- A token that a reader gets is that of the first lexeme ahead, and nothing was lost before it. -/
theorem past {reader : Nat} {token : Token} {after : Lexer}
    (stands : Stands space pieces rest fault replies lexer gap earlier lost later)
    (found : lexer.next reader = (.ok (some token), after)) :
    ∃ piece others, pieces = earlier ++ piece :: others ∧ token = piece.token ∧
      after.offset = (space ++ Piece.written earlier ++ piece.word).length := by
  by_cases active : lexer.isActive reader = true
  · cases later with
    | nil =>
      rw [stands.next_nil active] at found
      cases fault <;> simp [Cursor.take] at found
    | cons piece others =>
      obtain rfl := stands.unspent stands.calm_of_cons
      have place := stands.place
      rw [stands.next_cons active, Prod.mk.injEq] at found
      obtain ⟨same, rfl⟩ := found
      refine ⟨piece, others, stands.whole, by simpa using same.symm, ?_⟩
      simp only [offset, stands.cut.next_cons, List.append_nil, List.length_append] at place ⊢
      omega
  · rw [next_closed active] at found
    simp at found

/-- Without a fault, reading on delivers all the others and leads to the end of the last lexeme. -/
theorem last (stands : Stands space pieces rest none replies lexer gap earlier lost later) :
    lexer.scanner.tokens.2.2.offset = (space ++ Piece.written pieces).length ∧
      delivered replies ++ later.map Piece.token = pieces.map Piece.token := by
  obtain rfl := stands.unspent stands.calm_of_none
  have place := stands.place
  rw [stands.whole, stands.given]
  refine ⟨?_, by simp⟩
  simp only [offset, stands.cut.stop, Piece.written_append, List.length_append, List.append_nil,
    List.nil_append] at place ⊢
  omega

/-- Where an open reader meets the end, there is no fault, and all has been delivered. -/
theorem ended {reader : Nat} {after : Lexer}
    (stands : Stands space pieces rest fault replies lexer gap earlier lost later)
    (active : lexer.isActive reader = true) (found : lexer.next reader = (.ok none, after)) :
    fault = none ∧ after.offset = (space ++ Piece.written pieces).length ∧
      delivered replies = pieces.map Piece.token := by
  cases later with
  | cons piece others =>
    rw [stands.next_cons active] at found
    simp at found
  | nil =>
    rw [stands.next_nil active, Prod.mk.injEq] at found
    obtain ⟨calm, rfl⟩ := found
    cases fault with
    | some failure => simp [Cursor.take] at calm
    | none => exact ⟨rfl, stands.last.1, by simpa using stands.last.2⟩

/-- Where an open reader is the first to meet the fault, all has been delivered. -/
theorem met {reader : Nat} {failure : Error}
    (stands : Stands space pieces rest fault replies lexer gap earlier lost later)
    (active : lexer.isActive reader = true) (raised : (lexer.next reader).1 = .error failure)
    (calm : ∀ failure, .error failure ∉ replies) :
    delivered replies = pieces.map Piece.token := by
  cases later with
  | cons piece others =>
    rw [stands.next_cons active] at raised
    cases raised
  | nil =>
    have whole := stands.whole
    rw [stands.unspent calm, List.nil_append, List.append_nil] at whole
    rw [stands.given, whole]

/-- Where all that is left is delivered, there is no fault, and nothing is lost. -/
theorem lexed {tokens : List Token} {after : Lexer}
    (stands : Stands space pieces rest fault replies lexer gap earlier lost later)
    (found : lexer.lex = (.ok tokens, after)) :
    fault = none ∧ after.offset = (space ++ Piece.written pieces).length ∧
      delivered replies ++ tokens = pieces.map Piece.token := by
  rw [stands.lex_eq, Prod.mk.injEq] at found
  obtain ⟨all, rfl⟩ := found
  cases fault with
  | some failure => simp at all
  | none =>
    obtain rfl : later.map Piece.token = tokens := by simpa using all
    exact ⟨rfl, stands.last⟩

/-- Once a fault has been raised, every turn that asks for a token raises it. -/
theorem faulted {failure : Error}
    (stands : Stands space pieces rest fault replies lexer gap earlier lost later)
    (raised : .error failure ∈ replies) (turn : Turn) :
    (lexer.turn turn).1 = match turn with
      | .opening => .ok []
      | .next reader => if lexer.isActive reader then .error failure else .ok []
      | .lex => .error failure := by
  obtain ⟨rfl, rfl⟩ := stands.faults failure raised
  cases turn with
  | opening => rfl
  | lex =>
    simp only [Lexer.turn, stands.lex_eq]
    rfl
  | next reader =>
    by_cases active : lexer.isActive reader = true
    · simp only [Lexer.turn, stands.next_nil active, active]
      rfl
    · simp only [Lexer.turn, next_closed active, active]
      rfl

/-- After any turns the readers stand somewhere in the text. -/
theorem turns (stands : Stands space pieces rest fault replies lexer gap earlier lost later)
    (more : List Turn) : ∃ gap earlier lost later, Stands space pieces rest fault
      (replies ++ (lexer.turns more).1) (lexer.turns more).2 gap earlier lost later := by
  -- Along the turns, each of which starts where the one before it ended.
  induction more generalizing replies lexer gap earlier lost later with
  | nil =>
    simp only [Lexer.turns, List.append_nil]
    exact ⟨_, _, _, _, stands⟩
  | cons first more ih =>
    obtain ⟨_, _, _, _, between⟩ := stands.turn first
    obtain ⟨_, _, _, _, last⟩ := ih between
    rw [List.append_assoc] at last
    exact ⟨_, _, _, _, last⟩

end Stands

/-- Before any turn the whole text is ahead. -/
theorem stands_ofString {text : String} {space rest : List Char} {pieces : List Piece}
    (cut : Cut (Scanner.ofString text) space pieces rest) :
    Stands space pieces rest (Climb.lex text).2 [] (ofString text) space [] [] pieces where
  cut := cut
  same := rfl
  whole := rfl
  given := rfl
  place := by
    simp only [offset, ofString, Scanner.ofString, Piece.written, List.append_nil]
    omega
  faults := by simp
  unspent := fun _ => rfl

/-- How the readers of a text stand to each other, given the replies to their turns so far and the
state that these led to. -/
structure Share (text : String) (replies : List Reply) (lexer : Lexer) : Prop where
  /-- What has been delivered is the beginning of the tokens of the text. -/
  inOrder : delivered replies <+: (Climb.lex text).1
  /-- The place is inside the text. -/
  inside : lexer.offset ≤ text.length
  /-- No turn moves the place back. -/
  forward : ∀ turn, lexer.offset ≤ (lexer.turn turn).2.offset
  /-- A token that a reader gets is the next one, and the place is right behind its lexeme. -/
  past : ∀ reader token after, lexer.next reader = (.ok (some token), after) →
    ∃ space earlier piece later rest,
      Cut (Scanner.ofString text) space (earlier ++ piece :: later) rest ∧
        delivered replies = earlier.map Piece.token ∧ token = piece.token ∧
          after.offset = (space ++ Piece.written earlier ++ piece.word).length
  /-- Where an open reader meets the end, all tokens have been delivered. -/
  ended : ∀ reader after, lexer.isActive reader = true → lexer.next reader = (.ok none, after) →
    after.offset = text.length ∧ delivered replies = (Climb.lex text).1
  /-- Where an open reader is the first to meet the fault, all tokens before it have been
  delivered. -/
  met : ∀ reader fault, lexer.isActive reader = true → (lexer.next reader).1 = .error fault →
    (∀ fault, .error fault ∉ replies) → delivered replies = (Climb.lex text).1
  /-- All tokens that are left are the others, and they lead to the end. -/
  lexed : ∀ tokens after, lexer.lex = (.ok tokens, after) →
    after.offset = text.length ∧ delivered replies ++ tokens = (Climb.lex text).1
  /-- A fault that was raised once is the fault of the text, and is all that follows. -/
  faulted : ∀ fault, .error fault ∈ replies → (Climb.lex text).2 = some fault ∧
    ∀ turn, (lexer.turn turn).1 = match turn with
      | .opening => .ok []
      | .next reader => if lexer.isActive reader then .error fault else .ok []
      | .lex => .error fault
  /-- A reader is open from its opening until it gets no token. -/
  active : ∀ turn reader, (lexer.turn turn).2.isActive reader = true ↔
    (turn = .opening ∧ reader = lexer.openReader.1) ∨
      lexer.isActive reader = true ∧
        (turn = .next reader → ∃ token, (lexer.next reader).1 = .ok (some token))
  /-- A reader that got no token never gets one again, whatever turns come between. -/
  silent : ∀ reader, lexer.isActive reader = true →
    (∀ token, (lexer.next reader).1 ≠ .ok (some token)) →
      ∀ more, let last := ((lexer.next reader).2.turns more).2
        last.next reader = (.ok none, last)

/--
Readers share a text without loss or duplication. After any turns of any number of readers, what was
delivered is the beginning of the tokens of the text, and the place is inside the text. The next
turn moves it on: behind the lexeme of a token that is delivered, or to the end of the text if all
are. A fault that was raised is raised by every later turn that asks for a token. A reader is open
until it gets no token, and then it never gets one again.
-/
theorem readers_share_the_text (text : String) (before : List Turn) :
    Share text ((ofString text).turns before).1 ((ofString text).turns before).2 := by
  -- One cut of the whole text is parted by the turns, whoever took them.
  obtain ⟨space, pieces, rest, cut⟩ := (Scanner.ofString text).exists_cut
  obtain ⟨gap, earlier, lost, later, stands⟩ := (stands_ofString cut).turns before
  rw [List.nil_append] at stands
  generalize ((ofString text).turns before).1 = replies at stands ⊢
  generalize ((ofString text).turns before).2 = lexer at stands ⊢
  have tokens : (Climb.lex text).1 = pieces.map Piece.token := cut.tokens
  have size : text.length = (space ++ (Piece.written pieces ++ rest)).length := by
    rw [← String.length_toList]
    exact congrArg List.length cut.whole
  have behind : (Climb.lex text).2 = none →
      text.length = (space ++ Piece.written pieces).length := fun calm => by
    rw [size, cut.rest_eq_nil calm, List.append_nil]
  refine ⟨tokens ▸ stands.inOrder, size ▸ stands.inside, stands.forward, ?_, ?_,
    fun reader fault active raised calm => (stands.met active raised calm).trans tokens.symm,
    ?_, ?_, lexer.isActive_turn_iff,
    fun reader active none more => next_after_last active none more⟩
  · intro reader token after found
    obtain ⟨piece, others, rfl, same, place⟩ := stands.past found
    exact ⟨space, earlier, piece, others, rest, cut, stands.given, same, place⟩
  · intro reader after active found
    obtain ⟨calm, place, all⟩ := stands.ended active found
    exact ⟨place.trans (behind calm).symm, all.trans tokens.symm⟩
  · intro left after found
    obtain ⟨calm, place, all⟩ := stands.lexed found
    exact ⟨place.trans (behind calm).symm, all.trans tokens.symm⟩
  · exact fun fault raised => ⟨(stands.faults fault raised).2, stands.faulted raised⟩

/-- The second reader and the search for all that is left stop at the fault that the first one met,
and the first one gets nothing any more. -/
theorem readers_stop_at_one_fault :
    let fault : Error := .lexical (.unexpectedCharacter '#' 3)
    let before : List Turn := [.opening, .next 0, .opening, .next 1, .next 0]
    let replies := ((ofString "a 1# b").turns before).1
    let lexer := ((ofString "a 1# b").turns before).2
    replies = [.ok [], .ok [.ofKind .name "a"], .ok [], .ok [.ofKind .number "1"], .error fault] ∧
      lexer.isActive 0 = false ∧ lexer.isActive 1 = true ∧
      (lexer.turn (.next 1)).1 = .error fault ∧ (lexer.turn .lex).1 = .error fault ∧
      (lexer.turn (.next 0)).1 = .ok [] := by
  intro fault before replies lexer
  have known : replies = [.ok [], .ok [.ofKind .name "a"], .ok [], .ok [.ofKind .number "1"],
      .error fault] := rfl
  have first : lexer.isActive 0 = false := rfl
  have second : lexer.isActive 1 = true := rfl
  have share : Share "a 1# b" replies lexer := readers_share_the_text _ before
  have raised : .error fault ∈ replies := by simp [known]
  have turns := (share.faulted fault raised).2
  exact ⟨known, first, second, (turns (.next 1)).trans (if_pos second), turns .lex,
    (turns (.next 0)).trans (if_neg (by simp [first]))⟩

end Lexer

end Climb
