import Climb.Proofs.Expr.Recognition
import Climb.Proofs.Expr.Spelling

/-! Expressions and texts: what is written is read back as it was. -/

namespace Climb.Expr

/-- Expressions that can be written: their names are names, and their numbers whole and not long. -/
inductive WellFormed : Expr → Prop
  | name {text : String} (named : isName text = true) : WellFormed (.name (some text))
  | number {value : Nat} (short : (Nat.toDigits 10 value).length ≤ 4300) :
    WellFormed (.number (.int value))
  | assign {target : String} {value : Expr} (named : isName target = true)
      (inner : WellFormed value) : WellFormed (.assign (some target) value)
  | pre {op : String} {operand : Expr} (known : op ∈ ["+", "-", "~", "!"])
      (inner : WellFormed operand) : WellFormed (.pre (some op) operand)
  | post {operand : Expr} (inner : WellFormed operand) : WellFormed (.post (some "!") operand)
  | bin {op : String} {left right : Expr} (one : WellFormed left)
      (known : op ∈ ["+", "-", "*", "/", "^", ";"]) (other : WellFormed right) :
    WellFormed (.bin left (some op) right)
  | cond {condition chosen other : Expr} (inner : WellFormed condition) (one : WellFormed chosen)
      (two : WellFormed other) : WellFormed (.cond condition chosen other)
  | call {callee : Expr} {args : List Expr} (inner : WellFormed callee)
      (all : ∀ arg ∈ args, WellFormed arg) : WellFormed (.call callee args)

/-- The expression is written as the text, whose tokens are those that it is derived from. -/
structure Renders (expr : Expr) (text : String) (tokens : List Token) : Prop where
  format : expr.format = .ok (some text)
  lexes : LexesAs text.toList tokens
  derives : Derives .suffix tokens expr

/-- A name is written as itself. -/
theorem renders_name {text : String} (named : isName text = true) :
    Renders (.name (some text)) text [.ofKind .name text] where
  format := rfl
  lexes := fun _ _ parted lexed => .name named parted lexed
  derives := .tighter rfl (.name rfl)

/-- A well-formed expression has no sign to be misread, so its text stands for itself. -/
theorem WellFormed.plain {expr : Expr} (formed : WellFormed expr) :
    expr.signed = false ∧ expr.unsigned = expr := by
  -- Its numbers are not negative, so no part of it has a sign.
  induction formed with
  | name named => exact ⟨rfl, rfl⟩
  | number short => exact ⟨by simp [signed], rfl⟩
  | assign named inner ih => exact ⟨rfl, by simp only [unsigned, ih, withSign]⟩
  | pre known inner ih => exact ⟨rfl, by simp only [unsigned, ih, withSign]⟩
  | post inner ih => exact ⟨rfl, by simp only [unsigned, ih, withSign]⟩
  | bin one known other ihOne ihOther =>
    exact ⟨rfl, by simp only [unsigned, ihOne, ihOther, withSign]⟩
  | cond inner one two ih ihOne ihTwo =>
    exact ⟨rfl, by simp only [unsigned, ih, ihOne, ihTwo, withSign]⟩
  | @call callee args inner all ih ihAll =>
    -- The arguments are respelled one by one, and none of them changes.
    have same : respelledAll args = args := by
      clear all
      induction args with
      | nil => rfl
      | cons first rest ihRest =>
        obtain ⟨one, others⟩ := List.forall_mem_cons.1 ihAll
        simp only [respelledAll, one, withSign, ihRest others]
    exact ⟨ih.1, by simp only [unsigned, ih, same]⟩

/-- A well-formed expression is in the words of the language, and its numbers can be written. -/
theorem WellFormed.worded {expr : Expr} (formed : WellFormed expr) :
    Worded (fun value => ∃ whole, value = .int whole ∧ isWritable whole = true) expr := by
  induction formed with
  | name named => exact .name named
  | number short => exact .number ⟨_, rfl, isWritable_iff.2 short⟩
  | assign named inner ih => exact .assign named ih
  | pre known inner ih => exact .pre known ih
  | post inner ih => exact .post ih
  | bin one known other ihOne ihOther => exact .bin ihOne known ihOther
  | cond inner one two ih ihOne ihTwo => exact .cond ih ihOne ihTwo
  | call inner all ih ihAll => exact .call ih ihAll

/-- An expression in the words of the language is well-formed if its numbers are. -/
theorem Worded.wellFormed {expr : Expr}
    (worded : Worded (fun value => WellFormed (.number value)) expr) : WellFormed expr := by
  induction worded with
  | name named => exact .name named
  | number known => exact known
  | assign named inner ih => exact .assign named ih
  | pre known inner ih => exact .pre known ih
  | post inner ih => exact .post ih
  | bin one known other ihOne ihOther => exact .bin ihOne known ihOther
  | cond inner one two ih ihOne ihTwo => exact .cond ih ihOne ihTwo
  | call inner all ih ihAll => exact .call ih ihAll

/-- Every well-formed expression is written as a text that stands for it. -/
theorem WellFormed.renders {expr : Expr} (formed : WellFormed expr) :
    ∃ text tokens, Renders expr text tokens := by
  obtain ⟨text, tokens, spelled⟩ := formed.worded.spells
  -- It is respelled as itself, so its text stands for it.
  have lexes := spelled.lexes
  have derives := spelled.derives
  rw [formed.plain.1] at lexes
  rw [formed.plain.2] at derives
  exact ⟨text, tokens, spelled.format, lexes, derives⟩

/-- A text is read as an expression exactly if it has no fault and its tokens are derived so. -/
theorem ofString_ok_iff {text : String} {expr : Expr} :
    ofString text = .ok expr ↔
      (lex text).2 = none ∧ Derives .sequence (lex text).1 expr := by
  -- A text is lexed before it is parsed, so its source is a list of tokens and a fault.
  have ends : (Source.ofString text).feed.Ends := trivial
  have whole : Reads 0 (lex text).1 expr [] ↔ Derives .sequence (lex text).1 expr := by
    rw [reads_zero_iff]
    simp
  rw [ofString, ofSource, Grammar.run_whole_iff ends, ← whole]
  rfl

/-- A text whose tokens are derived as an expression is read as that. -/
theorem ofString_of_lexes {text : String} {tokens : List Token} {expr : Expr}
    (lexes : LexesAs text.toList tokens) (derived : Derives .sequence tokens expr) :
    ofString text = .ok expr := by
  -- The whole text stands alone, with nothing behind it to be parted from.
  have lexed := lexes [] [] .nil .nil 0
  simp only [List.append_nil] at lexed
  refine ofString_ok_iff.2 ⟨lexed.2, ?_⟩
  have known : (lex text).1 = tokens := lexed.1
  rw [known]
  exact derived

/-- What is written of a well-formed expression is read back as that expression. -/
theorem WellFormed.reads_back {expr : Expr} (formed : WellFormed expr) :
    ∃ text, expr.format = .ok (some text) ∧ ofString text = .ok expr := by
  obtain ⟨text, tokens, rendered⟩ := formed.renders
  exact ⟨text, rendered.format,
    ofString_of_lexes rendered.lexes (rendered.derives.weaken (by decide))⟩

/-- A token of a text in which no number has a point. -/
structure IsPlain (token : Token) : Prop where
  lexeme : token.IsLexeme
  whole : token.type = .kind .number → ∀ text ∈ token.text, '.' ∉ text.toList

/-- A number token of a text without points holds a whole number that is not long. -/
theorem IsPlain.number {token : Token} {value : Number} (plain : IsPlain token)
    (typed : token.type = .kind .number) (read : readNumber token.text = .ok value) :
    WellFormed (.number value) := by
  have whole := plain.whole typed
  cases plain.lexeme with
  | @punctuator known character same =>
    obtain rfl : known = .number := by simpa [Token.ofKind] using typed
    cases same
  | name named => simp [Token.ofKind] at typed
  | @number text digits =>
    obtain ⟨some, inside⟩ := digits (whole text rfl)
    -- It was read from digits alone, so it has no more of them than the text.
    have outcome : readNumber (.some text) = .ok value := read
    rw [readNumber_digits some inside] at outcome
    split at outcome
    · cases outcome
    · rename_i few
      cases outcome
      exact .number (Nat.le_trans (toDigits_length_le inside some) (Nat.not_lt.1 few))

/-- What is derived from the tokens of a text without points in its numbers is well-formed. -/
theorem Derives.wellFormed {stratum : Stratum} {tokens : List Token} {expr : Expr}
    (derived : Derives stratum tokens expr) (plain : ∀ token ∈ tokens, IsPlain token) :
    WellFormed expr :=
  Worded.wellFormed (derived.worded fun token member =>
    ⟨(plain token member).lexeme, fun typed _ read => (plain token member).number typed read⟩)

/--
A well-formed expression is written as a text that is read back as the same expression. Whatever
is read from a text without points in its numbers is well-formed, so that writing and reading it
again changes nothing.
-/
theorem writing_then_reading_is_identity :
    (∀ expr, WellFormed expr →
      ∃ text, expr.format = .ok (some text) ∧ ofString text = .ok expr) ∧
    ∀ source expr,
      (∀ token ∈ (lex source).1, token.type = .kind .number →
        ∀ text ∈ token.text, '.' ∉ text.toList) →
      ofString source = .ok expr →
        WellFormed expr ∧ ∃ text, expr.format = .ok (some text) ∧ ofString text = .ok expr := by
  refine ⟨fun expr formed => formed.reads_back, fun source expr whole read => ?_⟩
  have derived := (ofString_ok_iff.1 read).2
  -- Every token comes from the text, so it is one that a text can have.
  have plain : ∀ token ∈ (lex source).1, IsPlain token := fun token member =>
    ⟨Scanner.tokens_lexemes _ token member, whole token member⟩
  have formed := derived.wellFormed plain
  exact ⟨formed, formed.reads_back⟩

/-- A text with blanks and without parentheses is read, and reads the same once it is written. -/
theorem spaced_text_reads_back :
    let expr := Expr.assign (some "a") (.pre (some "-") (.number (.int 1)))
    ofString " a = -1 " = .ok expr ∧ WellFormed expr ∧
      ∃ text, expr.format = .ok (some text) ∧ ofString text = .ok expr := by
  intro expr
  -- The blanks are gone after lexing.
  have lexed : lex " a = -1 " =
      ([.ofKind .name "a"] ++ mark .assign :: [mark .minus, .ofKind .number "1"], none) := by
    rfl
  have digits : "1".toList.all isDigit = true := by decide
  have number : readNumber (some "1") = .ok (.int 1) :=
    readNumber_digits (by decide) (List.all_eq_true.1 digits)
  have value : Derives .unary [mark .minus, .ofKind .number "1"]
      (.pre (some "-") (.number (.int 1))) :=
    .pre (by decide) (.weaken (by decide) (.number rfl number))
  have whole : Derives .assignment
      ([.ofKind .name "a"] ++ mark .assign :: [mark .minus, .ofKind .number "1"]) expr :=
    .assign ((renders_name (by decide)).derives.weaken (by decide)) rfl (value.weaken (by decide))
  have read : ofString " a = -1 " = .ok expr := by
    rw [ofString_ok_iff, lexed]
    exact ⟨rfl, whole.weaken (by decide)⟩
  exact ⟨read, writing_then_reading_is_identity.2 _ _ (by decide) read⟩

end Climb.Expr
