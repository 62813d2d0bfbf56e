import Climb.Text.Quoted

/-! Tokens, their types, and the kinds of the expression language. -/

namespace Climb

/-- The kinds of token of the expression language. -/
inductive Kind where
  | name | number
  | assign | plus | minus | star | slash | caret | tilde | bang | question
  | lparen | rparen | comma | colon | semicolon
deriving Repr, DecidableEq

namespace Kind

/-- Every kind, leaves before operators before punctuation. -/
def all : List Kind :=
  [name, number, assign, plus, minus, star, slash, caret, tilde, bang, question,
    lparen, rparen, comma, colon, semicolon]

/-- The capital name of a kind. -/
def label : Kind → String
  | name => "NAME"
  | number => "NUMBER"
  | assign => "ASSIGN"
  | plus => "PLUS"
  | minus => "MINUS"
  | star => "STAR"
  | slash => "SLASH"
  | caret => "CARET"
  | tilde => "TILDE"
  | bang => "BANG"
  | question => "QUESTION"
  | lparen => "LPAREN"
  | rparen => "RPAREN"
  | comma => "COMMA"
  | colon => "COLON"
  | semicolon => "SEMICOLON"

/-- The one character that every token of a kind consists of, if there is one. -/
def punctuator? : Kind → Option Char
  | name | number => none
  | assign => some '='
  | plus => some '+'
  | minus => some '-'
  | star => some '*'
  | slash => some '/'
  | caret => some '^'
  | tilde => some '~'
  | bang => some '!'
  | question => some '?'
  | lparen => some '('
  | rparen => some ')'
  | comma => some ','
  | colon => some ':'
  | semicolon => some ';'

/-- How messages name a kind: by its character, or by its capital name. -/
def symbol (kind : Kind) : String :=
  match kind.punctuator? with
  | some c => String.singleton c
  | none => kind.label

/-- The kind whose tokens are the given character. -/
def ofChar? (c : Char) : Option Kind :=
  all.find? fun kind => kind.punctuator? == some c

end Kind

/-- What a rule is looked up by: parsers only compare token types. -/
inductive TokenType where
  | text (value : String)
  | number (value : Int)
  | absent
  | kind (value : Kind)
deriving Repr, DecidableEq

namespace TokenType

/-- The readable name of a type. -/
def name : TokenType → String
  | text value => value
  | number value => toString value
  | absent => "None"
  | kind value => value.symbol

/-- A type in a listing of a grammar's types. -/
def plain : TokenType → String
  | kind value => "TokenKind." ++ value.label
  | other => other.name

/-- A type as messages show it exactly. -/
def display : TokenType → String
  | text value => quoted value
  | kind value => "<TokenKind." ++ value.label ++ ": " ++ quoted value.symbol ++ ">"
  | other => other.name

/-- A type as the expectation of a read, where the absent type expects nothing. -/
def expectation : TokenType → Option TokenType
  | absent => none
  | other => some other

end TokenType

/-- One token: its type and, if it has any, its text. -/
structure Token where
  type : TokenType
  text : Option String
deriving Repr, DecidableEq

namespace Token

/-- A token of the expression language. -/
def ofKind (kind : Kind) (text : String) : Token :=
  ⟨.kind kind, some text⟩

/-- A token in a message: the name of its type, and its text where that says more. -/
def describe (token : Token) : String :=
  match token.text with
  | none => token.type.name
  | some text =>
    if text = token.type.name then text else token.type.name ++ " (" ++ quoted text ++ ")"

/-- A token with both its fields. -/
def display (token : Token) : String :=
  let text := match token.text with
    | none => "None"
    | some text => quoted text
  "Token(type=" ++ token.type.display ++ ", text=" ++ text ++ ")"

/-- The operator that a token stands for: its text, or the name of its type. -/
def operator (token : Token) : String :=
  token.text.getD token.type.name

end Token

end Climb
