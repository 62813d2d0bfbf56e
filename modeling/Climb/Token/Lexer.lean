import Climb.Token.Scanner

/-! Several readers on one text: they share the place in it, so each token goes to one of them. -/

namespace Climb

/-- A text being read, and for each reader opened on it whether that reader has ended. -/
structure Lexer where
  scanner : Scanner
  ended : List Bool
deriving Repr, DecidableEq

namespace Lexer

/-- A text with no reader yet. -/
def ofString (text : String) : Lexer :=
  ⟨.ofString text, []⟩

/-- How many characters of the text have been read. -/
def offset (lexer : Lexer) : Nat :=
  lexer.scanner.offset

/-- Opens a reader and returns its index. -/
def openReader (lexer : Lexer) : Nat × Lexer :=
  (lexer.ended.length, { lexer with ended := lexer.ended ++ [false] })

/-- Whether a reader can still deliver tokens. -/
def isActive (lexer : Lexer) (reader : Nat) : Bool :=
  lexer.ended[reader]? == some false

/-- The next token for a reader. A reader that met the end or a fault never delivers again. -/
def next (lexer : Lexer) (reader : Nat) : Except Error (Option Token) × Lexer :=
  if lexer.isActive reader then
    match lexer.scanner.next with
    | (.ok (some token), after) => (.ok (some token), { lexer with scanner := after })
    | (outcome, after) => (outcome, ⟨after, lexer.ended.set reader true⟩)
  else (.ok none, lexer)

/-- All remaining tokens, through a reader of their own. -/
def lex (lexer : Lexer) : Except Error (List Token) × Lexer :=
  let (tokens, fault, after) := lexer.scanner.tokens
  let outcome := match fault with
    | none => .ok tokens
    | some fault => .error fault
  (outcome, { lexer with scanner := after })

end Lexer

end Climb
