import Climb.Error
import Climb.Text.Blank
import Climb.Text.Letter
import Climb.Text.Numeral

/-! Text as tokens: names, numbers and one-character punctuators, with white space between them. -/

namespace Climb

/-- Characters that a name may start with. -/
def startsName (c : Char) : Bool :=
  isLetter c || c == '_'

/-- Characters that a name may go on with, digits of any script included. -/
def continuesName (c : Char) : Bool :=
  isLetter c || isNumeral c || c == '_'

/-- A place in a text: what is left of it, and how many characters came before. -/
structure Scanner where
  rest : List Char
  offset : Nat
deriving Repr, DecidableEq

namespace Scanner

/-- The start of a text. -/
def ofString (text : String) : Scanner :=
  ⟨text.toList, 0⟩

/-- Moves on by a number of characters. -/
def advance (scanner : Scanner) (count : Nat) : Scanner :=
  ⟨scanner.rest.drop count, scanner.offset + count⟩

/-- Moves past white space. -/
def skipBlanks (scanner : Scanner) : Scanner :=
  scanner.advance (scanner.rest.takeWhile isBlank).length

/-- How many characters the number at the start of a text has. -/
def numberLength (text : List Char) : Nat :=
  let whole := (text.takeWhile isDigit).length
  match text.drop whole with
  | '.' :: fraction =>
    -- A point belongs to the number only if a digit follows it.
    let digits := (fraction.takeWhile isDigit).length
    if digits = 0 then whole else whole + 1 + digits
  | _ => whole

/-- The kind and length of the token at the start of a text. -/
def lexeme? : List Char → Option (Kind × Nat)
  | [] => none
  | c :: rest =>
    match Kind.ofChar? c with
    | some kind => some (kind, 1)
    | none =>
      if isDigit c then some (.number, numberLength (c :: rest))
      else if startsName c then some (.name, 1 + (rest.takeWhile continuesName).length)
      else none

/-- Reads the next token, or finds the end of the text, or stops before a character of no token. -/
def next (scanner : Scanner) : Except Error (Option Token) × Scanner :=
  let start := scanner.skipBlanks
  match start.rest with
  | [] => (.ok none, start)
  | c :: _ =>
    match lexeme? start.rest with
    | none => (.error (.lexical (.unexpectedCharacter c start.offset)), start)
    | some (kind, length) =>
      (.ok (some (.ofKind kind (String.ofList (start.rest.take length)))), start.advance length)

/-- The tokens up to the end or the first fault, that fault, and where reading stopped. -/
def drain : Nat → Scanner → List Token × Option Error × Scanner
  | 0, scanner => ([], none, scanner)
  | bound + 1, scanner =>
    match scanner.next with
    | (.ok none, stop) => ([], none, stop)
    | (.error fault, stop) => ([], some fault, stop)
    | (.ok (some token), after) =>
      let (tokens, fault, stop) := drain bound after
      (token :: tokens, fault, stop)

/-- All remaining tokens. Each takes a character, so their number bounds the search. -/
def tokens (scanner : Scanner) : List Token × Option Error × Scanner :=
  scanner.drain (scanner.rest.length + 1)

end Scanner

/-- The tokens of a text up to its first fault, and that fault. -/
def lex (text : String) : List Token × Option Error :=
  let (tokens, fault, _) := (Scanner.ofString text).tokens
  (tokens, fault)

end Climb
