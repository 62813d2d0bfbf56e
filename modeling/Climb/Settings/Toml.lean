import Climb.Number.Reading
import Climb.Settings.Document

/-! Reading settings documents in the TOML format, without its dates and times. -/

namespace Climb.Toml

/-- Blanks inside a line. -/
def isGap (c : Char) : Bool :=
  c == ' ' || c == '\t'

/-- Moves past blanks inside a line. -/
def skipGap (text : List Char) : List Char :=
  text.dropWhile isGap

/-- Controls that no text or comment may hold. -/
def isForbidden (c : Char) : Bool :=
  (c.toNat < 32 || c.toNat == 127) && c != '\t'

/-- Moves past a comment, up to the end of its line. -/
def skipComment : List Char → Option (List Char)
  | '#' :: rest =>
    let comment := rest.takeWhile (· != '\n')
    if comment.any isForbidden then none else some (rest.drop comment.length)
  | text => some text

/-- Moves past blanks, line ends and comments. -/
def skipLines : Nat → List Char → Option (List Char)
  | 0, text => some text
  | bound + 1, text =>
    match text.dropWhile fun c => isGap c || c == '\n' with
    | '#' :: rest => do skipLines bound (← skipComment ('#' :: rest))
    | rest => some rest

/-- Characters of keys without quotes. -/
def isBareKey (c : Char) : Bool :=
  c.isAlphanum || c == '-' || c == '_'

/-- The value of a hexadecimal digit. -/
def hexValue? (c : Char) : Option Nat :=
  if '0' ≤ c ∧ c ≤ '9' then some (c.toNat - '0'.toNat)
  else if 'a' ≤ c ∧ c ≤ 'f' then some (c.toNat - 'a'.toNat + 10)
  else if 'A' ≤ c ∧ c ≤ 'F' then some (c.toNat - 'A'.toNat + 10)
  else none

/-- The character of a code point in hexadecimal digits. -/
def codePoint (width : Nat) (text : List Char) : Option (Char × List Char) := do
  let digits := text.take width
  let point ← digits.foldlM (fun value c => (hexValue? c).map (16 * value + ·)) 0
  if digits.length = width ∧ point.isValidChar then return (Char.ofNat point, text.drop width)
  else none

/-- Moves past the end of a line after a backslash, and all blanks and line ends that follow. -/
def skipFold (text : List Char) : Option (List Char) :=
  match skipGap text with
  | [] => some []
  | '\n' :: rest => some (rest.dropWhile fun c => isGap c || c == '\n')
  | _ => none

/-- What an escape stands for, the text starting after the backslash. -/
def escaped (multiline : Bool) : List Char → Option (List Char × List Char)
  | 'b' :: rest => some (['\x08'], rest)
  | 't' :: rest => some (['\t'], rest)
  | 'n' :: rest => some (['\n'], rest)
  | 'f' :: rest => some (['\x0c'], rest)
  | 'r' :: rest => some (['\r'], rest)
  | '"' :: rest => some (['"'], rest)
  | '\\' :: rest => some (['\\'], rest)
  | 'u' :: rest => (codePoint 4 rest).map fun (c, after) => ([c], after)
  | 'U' :: rest => (codePoint 8 rest).map fun (c, after) => ([c], after)
  | c :: rest =>
    if multiline && (isGap c || c == '\n') then (skipFold (c :: rest)).map fun after => ([], after)
    else none
  | [] => none

/-- The body of a text in double quotes, the text starting after the opening quotes. -/
def basicBody (multiline : Bool) : Nat → List Char → Option (List Char × List Char)
  | 0, _ => none
  | bound + 1, text =>
    match text with
    | [] => none
    | '\\' :: rest => do
      let (value, after) ← escaped multiline rest
      let (body, stop) ← basicBody multiline bound after
      return (value ++ body, stop)
    | c :: rest =>
      if c == '"' && !multiline then some ([], rest)
      else if multiline && "\"\"\"".toList.isPrefixOf text then some ([], text.drop 3)
      else if isForbidden c && !(multiline && c == '\n') then none
      else (basicBody multiline bound rest).map fun (body, stop) => (c :: body, stop)

/-- The body of a text in three single quotes, which has no escapes. -/
def literalLines : List Char → Option (List Char × List Char)
  | '\'' :: '\'' :: '\'' :: rest => some ([], rest)
  | c :: rest =>
    if isForbidden c && c != '\n' then none
    else (literalLines rest).map fun (body, stop) => (c :: body, stop)
  | [] => none

/-- Up to two more quotes that belong to a text which ends in four or five of them. -/
def extraQuotes (quote : Char) (found : List Char × List Char) : List Char × List Char :=
  let extra := (found.2.takeWhile (· == quote)).take 2
  (found.1 ++ extra, found.2.drop extra.length)

/-- A line end right after three opening quotes does not count. -/
def skipFirstLine : List Char → List Char
  | '\n' :: rest => rest
  | text => text

/-- A text in single quotes on one line. -/
def literalString (text : List Char) : Option (String × List Char) :=
  let body := text.takeWhile (· != '\'')
  match text.drop body.length with
  | '\'' :: after => if body.any isForbidden then none else some (String.ofList body, after)
  | _ => none

/-- A text in double quotes on one line. -/
def basicString (text : List Char) : Option (String × List Char) :=
  (basicBody false (text.length + 1) text).map fun (body, after) => (String.ofList body, after)

/-- A text in quotes of either kind. -/
def string : List Char → Option (String × List Char)
  | '"' :: '"' :: '"' :: rest =>
    (basicBody true (rest.length + 1) (skipFirstLine rest)).map fun found =>
      let (body, after) := extraQuotes '"' found
      (String.ofList body, after)
  | '\'' :: '\'' :: '\'' :: rest =>
    (literalLines (skipFirstLine rest)).map fun found =>
      let (body, after) := extraQuotes '\'' found
      (String.ofList body, after)
  | '"' :: rest => basicString rest
  | '\'' :: rest => literalString rest
  | _ => none

/-- One part of a key. -/
def keyPart (text : List Char) : Option (String × List Char) :=
  match text with
  | '"' :: rest => basicString rest
  | '\'' :: rest => literalString rest
  | _ =>
    let bare := text.takeWhile isBareKey
    if bare.isEmpty then none else some (String.ofList bare, text.drop bare.length)

/-- A key: parts with points between them. -/
def key : Nat → List Char → Option (List String × List Char)
  | 0, _ => none
  | bound + 1, text => do
    let (part, after) ← keyPart text
    match skipGap after with
    | '.' :: rest =>
      let (parts, stop) ← key bound (skipGap rest)
      return (part :: parts, stop)
    | rest => return ([part], rest)

/-- Digits with single underscores between them. -/
def digitRun (isDigit : Char → Bool) (text : List Char) : List Char :=
  match text with
  | c :: rest => if isDigit c then c :: more rest else []
  | [] => []
where
  /-- Further digits, each with or without an underscore before it. -/
  more : List Char → List Char
    | '_' :: c :: rest => if isDigit c then '_' :: c :: more rest else []
    | c :: rest => if isDigit c then c :: more rest else []
    | [] => []

/-- A whole number with a base mark after its zero. -/
def basedInt (base : Nat) (text : List Char) : Option (Datum × List Char) :=
  let isDigitOf (c : Char) := (hexValue? c).any (· < base)
  let run := digitRun isDigitOf text
  if run.isEmpty then none
  else
    let digits := (run.filter (· != '_')).filterMap hexValue?
    let value := digits.foldl (fun value digit => base * value + digit) 0
    some (.int value, text.drop run.length)

/-- The fraction of a number, or nothing. -/
def fractionRun : List Char → List Char
  | '.' :: rest =>
    let run := digitRun isDigit rest
    if run.isEmpty then [] else '.' :: run
  | _ => []

/-- The exponent of a number, or nothing. -/
def exponentRun : List Char → List Char
  | mark :: rest =>
    let sign := (rest.takeWhile fun c => c == '+' || c == '-').take 1
    let run := digitRun isDigit (rest.drop sign.length)
    if (mark == 'e' || mark == 'E') && !run.isEmpty then mark :: sign ++ run else []
  | [] => []

/-- What a reader found, where finding nothing means that the document is malformed. -/
def wellFormed {α : Type} : Option α → Except Error α
  | some found => .ok found
  | none => .error .settingsMalformed

/-- A decimal number, whole or not. -/
def decimal (text : List Char) : Except Error (Datum × List Char) := do
  let sign := (text.takeWhile fun c => c == '+' || c == '-').take 1
  let afterSign := text.drop sign.length
  -- A leading zero is the whole of the integral part.
  let whole := if afterSign.head? == some '0' then ['0'] else digitRun isDigit afterSign
  if whole.isEmpty then .error .settingsMalformed
  else
    let fraction := fractionRun (afterSign.drop whole.length)
    let exponent := exponentRun (afterSign.drop (whole.length + fraction.length))
    let lexeme := sign ++ whole ++ fraction ++ exponent
    let shown := String.ofList lexeme
    let value ← if fraction.isEmpty && exponent.isEmpty
      then (readInt shown).map Datum.int
      else (readDouble shown).map Datum.float
    return (value, text.drop lexeme.length)

/-- A number that is written as a word. -/
def wordNumber? (text : List Char) : Option (Datum × List Char) :=
  let (_, word) := splitSign text
  let shown := word.take 3
  if shown == "inf".toList || shown == "nan".toList then
    let length := text.length - word.length + 3
    (readDouble (String.ofList (text.take length))).toOption.map fun value =>
      (.float value, text.drop length)
  else none

/-- A number in any of its forms. -/
def number (text : List Char) : Except Error (Datum × List Char) :=
  let special := match text with
    | '0' :: 'x' :: rest => basedInt 16 rest
    | '0' :: 'o' :: rest => basedInt 8 rest
    | '0' :: 'b' :: rest => basedInt 2 rest
    | _ => wordNumber? text
  match special with
  | some found => .ok found
  | none => decimal text

/-- A key and its value, each inside a line. -/
def pair (value : List Char → Except Error (Datum × List Char)) (text : List Char) :
    Except Error ((List String × Datum) × List Char) := do
  let (path, after) ← wellFormed (key (text.length + 1) text)
  match after with
  | '=' :: rest =>
    let (item, stop) ← value (skipGap rest)
    return ((path, item), stop)
  | _ => .error .settingsMalformed

/-- The items of a list, the text starting after the opening bracket or a comma. -/
def listItems (value : List Char → Except Error (Datum × List Char)) :
    Nat → List Char → Except Error (List Datum × List Char)
  | 0, _ => .error .settingsMalformed
  | bound + 1, text => do
    match ← wellFormed (skipLines (text.length + 1) text) with
    | ']' :: rest => return ([], rest)
    | start =>
      let (item, after) ← value start
      match ← wellFormed (skipLines (after.length + 1) after) with
      | ']' :: rest => return ([item], rest)
      | ',' :: rest =>
        let (items, stop) ← listItems value bound rest
        return (item :: items, stop)
      | _ => .error .settingsMalformed

/-- The pairs of a table in braces, the text starting at a key. -/
def inlinePairs (value : List Char → Except Error (Datum × List Char)) :
    Nat → Document → List Char → Except Error (Document × List Char)
  | 0, _, _ => .error .settingsMalformed
  | bound + 1, document, text => do
    let ((path, item), after) ← pair value text
    if document.isMarked path .frozen then .error .settingsMalformed
    else
      let stem ← wellFormed path.getLast?
      let entries ← wellFormed
        (changeTable false (addEntry stem item) path.dropLast document.entries)
      let changed := { document with entries := entries }
      match skipGap after with
      | '\x7d' :: rest => return (changed, rest)
      | ',' :: rest =>
        let marked := if isContainer item then changed.mark path .frozen else changed
        inlinePairs value bound marked (skipGap rest)
      | _ => .error .settingsMalformed

/-- A value, nested at most a number of levels. -/
def value : Nat → List Char → Except Error (Datum × List Char)
  | 0, _ => .error .settingsMalformed
  | depth + 1, text =>
    match text with
    | '"' :: _ | '\'' :: _ =>
      (wellFormed (string text)).map fun (body, after) => (.text body, after)
    | '[' :: rest =>
      (listItems (value depth) (rest.length + 1) rest).map fun (items, after) =>
        (.list items, after)
    | '\x7b' :: rest =>
      match skipGap rest with
      | '\x7d' :: after => .ok (.table [], after)
      | start =>
        (inlinePairs (value depth) (start.length + 1) {} start).map fun (document, after) =>
          (.table document.entries, after)
    | 't' :: 'r' :: 'u' :: 'e' :: after => .ok (.bool true, after)
    | 'f' :: 'a' :: 'l' :: 's' :: 'e' :: after => .ok (.bool false, after)
    | _ => number text

/-- One statement: a header or a key with its value. -/
def statement (document : Document) (text : List Char) : Except Error (Document × List Char) := do
  match text with
  | '[' :: '[' :: rest =>
    let (path, after) ← wellFormed (key (rest.length + 1) (skipGap rest))
    match after with
    | ']' :: ']' :: stop => return (← wellFormed (document.openItem path), stop)
    | _ => .error .settingsMalformed
  | '[' :: rest =>
    let (path, after) ← wellFormed (key (rest.length + 1) (skipGap rest))
    match after with
    | ']' :: stop => return (← wellFormed (document.openTable path), stop)
    | _ => .error .settingsMalformed
  | '#' :: _ => return (document, text)
  | _ =>
    -- The value is read before its key is judged.
    let ((path, item), after) ← pair (value (text.length + 1)) text
    return (← wellFormed (document.assign path item), after)

/-- Reads statements, one on a line. -/
def statements : Nat → Document → List Char → Except Error Document
  | 0, _, _ => .error .settingsMalformed
  | bound + 1, document, text => do
    match skipGap text with
    | [] => return document
    | '\n' :: rest => statements bound document rest
    | start =>
      let (changed, after) ← statement document start
      match ← wellFormed (skipComment (skipGap after)) with
      | [] => return changed
      | '\n' :: rest => statements bound changed rest
      | _ => .error .settingsMalformed

/-- A text in which every line ends in a line feed alone. -/
def unixLines : List Char → List Char
  | '\r' :: '\n' :: rest => '\n' :: unixLines rest
  | c :: rest => c :: unixLines rest
  | [] => []

/-- Reads a document. -/
def read (text : String) : Except Error (List (String × Datum)) :=
  let lines := unixLines text.toList
  (statements (lines.length + 1) {} lines).map Document.entries

end Climb.Toml
