import Climb.Error

/-! Diagnostics: a header with severity and code, and a line for each note. -/

namespace Climb

/-- How serious a diagnostic is. -/
inductive Severity where
  | error | warning | note
deriving Repr, DecidableEq

/-- The name of a severity. -/
def Severity.name : Severity → String
  | .error => "error"
  | .warning => "warning"
  | .note => "note"

/-- The sequence that switches a terminal to the colour of a severity. -/
def Severity.color : Severity → String
  | .error => "\x1b[1;31m"
  | .warning => "\x1b[1;33m"
  | .note => "\x1b[1;36m"

/-- One message with remarks. -/
structure Diagnostic where
  severity : Severity
  code : String
  message : String
  notes : List String := []
deriving Repr, DecidableEq

/-- A text between the sequence that switches a colour on and the one that resets it. -/
def painted (color : Bool) (start text : String) : String :=
  if color then start ++ text ++ "\x1b[0m" else text

/-- The text of a diagnostic, with or without colours. -/
def Diagnostic.render (diagnostic : Diagnostic) (color : Bool) : String :=
  let header := painted color diagnostic.severity.color
      (diagnostic.severity.name ++ "[" ++ diagnostic.code ++ "]") ++
    painted color "\x1b[1m" (": " ++ diagnostic.message)
  let notes := diagnostic.notes.map fun note =>
    "  " ++ painted color "\x1b[1;34m" "=" ++ " note: " ++ note
  String.intercalate "\n" (header :: notes)

/-- The diagnostic of a failure that is reported as one. -/
def Error.diagnostic? (failure : Error) : Option Diagnostic :=
  failure.code?.map fun code => ⟨.error, code, failure.message, failure.notes⟩

end Climb
