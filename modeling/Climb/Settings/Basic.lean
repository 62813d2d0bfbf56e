import Climb.Error
import Climb.Settings.Files
import Climb.Settings.Toml

/-! Settings: what they are, how a document gives them, and where that document is found. -/

namespace Climb

/-- The settings, as the document gives them: whatever is there counts as set or not set. -/
structure Settings where
  allowTrailing : Datum := .bool false
  color : Datum := .bool true

namespace Settings

/-- The name of settings documents. -/
def fileName : String := "pratt.toml"

/-- A value from a section of a document, which has to be a table if it is there. -/
def fromSection (entries : List (String × Datum)) (name key : String) (default : Datum) :
    Except Error Datum :=
  match lookupEntry entries name with
  | none => .ok default
  | some (.table inner) => .ok ((lookupEntry inner key).getD default)
  | some other => .error (.sectionNotATable other)

/-- Reads settings from a document. -/
def ofDocument (text : String) : Except Error Settings := do
  let entries ← Toml.read text
  let allowTrailing ← fromSection entries "parse" "allow_trailing" (.bool false)
  let color ← fromSection entries "output" "color" (.bool true)
  return ⟨allowTrailing, color⟩

/-- Reads settings from what stands at their place. -/
def ofEntry : Entry → Except Error Settings
  | .file text => ofDocument text
  | .directory => .error .settingsUnreadable

/-- Looks for a document in a directory and then in those above it. -/
def searchUp (tree : FileTree) : Nat → List String → Option (List String)
  | 0, _ => none
  | bound + 1, place =>
    let candidate := place ++ [fileName]
    if (tree.get? candidate).isSome then some candidate
    else if place.isEmpty then none
    else searchUp tree bound place.dropLast

/-- Finds the nearest document to a path: in that directory, or around that file, or above. -/
def find (tree : FileTree) (start : List String) (path : String) : Except Error (List String) :=
  let found := (FileTree.resolve start path).bind fun place =>
    let directory := match tree.get? place with
      | some (.file _) => place.dropLast
      | _ => place
    searchUp tree (directory.length + 1) directory
  match found with
  | some place => .ok place
  | none => .error .settingsMissing

/-- The settings of the nearest document, or the usual ones if there is none. -/
def nearest (tree : FileTree) (start : List String) (path : String) : Except Error Settings :=
  match find tree start path with
  | .error _ => .ok {}
  | .ok place =>
    match tree.get? place with
    | some entry => ofEntry entry
    | none => .ok {}

end Settings

end Climb
