import Climb.Number.Shortest
import Climb.Text.Quoted

/-! Dynamic values: settings, and whatever a caller offers where a number or a rule is wanted. -/

namespace Climb

/-- A value whose form is known only when it is looked at. -/
inductive Datum where
  | null
  | bool (value : Bool)
  | int (value : Int)
  | float (value : Float)
  | text (value : String)
  | list (items : List Datum)
  | table (entries : List (String × Datum))
deriving Inhabited

namespace Datum

/-- The name of a value's form, as messages give it. -/
def formName : Datum → String
  | null => "NoneType"
  | bool _ => "bool"
  | int _ => "int"
  | float _ => "float"
  | text _ => "str"
  | list _ => "list"
  | table _ => "dict"

mutual

/-- A value as messages show it. -/
def display : Datum → String
  | null => "None"
  | bool value => if value then "True" else "False"
  | int value => toString value
  | float value => floatText value
  | text value => quoted value
  | list items => "[" ++ String.intercalate ", " (displayItems items) ++ "]"
  | table entries => "\x7b" ++ String.intercalate ", " (displayEntries entries) ++ "\x7d"

/-- The items of a list, each as messages show it. -/
def displayItems : List Datum → List String
  | [] => []
  | item :: rest => item.display :: displayItems rest

/-- The entries of a table, each as messages show it. -/
def displayEntries : List (String × Datum) → List String
  | [] => []
  | (key, value) :: rest => (quoted key ++ ": " ++ value.display) :: displayEntries rest

end

/-- A value inside running text: texts bare, everything else as messages show it. -/
def plain : Datum → String
  | text value => value
  | other => other.display

/-- Whether a value counts as set: zeros and empty values do not. -/
def truthy : Datum → Bool
  | null => false
  | bool value => value
  | int value => value != 0
  | float value => value != 0
  | text value => value != ""
  | list items => !items.isEmpty
  | table entries => !entries.isEmpty

end Datum

end Climb
