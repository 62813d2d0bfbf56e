import Climb.Datum

/-! Settings documents under construction: nested tables, and which of them may still be changed. -/

namespace Climb

/-- What is recorded about a place in a document. -/
inductive Guard where
  /-- The table was opened by its own header, or by a dotted key. -/
  | declared
  /-- The value is complete, with everything in it. -/
  | frozen
deriving Repr, DecidableEq

/-- A place in a document with what is recorded about it. -/
structure GuardMark where
  path : List String
  guard : Guard
deriving Repr, DecidableEq

/-- Whether a mark applies to a place: a frozen value also freezes what lies in it. -/
def GuardMark.covers (mark : GuardMark) (path : List String) : Bool :=
  mark.path == path || (mark.guard == .frozen && mark.path.isPrefixOf path)

/-- The value of a key. -/
def lookupEntry (entries : List (String × Datum)) (key : String) : Option Datum :=
  (entries.find? fun entry => entry.1 == key).map (·.2)

/-- Gives a key a value in place of the one it had. -/
def putEntry : List (String × Datum) → String → Datum → List (String × Datum)
  | [], key, value => [(key, value)]
  | (other, old) :: rest, key, value =>
    if other == key then (key, value) :: rest else (other, old) :: putEntry rest key value

/--
Changes the table at a path, making tables on the way where there are none. With `throughLists` a
list stands for its last item. Fails if something on the way is no table.
-/
def changeTable (throughLists : Bool)
    (change : List (String × Datum) → Option (List (String × Datum))) :
    List String → List (String × Datum) → Option (List (String × Datum))
  | [], entries => change entries
  | key :: path, entries => do
    match lookupEntry entries key with
    | none => return putEntry entries key (.table (← changeTable throughLists change path []))
    | some (.table inner) =>
      return putEntry entries key (.table (← changeTable throughLists change path inner))
    | some (.list items) =>
      match throughLists, items.getLast? with
      | true, some (.table inner) =>
        let changed ← changeTable throughLists change path inner
        return putEntry entries key (.list (items.dropLast ++ [.table changed]))
      | _, _ => none
    | some _ => none

/-- Adds a key that is not there yet. -/
def addEntry (key : String) (value : Datum) (entries : List (String × Datum)) :
    Option (List (String × Datum)) :=
  if (lookupEntry entries key).isSome then none else some (entries ++ [(key, value)])

/-- Adds an empty table to the list of a key. -/
def addItem (key : String) (entries : List (String × Datum)) : Option (List (String × Datum)) :=
  match lookupEntry entries key with
  | none => some (putEntry entries key (.list [.table []]))
  | some (.list items) => some (putEntry entries key (.list (items ++ [.table []])))
  | some _ => none

/-- Whether a value is a container, which is complete once it is written. -/
def isContainer : Datum → Bool
  | .list _ | .table _ => true
  | _ => false

/-- A document as far as it has been read. -/
structure Document where
  entries : List (String × Datum) := []
  marks : List GuardMark := []
  /-- Tables opened by dotted keys in this section, closed to later sections. -/
  pending : List (List String) := []
  /-- The path of the section that keys belong to. -/
  header : List String := []

namespace Document

/-- Whether something is recorded about a place. -/
def isMarked (document : Document) (path : List String) (guard : Guard) : Bool :=
  document.marks.any fun mark => mark.guard == guard && mark.covers path

/-- Records something about a place. -/
def mark (document : Document) (path : List String) (guard : Guard) : Document :=
  { document with marks := ⟨path, guard⟩ :: document.marks }

/-- Ends a section: the tables that its dotted keys opened count as declared from here on. -/
def endSection (document : Document) : Document :=
  { document with
    marks := document.pending.map (⟨·, .declared⟩) ++ document.marks
    pending := [] }

/-- Opens a table by its header, once for each table. -/
def openTable (document : Document) (path : List String) : Option Document := do
  let document := document.endSection
  if document.isMarked path .declared || document.isMarked path .frozen then none
  else
    let entries ← changeTable true some path document.entries
    return { document.mark path .declared with entries := entries, header := path }

/-- Opens the next table of a list of tables; what was recorded in the previous one is forgotten. -/
def openItem (document : Document) (path : List String) : Option Document := do
  let document := document.endSection
  if document.isMarked path .frozen then none
  else
    let key ← path.getLast?
    let entries ← changeTable true (addItem key) path.dropLast document.entries
    let marks := document.marks.filter fun mark => !path.isPrefixOf mark.path
    return { document with
      entries := entries
      marks := ⟨path, .declared⟩ :: marks
      header := path }

/-- Tables that a dotted key goes through. -/
def pathsThrough (header : List String) (key : List String) : List (List String) :=
  (List.range (key.length - 1)).map fun count => header ++ key.take (count + 1)

/-- Sets a key of the current section. -/
def assign (document : Document) (key : List String) (value : Datum) : Option Document := do
  let through := pathsThrough document.header key
  let parent := document.header ++ key.dropLast
  if through.any (document.isMarked · .declared) || document.isMarked parent .frozen then none
  else
    let stem ← key.getLast?
    let entries ← changeTable true (addEntry stem value) parent document.entries
    let document := { document with
      entries := entries
      pending := document.pending ++ through }
    return if isContainer value then document.mark (document.header ++ key) .frozen else document

end Document

end Climb
