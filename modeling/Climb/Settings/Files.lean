/-! A tree of files and directories, and the places that paths name in it. -/

namespace Climb

/-- What stands at a place in a tree. -/
inductive Entry where
  | file (text : String)
  | directory
deriving Repr, DecidableEq

/-- The entries below a directory, each with its path from there. -/
structure FileTree where
  entries : List (List String × Entry)
deriving Repr, DecidableEq

/-- The parts of a path, a slash between each two. -/
def pathParts (path : String) : List String :=
  path.splitOn "/"

namespace FileTree

/-- What stands at a place; the root is a directory. -/
def get? (tree : FileTree) (place : List String) : Option Entry :=
  if place.isEmpty then some .directory
  else (tree.entries.find? fun entry => entry.1 == place).map (·.2)

/-- One part of a path, by its spelling alone; nothing if it leads above the root. -/
def descend (place : List String) (part : String) : Option (List String) :=
  if part == "" || part == "." then some place
  else if part == ".." then (if place.isEmpty then none else some place.dropLast)
  else some (place ++ [part])

/-- The place that a path names from a starting place, by its spelling alone. -/
def resolve (start : List String) (path : String) : Option (List String) :=
  (pathParts path).foldlM descend start

/-- Follows a path part by part: every part but the last has to be a directory that exists. -/
def follow (tree : FileTree) : List String → List String → Option (List String)
  | place, [] => some place
  | place, part :: rest =>
    if tree.get? place == some .directory then
      (descend place part).bind fun next => follow tree next rest
    else none

/-- What a path leads to from a starting place. -/
def lookup (tree : FileTree) (start : List String) (path : String) : Option Entry :=
  if path.isEmpty then none
  else (tree.follow start (pathParts path)).bind tree.get?

end FileTree

end Climb
