import PairLisp.CommandLine.OutputPath

/-!
# File trees

A file tree holds directories and files, and a program works in one of the directories. A place
in the tree is given by the names on the way there from the root. Paths are looked up part by
part, from the root if they begin with a slash and from the working directory if they do not: a
part may be left empty, a single dot stays where it is, two dots go up, and every part but the
last has to be a directory, as has the last one of a path that ends in a slash. The empty path
leads nowhere.
-/

namespace PairLisp.CommandLine

/-- Directories and files. A file has a content and a directory has none. -/
structure FileTree where
  /-- The place of the working directory. It is a directory, and so is every place above it. -/
  directory : List String := ["home"]
  /-- What is below the working directory, by the names on the way from there. -/
  entries : List (List String × Option String) := []
  /-- What is elsewhere, by the names on the way from the root. -/
  elsewhere : List (List String × Option String) := []
deriving DecidableEq

namespace FileTree

/-- The names on the way from the root. -/
abbrev Place := List String

/-- The way from the working directory to a place below it. -/
def below? (tree : FileTree) (place : Place) : Option (List String) :=
  if tree.directory <+: place then some (place.drop tree.directory.length) else none

/-- What is at a place: nothing, a directory or a file with its content. -/
def item? (tree : FileTree) (place : Place) : Option (Option String) :=
  if place <+: tree.directory then some none
  else
    match tree.below? place with
    | some names => tree.entries.lookup names
    | none => tree.elsewhere.lookup place

/-- How many entries there are, with the working directory and those above it. -/
def size (tree : FileTree) : Nat :=
  tree.directory.length + 1 + tree.entries.length + tree.elsewhere.length

/-! ## Paths -/

/-- The parts of a path, between its slashes. -/
def parts (path : String) : List String := (path.toList.splitOn '/').map String.ofList

/-- The place that a part of a path leads to from a place. There is nothing above the root. -/
def step (place : Place) (part : String) : Place :=
  if part = "" ∨ part = "." then place
  else if part = ".." then place.dropLast
  else place ++ [part]

/-- The place that the parts of a path lead to from a place, if all but the last are
directories. -/
def walk (tree : FileTree) (place : Place) : List String → Option Place
  | [] => some place
  | part :: parts =>
    if tree.item? place = some none then walk tree (step place part) parts else none

/-- Where the walk along a path begins. -/
def start (tree : FileTree) (path : String) : Place :=
  if path.toList.head? = some '/' then [] else tree.directory

/-- The place that a path leads to. -/
def resolve (tree : FileTree) (path : String) : Option Place :=
  if path = "" then none else walk tree (tree.start path) (parts path)

/-- What is at a path. -/
def find? (tree : FileTree) (path : String) : Option (Option String) :=
  (tree.resolve path).bind tree.item?

/-- Whether there is anything at a path. -/
def contains (tree : FileTree) (path : String) : Bool := (tree.find? path).isSome

/-- The content of the file at a path. -/
def read? (tree : FileTree) (path : String) : Option String := (tree.find? path).join

/-! ## New entries -/

/-- The entries with one more, in place of any other with the same names. -/
def putEntry (entries : List (List String × Option String)) (names : List String)
    (content : Option String) : List (List String × Option String) :=
  (names, content) :: entries.filter (·.1 ≠ names)

/-- The tree with an entry, in place of any other at the same place. -/
def put (tree : FileTree) (place : Place) (content : Option String) : FileTree :=
  match tree.below? place with
  | some names => { tree with entries := putEntry tree.entries names content }
  | none => { tree with elsewhere := putEntry tree.elsewhere place content }

/-- The directories that lead to an entry, the outermost first. -/
def parents : List String → List (List String)
  | [] => []
  | [_] => []
  | name :: names => [name] :: (parents names).map (name :: ·)

/-- The tree with a file or a directory below the working directory, and with the directories that
lead to it. -/
def add (tree : FileTree) (names : List String) (content : Option String) : FileTree :=
  let make (entries : List (List String × Option String)) (directory : List String) :=
    if (entries.lookup directory).isSome then entries else putEntry entries directory none
  { tree with entries := putEntry ((parents names).foldl make tree.entries) names content }

/-- Whether a path ends in a part that can name a file. -/
def namesFile (path : String) : Bool :=
  match (parts path).getLast? with
  | some part => part ≠ "" && part ≠ "." && part ≠ ".."
  | none => false

/-- The tree with a file written at a path. There is none if the path leads to a directory or
through something that is no directory. -/
def write? (tree : FileTree) (path : String) (content : String) : Option FileTree :=
  if !namesFile path then none
  else
    match tree.resolve path with
    | none => none
    | some place =>
      if tree.item? place = some none then none else some (tree.put place (some content))

/-- Where a report is written that is meant for a path: the first free one of the path and its
siblings. Every sibling that is taken is an entry of its own. -/
def freshPath (tree : FileTree) (path : String) : String :=
  (OutputPath.fresh (m := Id) tree.contains (tree.size + 1) path).run

end FileTree

end PairLisp.CommandLine
