/-!
# Where a report is written

A report never overwrites a file. If its path is taken, it goes to the first sibling that is
free: the stem of the file name with 1, 2, 3 and so on, before the extension.

The extension is what follows the last dot of a file name, unless the dot is its first
character. A path that ends in `..` names no file; its siblings are the numbers themselves,
inside the directory that it leads to.
-/

namespace PairLisp.CommandLine.OutputPath

/-- Leaves out slashes and single dots at the end of a path, given in reverse. The first
character of a path stays. -/
def trimEnd : List Char → List Char
  | '/' :: c :: cs => trimEnd (c :: cs)
  | '.' :: '/' :: cs => trimEnd ('/' :: cs)
  | cs => cs

/-- A path split before its last part, slashes at its end left out. -/
def splitLast (path : List Char) : List Char × List Char :=
  let reversed := trimEnd path.reverse
  ((reversed.dropWhile (· ≠ '/')).reverse, (reversed.takeWhile (· ≠ '/')).reverse)

/-- A file name split at the dot before its extension, which is left out. -/
def splitExtension (name : List Char) : List Char × Option (List Char) :=
  let reversed := name.reverse
  match reversed.dropWhile (· ≠ '.') with
  | _ :: c :: stem => ((c :: stem).reverse, some (reversed.takeWhile (· ≠ '.')).reverse)
  | _ => (name, none)

/-- What stands before a name in the directory that a path leads to. -/
def inside (path : List Char) : List Char :=
  if path.getLast? = none ∨ path.getLast? = some '/' then path else path ++ ['/']

/-- What stands before the number in the siblings of a path, and what stands after it. -/
def around (path : List Char) : List Char × List Char :=
  let (parent, name) := splitLast path
  if name = [] ∨ name = ['.'] ∨ name = ['.', '.'] then
    -- the path names no file
    (inside path, [])
  else
    let directory := inside (trimEnd parent.reverse).reverse
    match splitExtension name with
    | (stem, none) => (directory ++ stem, [])
    | (stem, some extension) => (directory ++ stem, '.' :: extension)

/-- The sibling of a path with the given number. -/
def sibling (path : String) (n : Nat) : String :=
  let (before, after) := around path.toList
  String.ofList before ++ toString n ++ String.ofList after

variable {m : Type → Type} [Monad m]

/-- The first sibling that is free, from the given number on and among so many of them. Whether a
path is taken may be a question to the world. -/
def firstFree (taken : String → m Bool) (path : String) :
    (start : Nat) → (tries : Nat) → m (Option String)
  | _, 0 => pure none
  | n, tries + 1 => do
    if ← taken (sibling path n) then firstFree taken path (n + 1) tries
    else pure (some (sibling path n))

/-- The path itself if it is free, and otherwise its first sibling that is, among the given
number of siblings. With more siblings than there are taken paths, one of them is free. -/
def fresh (taken : String → m Bool) (siblings : Nat) (path : String) : m String := do
  if ← taken path then
    let free? ← firstFree taken path 1 siblings
    pure (free?.getD path)
  else pure path

end PairLisp.CommandLine.OutputPath
