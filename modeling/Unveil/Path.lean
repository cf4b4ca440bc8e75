import Unveil.Text.Blank

namespace Unveil.Path

def isAbsolute (path : String) : Bool := path.toList.head? = some '/'

/-- The steps of a path. Empty steps and steps to the same directory are left out, except a first step
that names the current directory. -/
def steps (path : String) : List (List Char) :=
  let pieces := Text.pieces '/' path.toList
  let inner := pieces.tail.filter fun piece => piece ≠ [] ∧ piece ≠ ['.']
  match pieces.head? with
  | none => inner
  | some [] => if isAbsolute path then ['/'] :: inner else inner
  | some first => first :: inner

/-- Paths are kept as they were written; two ways to write the same steps are equal paths. -/
def same (a b : String) : Bool := steps a == steps b

/-- A path below a directory; an absolute path stays as it is. -/
def join (directory path : String) : String :=
  if isAbsolute path then path
  else if directory.isEmpty || directory.toList.getLast? = some '/' then directory ++ path
  else directory ++ "/" ++ path

/-- Adds a path to a list that has no equal one yet. -/
def addNew (paths : List String) (path : String) : List String :=
  if paths.any (same path) then paths else paths ++ [path]

end Unveil.Path
