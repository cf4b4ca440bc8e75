import Unveil.Text.Blank

namespace Unveil

/-- Directories and files below the current directory, as the set of their places. Nothing is known of what lies
above or outside. -/
structure FileTree where
  /-- the steps from the current directory to each directory below it -/
  directories : List (List String)
  files : List (List String)
  deriving Repr

namespace FileTree

def empty : FileTree := ⟨[], []⟩

instance : Inhabited FileTree := ⟨empty⟩

/-- The steps of a path as they are written, with the empty ones. -/
def steps (path : String) : List String := (Text.pieces '/' path.toList).map String.ofList

/-- One step down, up or nowhere from a directory; `none` where there is no such directory. -/
def enter? (t : FileTree) (here : List String) (step : String) : Option (List String) :=
  if step = "" || step = "." then some here
  else if step = ".." then (if here = [] then none else some here.dropLast)
  else if here ++ [step] ∈ t.directories then some (here ++ [step])
  else none

def isFile (t : FileTree) (path : String) : Bool :=
  let way := steps path
  if path.toList.head? = some '/' then false
  else
    match way.getLast? with
    | none => false
    | some name =>
      match way.dropLast.foldlM t.enter? [] with
      | none => false
      | some here => (here ++ [name]) ∈ t.files

/-- Enters a directory and makes it first if need be. -/
def makeStep (s : FileTree × List String) (step : String) : FileTree × List String :=
  let (t, here) := s
  if step = "" || step = "." then (t, here)
  else if step = ".." then (t, here.dropLast)
  else
    let place := here ++ [step]
    (if place ∈ t.directories then t else { t with directories := t.directories ++ [place] }, place)

/-- Makes a file with the directories above it; a path with a slash at its end makes a directory. -/
def make (t : FileTree) (path : String) : FileTree :=
  let way := steps path
  match way.getLast? with
  | none => t
  | some name =>
    let (t, here) := way.dropLast.foldl makeStep (t, [])
    if name = "" || name = "." || name = ".." then t
    else { t with files := t.files ++ [here ++ [name]] }

def remove (t : FileTree) (path : String) : FileTree :=
  let way := steps path
  match way.getLast?, way.dropLast.foldlM t.enter? [] with
  | some name, some here => { t with files := t.files.filter (· ≠ here ++ [name]) }
  | _, _ => t

end FileTree

end Unveil
