import Unveil.Error
import Unveil.Path

namespace Unveil

/-- What finds the path of an image by its name. -/
abbrev ImageFinder := String → Except DeckError String

/-- A fixed table of names and paths; the first entry of a name counts. -/
def ImageFinder.ofTable (table : List (String × String)) : ImageFinder := fun name =>
  match table.lookup name with
  | some path => .ok path
  | none => .error (.imageNotFound name [])

/-- Names that were found, with their paths. -/
structure ImageCache where
  entries : List (String × String)
  deriving Repr

namespace ImageCache

def empty : ImageCache := ⟨[]⟩

instance : Inhabited ImageCache := ⟨empty⟩

def get? (c : ImageCache) (name : String) : Option String := c.entries.lookup name

/-- Each name has one path, the last one that was given. -/
def insert (c : ImageCache) (name path : String) : ImageCache :=
  ⟨(name, path) :: c.entries.filter fun entry => entry.1 != name⟩

def size (c : ImageCache) : Nat := c.entries.length

end ImageCache

/-- Where images are searched: in the directories in order, in each one the name as it is before the name with
an extension. -/
structure ImageSearch where
  base : String
  /-- further directories, each once -/
  paths : List String
  deriving Repr

namespace ImageSearch

/-- The extensions that a name may lack. -/
def extensions : List String := ["png", "jpg", "jpeg", "gif", "bmp", "tif", "tiff", "pdf", "eps"]

def addPath (s : ImageSearch) (path : String) : ImageSearch :=
  { s with paths := Path.addNew s.paths (Path.join s.base path) }

/-- A search in a base directory and in paths that may be relative to it. -/
def ofPaths (base : String) (paths : List String) : ImageSearch := paths.foldl addPath ⟨base, []⟩

def directories (s : ImageSearch) : List String := s.base :: s.paths

/-- The paths that a name may stand for in a directory, in the order of the search. -/
def candidates (directory name : String) : List String :=
  Path.join directory name :: extensions.map fun ext => Path.join directory (name ++ "." ++ ext)

/-- The first path of the search that leads to a file. An absolute name is searched by itself. -/
def search (s : ImageSearch) (isFile : String → Bool) : ImageFinder := fun name =>
  let directories := if Path.isAbsolute name then [""] else s.directories
  match directories.findSome? fun directory => (candidates directory name).find? isFile with
  | some path => .ok path
  | none => .error (.imageNotFound name s.directories)

/-- Searches for a name that is not in the cache, and puts what is found there. -/
def resolve (s : ImageSearch) (isFile : String → Bool) (cache : ImageCache) (name : String) :
    Except DeckError String × ImageCache :=
  match cache.get? name with
  | some path => (.ok path, cache)
  | none =>
    match s.search isFile name with
    | .ok path => (.ok path, cache.insert name path)
    | .error error => (.error error, cache)

end ImageSearch

end Unveil
