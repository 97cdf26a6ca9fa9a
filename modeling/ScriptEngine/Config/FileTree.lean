/-!
# Files

What a loader can see of a file system: the texts of files by their names from the top,
the directories between, and the directory it works in.  A path is written from the top or
from the working directory; `..` goes up from a directory that is there.
-/

namespace ScriptEngine.Config

/-- A path as it is written: from the top if it is absolute, else from the working directory. -/
structure FilePath where
  absolute : Bool
  names : List String
deriving DecidableEq, Repr

/-- The names in a written path; empty names and single dots do not count. -/
def namesOf (text : String) : List String :=
  (text.splitOn "/").filter fun name => name != "" && name != "."

namespace FilePath

def ofText (text : String) : FilePath := ⟨text.startsWith "/", namesOf text⟩

/-- The path without its last name; the top and the working directory have none above them. -/
def parent? (path : FilePath) : Option FilePath :=
  if path.names.isEmpty then none else some ⟨path.absolute, path.names.dropLast⟩

def join (path : FilePath) (name : String) : FilePath := ⟨path.absolute, path.names ++ [name]⟩

end FilePath

/-- Files with their texts and further directories, by their names from the top. -/
structure FileTree where
  files : List (List String × String) := []
  directories : List (List String) := []
  /-- The directory that paths start in which are not absolute. -/
  working : List String := []
deriving Inhabited

/-- What a path leads to. -/
inductive FileLookup where
  | file (text : String)
  | directory
  | missing
  /-- A name before the last one is a file's. -/
  | throughFile
deriving DecidableEq, Repr

namespace FileTree

/-- The entry at a place, which no `..` leads to. -/
def entry (t : FileTree) (place : List String) : FileLookup :=
  match t.files.lookup place with
  | some text => .file text
  | none =>
    if place.isEmpty || t.directories.any (place.isPrefixOf ·) ||
        t.files.any fun (file, _) => place.isPrefixOf file then .directory
    else .missing

/-- Follows names from a directory. -/
def follow (t : FileTree) : List String → List String → FileLookup
  | here, [] => t.entry here
  | here, name :: rest =>
    match t.entry here with
    | .directory => t.follow (if name = ".." then here.dropLast else here ++ [name]) rest
    | .missing => .missing
    | _ => .throughFile

/-- Where a path starts. -/
def startOf (t : FileTree) (path : FilePath) : List String :=
  if path.absolute then [] else t.working

/-- The names of a path from the top. -/
def fullNames (t : FileTree) (path : FilePath) : List String := t.startOf path ++ path.names

/-- What a path leads to. -/
def find (t : FileTree) (path : FilePath) : FileLookup := t.follow [] (t.fullNames path)

/-- Whether there is a file or a directory at the path. -/
def present (t : FileTree) (path : FilePath) : Bool :=
  match t.find path with
  | .file _ => true
  | .directory => true
  | _ => false

end FileTree

end ScriptEngine.Config
