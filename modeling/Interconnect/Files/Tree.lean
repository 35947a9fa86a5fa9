import Interconnect.Files.Basic

/-!
# Trees of files

A `Tree` is a file system held in memory.  A path is followed name by name from the root or from the
working directory; every name but the last has to be that of a directory, and so does the last one
when a slash follows it.
-/

namespace Interconnect.Files

/-- A place in a tree: the names that lead to it from the root, last name first. -/
abbrev Location := List String

structure Tree where
  /-- Entries by place.  The root is a directory without being listed. -/
  entries : List (Location × Entry)

namespace Tree

/-- The working directory stands below the root under a name that no path can spell. -/
def workingDirectory : Location := [""]

/-- A tree that holds nothing but an empty working directory. -/
def empty : Tree :=
  ⟨[(workingDirectory, .directory)]⟩

def maxNameBytes : Nat := 255

def maxPathBytes : Nat := 4095

def entryAt? (tree : Tree) (location : Location) : Option Entry :=
  if location.isEmpty then some .directory else tree.entries.lookup location

/-- The directory in which a path begins. -/
def origin (path : String) : Location :=
  if path.startsWith "/" then [] else workingDirectory

def names (path : String) : List String :=
  path.splitOn "/"

/-- The place that a name leads to from a directory, whether or not anything is there. -/
def below (location : Location) (name : String) : Location :=
  if name = "" ∨ name = "." then location
  else if name = ".." then location.tail
  else name :: location

/-- Follows names from a place. -/
def follow (tree : Tree) (location : Location) : List String → Except Fault Entry
  | [] =>
    match tree.entryAt? location with
    | some entry => .ok entry
    | none => .error .notFound
  | name :: names =>
    match tree.entryAt? location with
    | none => .error .notFound
    | some (.file _) => .error .notDirectory
    | some .directory =>
      if maxNameBytes < name.utf8ByteSize then .error .nameTooLong
      else follow tree (below location name) names

def lookup (tree : Tree) (path : String) : Except Fault Entry :=
  if path.contains '\x00' then .error .invalidPath
  else if path.isEmpty then .error .notFound
  else if maxPathBytes < path.utf8ByteSize then .error .nameTooLong
  else tree.follow (origin path) (names path)

/-- What the paths of a tree lead to. -/
def files (tree : Tree) : Files :=
  ⟨tree.lookup⟩

/-! ## Changes -/

def set (tree : Tree) (location : Location) (entry : Entry) : Tree :=
  ⟨(location, entry) :: tree.entries⟩

/-- Makes the directories that names lead through, and returns the place they lead to. -/
def makeDirectories (tree : Tree) (location : Location) : List String → Tree × Location
  | [] => (tree, location)
  | name :: names =>
    let next := below location name
    let tree := if (tree.entryAt? next).isSome then tree else tree.set next .directory
    makeDirectories tree next names

def makeDirectory (tree : Tree) (path : String) : Tree :=
  (tree.makeDirectories (origin path) (names path)).1

/-- Writes a file, and makes the directories it needs. -/
def write (tree : Tree) (path : String) (content : ByteArray) : Tree :=
  let (tree, directory) := tree.makeDirectories (origin path) (names path).dropLast
  tree.set (below directory ((names path).getLastD "")) (.file content)

/-- Removes an entry with everything below it. -/
def remove (tree : Tree) (path : String) : Tree :=
  let location := (names path).foldl below (origin path)
  ⟨tree.entries.filter fun (place, _) => !location.isSuffixOf place⟩

end Tree

end Interconnect.Files
