import Provision.Files.Path

/-!
# File systems

A file system is what stands at every place below its root: directories, files and links.
This module looks at places only; how a path leads to a place is told in
`Provision.Files.Lookup`.
-/

namespace Provision

/-- A place of the file system: the names that lead to it from the root. -/
abbrev Location := List FileName

/-- What stands at a place. -/
inductive FileEntry
  | directory
  | file (content : Bytes)
  /-- A symbolic link to a path. -/
  | link (path : Path)
deriving DecidableEq, Repr

namespace FileEntry

/-- The size that is told of an entry.  A directory takes one block. -/
def size : FileEntry → Nat
  | directory => 4096
  | file content => content.length
  | link path => path.bytes.length

end FileEntry

/-- A file system, with the directory that relative paths start from. -/
structure FileSystem where
  /-- What stands at each place below the root, one entry a place. -/
  entries : List (Location × FileEntry)
  working : Location
deriving DecidableEq, Repr

namespace FileSystem

/-- A file system in which nothing stands below the root. -/
def empty : FileSystem := ⟨[], []⟩

/-- What stands at a place.  The root is a directory. -/
def get? (fs : FileSystem) (place : Location) : Option FileEntry :=
  if place = [] then some .directory else fs.entries.lookup place

/-- Puts an entry at a place, instead of the one that stands there. -/
def put (fs : FileSystem) (place : Location) (entry : FileEntry) : FileSystem :=
  { fs with entries := (place, entry) :: fs.entries.filter fun e => e.1 ≠ place }

/-- Takes away what stands at a place and all that stands below it. -/
def prune (fs : FileSystem) (place : Location) : FileSystem :=
  { fs with entries := fs.entries.filter fun e => ¬ place.isPrefixOf e.1 }

/-- Moves what stands at a place, and all that stands below it, to another place. -/
def relocate (fs : FileSystem) (source destination : Location) : FileSystem :=
  { fs with
    entries := fs.entries.map fun e =>
      match source.isPrefixOf? e.1 with
      | some rest => (destination ++ rest, e.2)
      | none => e }

/-- What stands below a place, by the names that lead there from the place. -/
def below (fs : FileSystem) (place : Location) : List (Location × FileEntry) :=
  fs.entries.filterMap fun e =>
    match place.isPrefixOf? e.1 with
    | some (name :: rest) => some (name :: rest, e.2)
    | _ => none

/-- What stands below a place, by the paths that lead there, in the order of the paths. -/
def listing (fs : FileSystem) (place : Location) : List (Path × FileEntry) :=
  ((fs.below place).map fun e => (Path.ofNames false e.1, e.2)).mergeSort fun a b =>
    (compare a.1.bytes b.1.bytes).isLE

end FileSystem

end Provision
