import Provision.Bytes

/-!
# Paths

A path is a sequence of bytes in which slashes separate names.  Paths are kept as they were
written: joining and taking the parent look at the bytes alone, and only a file system
resolves what the names mean.  Most paths are texts, but a path need not be one.
-/

namespace Provision

/-- A name within a directory. -/
abbrev FileName := Bytes

/-- A path of the file system. -/
structure Path where
  bytes : Bytes
deriving DecidableEq, Repr

namespace Path

/-- The byte that separates names. -/
def slash : UInt8 := 0x2F

/-- The name that a directory has within itself. -/
def here : FileName := [0x2E]

/-- The name that the directory above has within a directory. -/
def above : FileName := [0x2E, 0x2E]

/-- The path of a text. -/
def ofString (s : String) : Path := ⟨Utf8.ofString s⟩

/-- The path as a text, if it is one. -/
def text? (p : Path) : Option String :=
  (Utf8.decode? p.bytes).map String.ofList

/-- The path as it is shown. -/
def text (p : Path) : String :=
  Utf8.toStringLossy p.bytes

instance : ToString Path := ⟨text⟩

/-- Whether the path starts at the root of the file system. -/
def isAbsolute (p : Path) : Bool :=
  p.bytes.head? = some slash

/-- What stands between the slashes. -/
def pieces (p : Path) : List FileName :=
  p.bytes.splitOn slash

/-- The names along the path.  Slashes in a row count as one, and names that stand for the
directory they are in do not count, except at the start of a relative path. -/
def names (p : Path) : List FileName :=
  let plain := p.pieces.filter fun name => name ≠ [] ∧ name ≠ here
  if p.pieces.head? = some here then here :: plain else plain

/-- The path `q` as seen from `p`.  An absolute path stands for itself. -/
def join (p q : Path) : Path :=
  if q.isAbsolute then q
  else if p.bytes = [] ∨ p.bytes.getLast? = some slash then ⟨p.bytes ++ q.bytes⟩
  else ⟨p.bytes ++ slash :: q.bytes⟩

/-- The path of a text as seen from `p`. -/
def child (p : Path) (name : String) : Path :=
  p.join (ofString name)

/-- The path that the given names lead along. -/
def ofNames (absolute : Bool) (names : List FileName) : Path :=
  ⟨(if absolute then [slash] else []) ++ [slash].intercalate names⟩

/-- The directory that a path lies in, `none` for a root and for the empty path. -/
def parent? (p : Path) : Option Path :=
  if p.names = [] then none
  else some (ofNames p.isAbsolute p.names.dropLast)

/-- The last name along a path. -/
def fileName? (p : Path) : Option FileName :=
  p.names.getLast?

/-- The directories that names lead through, the nearest first, where the names are given
from the last one up. -/
def directoriesAbove (absolute : Bool) : List FileName → List Path
  | [] => []
  | _ :: rest => ofNames absolute rest.reverse :: directoriesAbove absolute rest

/-- A path and the directories that it lies in, the nearest first. -/
def ancestors (p : Path) : List Path :=
  p :: directoriesAbove p.isAbsolute p.names.reverse

end Path

end Provision
