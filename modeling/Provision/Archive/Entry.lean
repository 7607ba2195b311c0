import Provision.Archive.Failure
import Provision.Files.Path

/-!
# Archive entries

An archive is a list of entries, each with a path of its own choice.  Paths are kept as the
archive has them, whether they are good or bad.
-/

namespace Provision

/-- What an entry of an archive stands for. -/
inductive EntryKind
  | file
  /-- A file by its mark and a directory by its path, which ends in a slash. -/
  | slashedFile
  | directory
  | symbolicLink (target : Path)
  | hardLink (target : Path)
  /-- Told by a mark that has no meaning here. -/
  | unknown (mark : UInt8)
deriving DecidableEq, Repr

namespace EntryKind

/-- Whether entries of the kind are marked as files. -/
def isFile : EntryKind → Bool
  | file => true
  | slashedFile => true
  | _ => false

end EntryKind

/-- An entry of an archive. -/
structure ArchiveEntry where
  path : Path
  kind : EntryKind
  content : Bytes
deriving DecidableEq, Repr

/-- What could be read of an archive. -/
structure ArchiveReading where
  entries : List ArchiveEntry
  /-- Why there are no more entries, where the archive does not simply end. -/
  failure : Option ArchiveError
deriving DecidableEq, Repr

namespace ArchiveReading

/-- An archive that ends. -/
def ended : ArchiveReading := ⟨[], none⟩

/-- An archive that breaks off. -/
def broken (cause : ArchiveError) : ArchiveReading := ⟨[], some cause⟩

/-- Puts an entry in front. -/
def cons (entry : ArchiveEntry) (r : ArchiveReading) : ArchiveReading :=
  { r with entries := entry :: r.entries }

end ArchiveReading

end Provision
