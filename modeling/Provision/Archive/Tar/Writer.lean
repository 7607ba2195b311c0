import Provision.Archive.Tar.Reader

/-!
# Writing archives

The archives that are written here are read back by `Provision.Archive.Tar.Reader`.  Headers
tell neither owners nor times.
-/

namespace Provision.Tar

/-- The rights that an entry is written with. -/
def rights : Nat := 0o644

/-- A header without its sum. -/
def blankHeader (path : Bytes) (size : Nat) (mark : UInt8) (linkTarget : Bytes) : Bytes :=
  filled 100 path ++ octalField 8 rights ++ List.replicate 16 0 ++ octalField 12 size ++
    octalField 12 0 ++ List.replicate 8 0x20 ++ mark :: filled 100 linkTarget ++
    Flavour.gnu.mark ++ List.replicate 247 0

/-- A header. -/
def header (path : Bytes) (size : Nat) (mark : UInt8) (linkTarget : Bytes) : Bytes :=
  let blank := blankHeader path size mark linkTarget
  blank.take 148 ++ octalField 8 (checksum blank) ++ blank.drop 156

/-- A content, filled up to whole blocks. -/
def contentBlocks (content : Bytes) : Bytes :=
  filled (wholeBlocks content.length) content

/-- The path under which a long name is written. -/
def longNamePath : Bytes := Utf8.ofString "././@LongLink"

/-- A name that is too long for a header. -/
def longNameEntry (mark : Char) (name : Bytes) : Bytes :=
  if name.length ≤ 100 then []
  else
    let content := name ++ [0]
    header longNamePath content.length (UInt8.ofNat mark.toNat) [] ++ contentBlocks content

/-- The mark of a kind, and the path that it holds. -/
def markOf : EntryKind → UInt8 × Bytes
  | .file => (0, [])
  | .slashedFile => (0, [])
  | .directory => (0x35, [])
  | .symbolicLink target => (0x32, target.bytes)
  | .hardLink target => (0x31, target.bytes)
  | .unknown mark => (mark, [])

/-- Writes an entry. -/
def writeEntry (e : ArchiveEntry) : Bytes :=
  let (mark, target) := markOf e.kind
  longNameEntry 'K' target ++ longNameEntry 'L' e.path.bytes ++
    header e.path.bytes e.content.length mark target ++ contentBlocks e.content

/-- Writes an archive. -/
def write (entries : List ArchiveEntry) : Bytes :=
  entries.flatMap writeEntry ++ List.replicate (2 * blockSize) 0

/-- Writes a compressed archive. -/
def writeCompressed (entries : List ArchiveEntry) : Bytes :=
  Gzip.encode (write entries)

end Provision.Tar
