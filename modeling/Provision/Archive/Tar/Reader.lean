import Provision.Archive.Gzip
import Provision.Archive.Tar.Header

/-!
# Reading archives

An archive is a sequence of headers, each followed by the content of its entry, filled up to
whole blocks.  A block of zeros ends it.  Paths that are too long for a header are the
content of entries of their own, which come before the entry that they belong to.
-/

namespace Provision.Tar

/-- What has been told about the next entry. -/
structure Told where
  path : Option Bytes
  linkTarget : Option Bytes
deriving DecidableEq, Repr

namespace Told

/-- Nothing has been told. -/
def nothing : Told := ⟨none, none⟩

/-- The `key=value` records of an extended header, each led by its length.  Records that
are not well formed end the list. -/
def records : (most : Nat) → Bytes → List (Bytes × Bytes)
  | 0, _ => []
  | most + 1, bytes =>
    let digits := bytes.takeWhile (· ≠ 0x20)
    let length := digits.foldl (fun n b => 10 * n + (b.toNat - 0x30)) 0
    let line := ((bytes.take length).drop (digits.length + 1)).dropLast
    if digits = [] ∨ bytes.length < length ∨ length ≤ digits.length then []
    else
      let key := line.takeWhile (· ≠ 0x3D)
      (key, line.drop (key.length + 1)) :: records most (bytes.drop length)

/-- Takes an extended header in. -/
def addRecords (t : Told) (content : Bytes) : Told :=
  let found := records content.length content
  { path := (found.lookup (Utf8.ofString "path")).or t.path
    linkTarget := (found.lookup (Utf8.ofString "linkpath")).or t.linkTarget }

end Told

/-- A long name as it is written: it may be ended by a zero. -/
def longName (content : Bytes) : Bytes :=
  if content.getLast? = some 0 then content.dropLast else content

/-- The kind of an entry. -/
def kindOf (h : Header) (path linkTarget : Bytes) : EntryKind :=
  if h.mark = 0 ∨ h.mark = 0x30 then
    if h.flavour ≠ .posix ∧ path.getLast? = some Path.slash then .slashedFile else .file
  else if h.mark = 0x31 then .hardLink ⟨linkTarget⟩
  else if h.mark = 0x32 then .symbolicLink ⟨linkTarget⟩
  else if h.mark = 0x35 then .directory
  else .unknown h.mark

/-- The entry that a header and its content make. -/
def entryOf (h : Header) (told : Told) (content : Bytes) : ArchiveEntry :=
  let path := told.path.getD h.path
  { path := ⟨path⟩
    kind := kindOf h path (told.linkTarget.getD h.linkTarget)
    content }

/-- The size of a content with what fills up its last block. -/
def wholeBlocks (size : Nat) : Nat :=
  (size + (blockSize - 1)) / blockSize * blockSize

/-- The end of an archive at which nothing may be left untold. -/
def endAt (told : Told) : ArchiveReading :=
  if told = .nothing then .ended else .broken .nameWithoutEntry

/-- Reads the entries of an archive, of which there are at most `most`; `failure` is why
there is nothing behind the given bytes. -/
def readEntries (failure : Option ArchiveError) :
    (most : Nat) → (told : Told) → Bytes → ArchiveReading
  | 0, _, _ => .ended
  | most + 1, told, bytes =>
    if bytes = [] then failure.elim (endAt told) .broken
    else if bytes.length < blockSize then .broken (failure.getD .partialBlock)
    else
      let block := bytes.take blockSize
      let behind := bytes.drop blockSize
      if block.all (· == 0) then endAt told
      else
        match Header.ofBlock block with
        | .error cause => .broken cause
        | .ok h =>
          if behind.length < h.size then .broken (failure.getD .partialEntry)
          else
            let content := behind.take h.size
            let next (told : Told) : ArchiveReading :=
              if behind.length < wholeBlocks h.size then .broken (failure.getD .partialEntry)
              else readEntries failure most told (behind.drop (wholeBlocks h.size))
            if h.isAbout 'L' then next { told with path := some (longName content) }
            else if h.isAbout 'K' then next { told with linkTarget := some (longName content) }
            else if h.isAbout 'x' then next (told.addRecords content)
            else if h.isAbout 'g' then next told
            else .cons (entryOf h told content) (next .nothing)

/-- Reads an archive. -/
def read (stream : ByteStream) : ArchiveReading :=
  readEntries stream.failure (stream.content.length / blockSize + 1) .nothing stream.content

/-- Reads a compressed archive. -/
def readCompressed (bytes : Bytes) : ArchiveReading :=
  read (Gzip.decode bytes)

end Provision.Tar
