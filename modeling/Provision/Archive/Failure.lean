/-!
# Archives that cannot be read

What can be wrong with a compressed file or with the archive in it.
-/

namespace Provision

/-- Why an archive could not be read further. -/
inductive ArchiveError
  /-- The file ends within its compressed data. -/
  | cutShort
  | notGzip
  | corruptData
  | wrongChecksum
  /-- The archive ends within a block. -/
  | partialBlock
  /-- The archive ends within the content of an entry. -/
  | partialEntry
  | wrongHeaderChecksum
  | notANumber
  /-- A long name is given to an entry that does not follow. -/
  | nameWithoutEntry
deriving DecidableEq, Repr

/-- The wording of an error. -/
def ArchiveError.message : ArchiveError → String
  | cutShort => "unexpected end of file"
  | notGzip => "invalid gzip header"
  | corruptData => "corrupt deflate stream"
  | wrongChecksum => "corrupt gzip stream does not have a matching checksum"
  | partialBlock => "failed to read entire block"
  | partialEntry => "unexpected EOF during skip"
  | wrongHeaderChecksum => "archive header checksum mismatch"
  | notANumber => "numeric field was not a number"
  | nameWithoutEntry => "members found describing a future member but no future member found"

end Provision
