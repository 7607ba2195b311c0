import Provision.Archive.Crc32
import Provision.Archive.Deflate.Compress
import Provision.Archive.Deflate.Inflate

/-!
# Compressed files

A compressed file is a header, compressed data, and a check value with the length of what
was compressed.  What could be unpacked is there even where the file turns out to be broken
later on.
-/

namespace Provision

/-- A sequence of bytes that may break off. -/
structure ByteStream where
  content : Bytes
  /-- Why there is no more, where the content does not simply end. -/
  failure : Option ArchiveError
deriving DecidableEq, Repr

namespace Gzip

/-- The number of low-first bytes. -/
def littleEndian : Bytes → Nat
  | [] => 0
  | b :: rest => b.toNat + 256 * littleEndian rest

/-- The low-first bytes of a number, `count` of them. -/
def littleEndianBytes : (count n : Nat) → Bytes
  | 0, _ => []
  | count + 1, n => UInt8.ofNat n :: littleEndianBytes count (n / 256)

/-- What follows a given number of bytes. -/
def skip (count : Nat) (bytes : Bytes) : Except ArchiveError Bytes :=
  if bytes.length < count then .error .cutShort else .ok (bytes.drop count)

/-- What follows a text that ends with a zero. -/
def skipText (bytes : Bytes) : Except ArchiveError Bytes :=
  skip 1 (bytes.dropWhile (· ≠ 0))

/-- The parts that a header may have beside the ones it must have. -/
structure Extras where
  check : Bool
  extra : Bool
  name : Bool
  comment : Bool
deriving DecidableEq, Repr

/-- The extra parts that a byte of a header tells of. -/
def Extras.ofFlags? (flags : UInt8) : Option Extras :=
  let n := flags.toNat
  if n < 32 then some ⟨n.testBit 1, n.testBit 2, n.testBit 3, n.testBit 4⟩ else none

/-- The first bytes of a compressed file. -/
def mark : Bytes := [0x1F, 0x8B, 0x08]

/-- What follows the header. -/
def afterHeader (bytes : Bytes) : Except ArchiveError Bytes := do
  let mut rest ← skip 10 bytes
  if bytes.take 3 ≠ mark then throw .notGzip
  match Extras.ofFlags? (bytes.getD 3 0) with
  | none => throw .notGzip
  | some extras =>
    if extras.extra then
      let length := littleEndian (rest.take 2)
      rest ← skip (2 + length) rest
    if extras.name then rest ← skipText rest
    if extras.comment then rest ← skipText rest
    if extras.check then
      let header := bytes.take (bytes.length - rest.length)
      let check := littleEndian (rest.take 2)
      rest ← skip 2 rest
      if check ≠ (Crc32.checksum header).toNat % 65536 then throw .wrongChecksum
    return rest

/-- What is wrong with the end of a compressed file. -/
def checkEnd (content rest : Bytes) : Option ArchiveError :=
  if rest.length < 8 then some .cutShort
  else if littleEndian (rest.take 4) = (Crc32.checksum content).toNat ∧
      littleEndian ((rest.drop 4).take 4) = content.length % UInt32.size then none
  else some .wrongChecksum

/-- Unpacks a compressed file. -/
def decode (bytes : Bytes) : ByteStream :=
  match afterHeader bytes with
  | .error cause => ⟨[], some cause⟩
  | .ok data =>
    let unpacked := Deflate.inflate data
    match unpacked.rest with
    | .error cause => ⟨unpacked.output, some cause⟩
    | .ok rest => ⟨unpacked.output, checkEnd unpacked.output rest⟩

/-- Makes a compressed file.  Its header tells neither a time nor a system. -/
def encode (content : Bytes) : Bytes :=
  mark ++ List.replicate 6 0 ++ 0xFF :: Deflate.compress content ++
    littleEndianBytes 4 (Crc32.checksum content).toNat ++ littleEndianBytes 4 content.length

end Gzip

end Provision
