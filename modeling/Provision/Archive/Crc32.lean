import Provision.Bytes

/-!
# CRC-32

The check value that compressed files carry: the remainder of the bytes, read as a
polynomial with the lowest bit of each byte first.
-/

namespace Provision.Crc32

/-- Works one bit off a remainder. -/
def shift (r : UInt32) : UInt32 :=
  if r &&& 1 = 1 then (r >>> 1) ^^^ 0xEDB88320 else r >>> 1

/-- Works a byte into a remainder. -/
def absorb (r : UInt32) (b : UInt8) : UInt32 :=
  (List.range 8).foldl (fun r _ => shift r) (r ^^^ b.toUInt32)

/-- The check value of bytes. -/
def checksum (bytes : Bytes) : UInt32 :=
  bytes.foldl absorb 0xFFFFFFFF ^^^ 0xFFFFFFFF

end Provision.Crc32
