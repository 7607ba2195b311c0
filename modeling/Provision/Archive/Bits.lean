import Provision.Bytes

/-!
# Sequences of bits

Compressed data is a sequence of bits, packed into bytes from the lowest bit up.  A
`BitSource` hands them out one after the other; `pack` puts them into bytes.
-/

namespace Provision

/-- Bits that are still to be read. -/
structure BitSource where
  /-- What is left of the byte that is being read. -/
  begun : List Bool
  rest : Bytes
deriving DecidableEq, Repr

namespace BitSource

/-- The bits of bytes. -/
def ofBytes (bytes : Bytes) : BitSource := ⟨[], bytes⟩

/-- Takes the next bit. -/
def next? : BitSource → Option (Bool × BitSource)
  | ⟨bit :: begun, rest⟩ => some (bit, ⟨begun, rest⟩)
  | ⟨[], b :: rest⟩ =>
    some (b.toNat.testBit 0, ⟨(List.range 7).map fun i => b.toNat.testBit (i + 1), rest⟩)
  | ⟨[], []⟩ => none

/-- Leaves what is left of the byte that is being read. -/
def align (bits : BitSource) : BitSource := ⟨[], bits.rest⟩

end BitSource

namespace Bits

/-- The lowest `count` bits of a number, the lowest first. -/
def ofNat (count n : Nat) : List Bool :=
  (List.range count).map n.testBit

/-- The lowest `count` bits of a number, the highest first. -/
def ofNatHighFirst (count n : Nat) : List Bool :=
  (ofNat count n).reverse

/-- The number whose lowest bits are given, the lowest first. -/
def toNat : List Bool → Nat
  | [] => 0
  | bit :: rest => bit.toNat + 2 * toNat rest

/-- Packs bits into `count` bytes. -/
def packInto : (count : Nat) → List Bool → Bytes
  | 0, _ => []
  | count + 1, bits => UInt8.ofNat (toNat (bits.take 8)) :: packInto count (bits.drop 8)

/-- Packs bits into bytes, the last of which is filled up with zeros. -/
def pack (bits : List Bool) : Bytes :=
  packInto ((bits.length + 7) / 8) bits

end Bits

end Provision
