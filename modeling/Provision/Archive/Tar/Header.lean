import Provision.Archive.Entry

/-!
# Headers of archive entries

Every entry begins with a block of fields at fixed places.  Numbers are written in octal
digits, long ones as binary numbers; texts end at their field's end or at a zero.  A sum
over all bytes guards the block.
-/

namespace Provision.Tar

/-- The number of bytes of a block. -/
def blockSize : Nat := 512

/-- The bytes of a field. -/
def field (start length : Nat) (block : Bytes) : Bytes :=
  (block.drop start).take length

/-- The bytes of a text field. -/
def textField (start length : Nat) (block : Bytes) : Bytes :=
  (field start length block).takeWhile (· ≠ 0)

/-- Whether a byte is a blank. -/
def isBlank (b : UInt8) : Bool :=
  b = 0x20 || (0x09 ≤ b && b ≤ 0x0D)

/-- The value of octal digits. -/
def octalDigits? : (acc : Nat) → Bytes → Option Nat
  | acc, [] => some acc
  | acc, b :: rest =>
    if 0x30 ≤ b ∧ b ≤ 0x37 then octalDigits? (8 * acc + (b.toNat - 0x30)) rest else none

/-- The value of an octal field. -/
def octal? (bytes : Bytes) : Option Nat :=
  let text := bytes.takeWhile (· ≠ 0)
  let trimmed := ((text.dropWhile isBlank).reverse.dropWhile isBlank).reverse
  if trimmed = [] then none else octalDigits? 0 trimmed

/-- The value of high-first bytes. -/
def bigEndian (bytes : Bytes) : Nat :=
  bytes.foldl (fun n b => 256 * n + b.toNat) 0

/-- The value of a number field.  A field whose highest bit is set holds a binary number. -/
def number? (bytes : Bytes) : Option Nat :=
  match bytes with
  | b :: rest => if b.toNat ≥ 128 then some (bigEndian (rest.drop 3)) else octal? bytes
  | [] => none

/-- The octal digits of a number, `count` of them. -/
def octalBytes : (count n : Nat) → Bytes
  | 0, _ => []
  | count + 1, n => octalBytes count (n / 8) ++ [UInt8.ofNat (0x30 + n % 8)]

/-- A number field of a given length, ended by a zero. -/
def octalField (length n : Nat) : Bytes :=
  octalBytes (length - 1) n ++ [0]

/-- A text filled up with zeros to a given length. -/
def filled (length : Nat) (text : Bytes) : Bytes :=
  text.take length ++ List.replicate (length - text.length) 0

/-- The sum that guards a block: that of all its bytes, the field of the sum itself being
blank. -/
def checksum (block : Bytes) : Nat :=
  (block.take 148 ++ block.drop 156).foldl (fun total b => total + b.toNat) (8 * 0x20)

/-- Which tradition a header follows. -/
inductive Flavour
  | old
  | gnu
  | posix
deriving DecidableEq, Repr

/-- The mark of a tradition. -/
def Flavour.mark : Flavour → Bytes
  | old => List.replicate 8 0
  | gnu => Utf8.ofString "ustar  " ++ [0]
  | posix => Utf8.ofString "ustar" ++ 0 :: Utf8.ofString "00"

/-- The tradition of a header. -/
def Flavour.ofBlock (block : Bytes) : Flavour :=
  let mark := field 257 8 block
  if mark = Flavour.gnu.mark then .gnu
  else if mark = Flavour.posix.mark then .posix
  else .old

/-- What a header says. -/
structure Header where
  path : Bytes
  size : Nat
  mark : UInt8
  linkTarget : Bytes
  flavour : Flavour
deriving DecidableEq, Repr

namespace Header

/-- The path of a header.  The first part of a long path has a field of its own in one of
the traditions. -/
def pathOf (block : Bytes) : Bytes :=
  let name := textField 0 100 block
  if Flavour.ofBlock block = .posix then
    let directory := textField 345 155 block
    if directory = [] then name else directory ++ Path.slash :: name
  else name

/-- Reads a header. -/
def ofBlock (block : Bytes) : Except ArchiveError Header := do
  let some sum := octal? (field 148 8 block) | throw .notANumber
  if sum ≠ checksum block then throw .wrongHeaderChecksum
  let some size := number? (field 124 12 block) | throw .notANumber
  return {
    path := pathOf block
    size
    mark := block.getD 156 0
    linkTarget := textField 157 100 block
    flavour := Flavour.ofBlock block }

/-- Whether the header is followed by the content of an entry that only tells about the entry
after it. -/
def isAbout (h : Header) (mark : Char) : Bool :=
  h.mark.toNat = mark.toNat && h.flavour != .old

end Header

end Provision.Tar
