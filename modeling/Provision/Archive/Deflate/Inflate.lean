import Provision.Archive.Deflate.Code
import Provision.Archive.Failure

/-!
# Unpacking compressed data

Compressed data is a sequence of blocks.  A block holds bytes as they are, or symbols: a
byte, a repetition of bytes that came before, or the end of the block.  What was unpacked
before a mistake in the data is kept.
-/

namespace Provision.Deflate

/-- Unpacking under way. -/
structure Unpacking where
  bits : BitSource
  output : Array UInt8
deriving Repr

/-- A step of unpacking. -/
abbrev Unpack := ExceptT ArchiveError (StateM Unpacking)

namespace Unpack

/-- Reads a bit. -/
def bit : Unpack Bool := do
  match (← get).bits.next? with
  | some (bit, bits) =>
    modify fun u => { u with bits }
    return bit
  | none => throw .cutShort

/-- Reads a number of some bits, the lowest first. -/
def number : (bits : Nat) → Unpack Nat
  | 0 => return 0
  | bits + 1 => do
    let low ← bit
    return low.toNat + 2 * (← number bits)

/-- Reads a symbol, the rows being those of words that are longer than what was read; `word`
is what was read and `first` the number of the first word of that length or more. -/
def symbolFrom (word first : Nat) : (rows : List (List Nat)) → Unpack Nat
  | [] => throw .corruptData
  | row :: rows => do
    let word := 2 * word + (← bit).toNat
    match row[word - first]? with
    | some symbol => return symbol
    | none => symbolFrom word (2 * (first + row.length)) rows

/-- Reads a symbol. -/
def symbol (rows : List (List Nat)) : Unpack Nat :=
  symbolFrom 0 0 rows

/-- Puts a byte out. -/
def emit (b : UInt8) : Unpack Unit :=
  modify fun u => { u with output := u.output.push b }

/-- Puts out again what was put out `distance` bytes before, `length` bytes. -/
def repeatBytes (distance : Nat) : (length : Nat) → Unpack Unit
  | 0 => return
  | length + 1 => do
    let output := (← get).output
    emit (output.getD (output.size - distance) 0)
    repeatBytes distance length

/-- Reads which member of a class is meant. -/
def member (classes : List (Nat × Nat)) (index : Nat) : Unpack Nat := do
  match classes[index]? with
  | some (base, bits) => return base + (← number bits)
  | none => throw .corruptData

/-- Unpacks the symbols of a block up to its end, of which there are at most `most`. -/
def symbols (symbolRows distanceRows : List (List Nat)) : (most : Nat) → Unpack Unit
  | 0 => throw .corruptData
  | most + 1 => do
    let s ← symbol symbolRows
    if s < endOfBlock then
      emit (UInt8.ofNat s)
      symbols symbolRows distanceRows most
    else if s = endOfBlock then return
    else
      let length ← member lengthClasses (s - endOfBlock - 1)
      let distance ← member distanceClasses (← symbol distanceRows)
      if (← get).output.size < distance then throw .corruptData
      repeatBytes distance length
      symbols symbolRows distanceRows most

/-- Reads a whole byte. -/
def byte : Unpack UInt8 := do
  match (← get).bits.rest with
  | b :: rest =>
    modify fun u => { u with bits := ⟨[], rest⟩ }
    return b
  | [] => throw .cutShort

/-- Reads a number of two bytes. -/
def twoBytes : Unpack Nat := do
  let low ← byte
  return low.toNat + 256 * (← byte).toNat

/-- Puts out bytes as they are. -/
def copyBytes : (count : Nat) → Unpack Unit
  | 0 => return
  | count + 1 => do
    emit (← byte)
    copyBytes count

/-- Unpacks a block that holds bytes as they are. -/
def storedBlock : Unpack Unit := do
  modify fun u => { u with bits := u.bits.align }
  let length ← twoBytes
  let check ← twoBytes
  if length + check = 0xFFFF then copyBytes length else throw .corruptData

/-- Reads the lengths of the words for lengths, in their order. -/
def orderedLengths : List Nat → Unpack (List (Nat × Nat))
  | [] => return []
  | symbol :: rest => do
    let length ← number 3
    return (symbol, length) :: (← orderedLengths rest)

/-- Reads lengths of words until there are `count`; `before` holds those read so far, the
last one first. -/
def wordLengths (rows : List (List Nat)) (count : Nat) :
    (most : Nat) → (before : List Nat) → Unpack CodeLengths
  | 0, _ => throw .corruptData
  | most + 1, before => do
    if before.length = count then return before.reverse
    if count < before.length then throw .corruptData
    match ← symbol rows with
    | 16 =>
      match before.head? with
      | some last => wordLengths rows count most (List.replicate (3 + (← number 2)) last ++ before)
      | none => throw .corruptData
    | 17 => wordLengths rows count most (List.replicate (3 + (← number 3)) 0 ++ before)
    | 18 => wordLengths rows count most (List.replicate (11 + (← number 7)) 0 ++ before)
    | length => wordLengths rows count most (length :: before)

/-- The rows of a code, if it is one. -/
def codeRows (lengths : CodeLengths) : Unpack (List (List Nat)) :=
  if lengths.isCode then return lengths.rows else throw .corruptData

/-- Unpacks a block of symbols that begins with its own codes. -/
def codedBlock (most : Nat) : Unpack Unit := do
  let symbolCount := 257 + (← number 5)
  let distanceCount := 1 + (← number 5)
  let ordered ← orderedLengths (lengthOrder.take (4 + (← number 4)))
  let rows ← codeRows ((List.range 19).map fun symbol => (ordered.lookup symbol).getD 0)
  let lengths ← wordLengths rows (symbolCount + distanceCount) (symbolCount + distanceCount + 1) []
  let symbolRows ← codeRows (lengths.take symbolCount)
  let distanceRows ← codeRows (lengths.drop symbolCount)
  symbols symbolRows distanceRows most

/-- Unpacks a block.  Tells whether it was the last one. -/
def block (most : Nat) : Unpack Bool := do
  let last ← bit
  match ← number 2 with
  | 0 => storedBlock
  | 1 => symbols agreedSymbols.rows agreedDistances.rows most
  | 2 => codedBlock most
  | _ => throw .corruptData
  return last

/-- Unpacks blocks, of which there are at most `blocks`, each with at most `most` symbols. -/
def allBlocks (most : Nat) : (blocks : Nat) → Unpack Unit
  | 0 => throw .corruptData
  | blocks + 1 => do
    if ← block most then return
    allBlocks most blocks

end Unpack

/-- What was unpacked. -/
structure Unpacked where
  output : Bytes
  /-- What follows the compressed data, or why unpacking could not go on. -/
  rest : Except ArchiveError Bytes
deriving Repr

/-- Unpacks compressed data.  Every block and every symbol takes at least one bit. -/
def inflate (bytes : Bytes) : Unpacked :=
  let most := 8 * bytes.length + 1
  match Unpack.allBlocks most most ⟨.ofBytes bytes, #[]⟩ with
  | (.ok (), u) => ⟨u.output.toList, .ok u.bits.rest⟩
  | (.error cause, u) => ⟨u.output.toList, .error cause⟩

end Provision.Deflate
