import Provision.Archive.Deflate.Repetitions
import Provision.Archive.Deflate.Weights

/-!
# Compressing data

Data is written as one block with a code of its own.  The code is written first, by the
lengths of its words, which are themselves written in a code; runs of equal lengths are
written short.
-/

namespace Provision.Deflate

/-- The class of a number, and the bits that tell which member of the class it is. -/
def classOf (classes : List (Nat × Nat)) (n : Nat) : Nat × List Bool :=
  let index := (classes.filter fun c => c.1 ≤ n).length - 1
  let c := classes.getD index (0, 0)
  (index, Bits.ofNat c.2 (n - c.1))

namespace Token

/-- The symbol that a piece of data is written with. -/
def symbol : Token → Nat
  | literal b => b.toNat
  | copy length _ => endOfBlock + 1 + (classOf lengthClasses length).1

/-- The class of the distance that a piece of data is written with, if there is one. -/
def distanceClass? : Token → Option Nat
  | literal _ => none
  | copy _ distance => some (classOf distanceClasses distance).1

/-- The bits of a piece of data. -/
def bits (symbols distances : CodeLengths) (t : Token) : List Bool :=
  match t with
  | literal _ => symbols.word t.symbol
  | copy length distance =>
    symbols.word t.symbol ++ (classOf lengthClasses length).2 ++
      distances.word (classOf distanceClasses distance).1 ++ (classOf distanceClasses distance).2

end Token

/-- How often each of the first `count` numbers is in a list. -/
def weightsOf (count : Nat) (symbols : List Nat) : List Nat :=
  (List.range count).map fun symbol => symbols.count symbol

/-- A length of a word, or a run of lengths: the symbol it is written with, and the bits that
tell how long the run is. -/
structure LengthItem where
  symbol : Nat
  extra : List Bool
deriving DecidableEq, Repr

namespace LengthItem

/-- A single length. -/
def one (length : Nat) : LengthItem := ⟨length, []⟩

/-- A run of zeros. -/
def zeros : (most count : Nat) → List LengthItem
  | 0, _ => []
  | most + 1, count =>
    if count < 3 then List.replicate count (one 0)
    else if count ≤ 10 then [⟨17, Bits.ofNat 3 (count - 3)⟩]
    else if count < 138 then [⟨18, Bits.ofNat 7 (count - 11)⟩]
    else ⟨18, Bits.ofNat 7 127⟩ :: zeros most (count - 138)

/-- A length that comes again a number of times. -/
def again (length : Nat) : (most count : Nat) → List LengthItem
  | 0, _ => []
  | most + 1, count =>
    if count < 3 then List.replicate count (one length)
    else if count < 6 then [⟨16, Bits.ofNat 2 (count - 3)⟩]
    else ⟨16, Bits.ofNat 2 3⟩ :: again length most (count - 6)

/-- A run of equal lengths. -/
def run (length count : Nat) : List LengthItem :=
  if length = 0 then zeros count count
  else one length :: again length count (count - 1)

/-- The items of lengths. -/
def ofLengths (lengths : CodeLengths) : List LengthItem :=
  (lengths.splitBy (· == ·)).flatMap fun same => run (same.headD 0) same.length

end LengthItem

/-- A list without the zeros at its end, but with at least `least` items. -/
def dropZeros (least : Nat) (lengths : List Nat) : List Nat :=
  lengths.take least ++ ((lengths.drop least).reverse.dropWhile (· = 0)).reverse

/-- The lengths of two codes, written in a code of their own. -/
def codeBits (symbols distances : CodeLengths) : List Bool :=
  let symbols := dropZeros 257 (symbols.take 286)
  let distances := dropZeros 1 (distances.take 30)
  let items := LengthItem.ofLengths (symbols ++ distances)
  let code := CodeLengths.ofWeights 7 (weightsOf 19 (items.map (·.symbol)))
  let ordered := dropZeros 4 (lengthOrder.map fun symbol => code.getD symbol 0)
  Bits.ofNat 5 (symbols.length - 257) ++ Bits.ofNat 5 (distances.length - 1) ++
    Bits.ofNat 4 (ordered.length - 4) ++ ordered.flatMap (Bits.ofNat 3) ++
    items.flatMap fun item => code.word item.symbol ++ item.extra

/-- The bits of a block, the last one of the data. -/
def blockBits (pieces : List Token) : List Bool :=
  let symbols :=
    CodeLengths.ofWeights 15 (weightsOf 286 (endOfBlock :: pieces.map Token.symbol))
  let distances := CodeLengths.ofWeights 15 (weightsOf 30 (pieces.filterMap Token.distanceClass?))
  [true] ++ Bits.ofNat 2 2 ++ codeBits symbols distances ++
    pieces.flatMap (Token.bits symbols distances) ++ symbols.word endOfBlock

/-- Compresses data. -/
def compress (bytes : Bytes) : Bytes :=
  Bits.pack (blockBits (tokens .usual bytes.toArray))

end Provision.Deflate
