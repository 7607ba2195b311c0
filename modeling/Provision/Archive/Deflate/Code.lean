import Provision.Archive.Bits

/-!
# Codes of different lengths

A code gives every symbol that is used a word of bits, such that no word begins another.
It is told by the lengths of the words alone: words are numbered in the order of their
lengths, and words of one length in the order of their symbols.  `rows` sorts the symbols for
reading, `word` is what is written for a symbol.
-/

namespace Provision.Deflate

/-- The length of each symbol's word, 0 for a symbol that is not used. -/
abbrev CodeLengths := List Nat

namespace CodeLengths

/-- The longest word of a code. -/
def longest : Nat := 15

/-- The symbols whose words have a given length, in order. -/
def row (lengths : CodeLengths) (length : Nat) : List Nat :=
  (List.range lengths.length).filter fun symbol => lengths.getD symbol 0 = length

/-- The symbols whose words have one bit, those whose words have two, and so on. -/
def rows (lengths : CodeLengths) : List (List Nat) :=
  (List.range longest).map fun i => lengths.row (i + 1)

/-- The number of the first word that is longer than the given rows, as a word of one bit
more than their number. -/
def firstWord (rows : List (List Nat)) : Nat :=
  rows.foldl (fun first row => 2 * (first + row.length)) 0

/-- The word of a symbol. -/
def word (lengths : CodeLengths) (symbol : Nat) : List Bool :=
  let length := lengths.getD symbol 0
  let first := firstWord (lengths.rows.take (length - 1))
  Bits.ofNatHighFirst length (first + (lengths.row length).idxOf symbol)

/-- The share of all words of the greatest length that begin with a word of the code. -/
def share (lengths : CodeLengths) : Nat :=
  lengths.foldl (fun total length => total + if length = 0 then 0 else 1 <<< (longest - length)) 0

/-- Whether words can be told apart: they use up all there are, or there is only one. -/
def isCode (lengths : CodeLengths) : Bool :=
  lengths.share = 1 <<< longest || (lengths.filter (· ≠ 0)).length ≤ 1

end CodeLengths

/-! ## The parts of the format -/

/-- The lengths that repetitions are written with: the shortest of a class and the number of
bits that tell which one of the class is meant. -/
def lengthClasses : List (Nat × Nat) :=
  [(3, 0), (4, 0), (5, 0), (6, 0), (7, 0), (8, 0), (9, 0), (10, 0), (11, 1), (13, 1), (15, 1),
    (17, 1), (19, 2), (23, 2), (27, 2), (31, 2), (35, 3), (43, 3), (51, 3), (59, 3), (67, 4),
    (83, 4), (99, 4), (115, 4), (131, 5), (163, 5), (195, 5), (227, 5), (258, 0)]

/-- The distances that repetitions are written with, in the same form. -/
def distanceClasses : List (Nat × Nat) :=
  [(1, 0), (2, 0), (3, 0), (4, 0), (5, 1), (7, 1), (9, 2), (13, 2), (17, 3), (25, 3), (33, 4),
    (49, 4), (65, 5), (97, 5), (129, 6), (193, 6), (257, 7), (385, 7), (513, 8), (769, 8),
    (1025, 9), (1537, 9), (2049, 10), (3073, 10), (4097, 11), (6145, 11), (8193, 12),
    (12289, 12), (16385, 13), (24577, 13)]

/-- The order in which the lengths of the words for lengths are written. -/
def lengthOrder : List Nat :=
  [16, 17, 18, 0, 8, 7, 9, 6, 10, 5, 11, 4, 12, 3, 13, 2, 14, 1, 15]

/-- The symbol that ends a block. -/
def endOfBlock : Nat := 256

/-- The code of symbols that is agreed upon for blocks without a code of their own. -/
def agreedSymbols : CodeLengths :=
  List.replicate 144 8 ++ List.replicate 112 9 ++ List.replicate 24 7 ++ List.replicate 8 8

/-- The code of distances that is agreed upon. -/
def agreedDistances : CodeLengths :=
  List.replicate 32 5

end Provision.Deflate
