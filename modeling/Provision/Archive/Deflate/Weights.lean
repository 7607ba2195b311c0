import Provision.Archive.Deflate.Code

/-!
# Choosing a code

Symbols that are frequent get short words.  The two lightest groups of symbols are joined
until one group is left, and the number of joins a symbol went through is the length of its
word.  Words that come out too long are shortened at the cost of others.
-/

namespace Provision.Deflate

/-- Symbols joined to a group: their weight, and how deep each of them lies. -/
structure Group where
  weight : Nat
  depths : List Nat
deriving Repr

namespace Group

/-- A single symbol. -/
def single (weight : Nat) : Group := ⟨weight, [0]⟩

/-- Two groups made one. -/
def join (a b : Group) : Group :=
  ⟨a.weight + b.weight, (a.depths ++ b.depths).map (· + 1)⟩

/-- Takes the lighter of the first single symbol and the first group, a single symbol where
they weigh the same. -/
def takeLighter? : (singles groups : List Group) → Option (Group × List Group × List Group)
  | [], [] => none
  | s :: singles, [] => some (s, singles, [])
  | [], g :: groups => some (g, [], groups)
  | s :: singles, g :: groups =>
    if g.weight < s.weight then some (g, s :: singles, groups)
    else some (s, singles, g :: groups)

/-- Joins single symbols and groups, both in the order of their weights, until one group is
left; it takes at most `most` joins. -/
def joinAll : (most : Nat) → (singles groups : List Group) → Option Group
  | 0, _, _ => none
  | most + 1, singles, groups => do
    let (a, singles, groups) ← takeLighter? singles groups
    match takeLighter? singles groups with
    | none => return a
    | some (b, singles, groups) => joinAll most singles (groups ++ [a.join b])

/-- How deep symbols of ascending weights lie. -/
def depthsOf (weights : List Nat) : List Nat :=
  match weights with
  | [_] => [1]
  | _ => ((joinAll (2 * weights.length) (weights.map single) []).map depths).getD []

end Group

/-- How many words have one bit, how many have two, and so on up to `limit`; longer words
count as words of that length. -/
def lengthCounts (limit : Nat) (depths : List Nat) : List Nat :=
  (List.range limit).map fun i => (depths.filter fun d => min d limit = i + 1).length

/-- Gives two words the place of a shorter one, the shortest above the given lengths: takes
the counts from the longest length down, `above` being the count of the length before. -/
def splitShorter (above : Nat) : List Nat → List Nat
  | [] => [above]
  | count :: rest =>
    if count = 0 then above :: splitShorter 0 rest else (above + 2) :: (count - 1) :: rest

/-- Takes one of the longest words away by splitting a shorter one, `times` times; the counts
are given from the longest length down. -/
def shorten : (times : Nat) → List Nat → List Nat
  | 0, counts => counts
  | _, [] => []
  | times + 1, longest :: rest => shorten times (splitShorter (longest - 1) rest)

/-- Which share of the words of the greatest length the counted words take up. -/
def countedShare (limit : Nat) (counts : List Nat) : Nat :=
  (counts.mapIdx fun i count => count <<< (limit - (i + 1))).foldl (· + ·) 0

/-- How many words have each length, no word being longer than `limit`. -/
def limitedCounts (limit : Nat) (depths : List Nat) : List Nat :=
  let counts := lengthCounts limit depths
  if depths.length ≤ 1 then counts
  else (shorten (countedShare limit counts - 1 <<< limit) counts.reverse).reverse

/-- The code for symbols of given weights, a weight of 0 meaning that a symbol is not used. -/
def CodeLengths.ofWeights (limit : Nat) (weights : List Nat) : CodeLengths :=
  let used := (weights.zipIdx.filter (·.1 ≠ 0)).mergeSort fun a b => a.1 ≤ b.1
  let counts := limitedCounts limit (Group.depthsOf (used.map (·.1)))
  let lengths := (counts.mapIdx fun i count => List.replicate count (i + 1)).flatten
  let chosen := (used.reverse.map (·.2)).zip lengths
  (List.range weights.length).map fun symbol => (chosen.lookup symbol).getD 0

end Provision.Deflate
