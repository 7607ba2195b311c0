import Provision.Archive.Bits

/-!
# Finding repetitions

Data is cut into single bytes and repetitions of bytes that came before.  Places that begin
alike are chained by a hash of their first three bytes, and a search walks the chain back
from the latest place, a bounded number of steps.  A repetition is put off by one byte when
a longer one begins there.
-/

namespace Provision.Deflate

/-- A piece of data. -/
inductive Token
  | literal (b : UInt8)
  | copy (length distance : Nat)
deriving DecidableEq, Repr

/-- Earlier places by the hash of their first three bytes, the latest first. -/
abbrev Chains := Array (List Nat)

namespace Chains

/-- The number of hashes. -/
def width : Nat := 32768

def empty : Chains := Array.replicate width []

/-- The hash of the three bytes at a place. -/
def hash (data : Array UInt8) (i : Nat) : Nat :=
  let first := (data.getD i 0).toNat
  let second := (data.getD (i + 1) 0).toNat
  let third := (data.getD (i + 2) 0).toNat
  ((first <<< 10) ^^^ (second <<< 5) ^^^ third) % width

/-- The earlier places that may begin as a place does. -/
def candidates (chains : Chains) (data : Array UInt8) (i : Nat) : List Nat :=
  if i + 2 < data.size then chains.getD (hash data i) [] else []

/-- Adds a number of places from `i` on. -/
def add (data : Array UInt8) : (chains : Chains) → (i count : Nat) → Chains
  | chains, _, 0 => chains
  | chains, i, count + 1 =>
    let chains :=
      if i + 2 < data.size then chains.modify (hash data i) (i :: ·) else chains
    add data chains (i + 1) count

end Chains

/-- A repetition: its length, and how far back the bytes are that it repeats. -/
structure Repetition where
  length : Nat
  distance : Nat
deriving DecidableEq, Repr

/-- How thoroughly repetitions are searched for. -/
structure Effort where
  /-- The longest repetition. -/
  longest : Nat
  /-- A repetition of this length is taken without looking for a longer one. -/
  enough : Nat
  /-- How many rounds of three places a search takes. -/
  rounds : Nat
  /-- How many rounds it takes when a repetition of `good` bytes is known. -/
  roundsWhenGood : Nat
  good : Nat
  /-- The farthest distance. -/
  farthest : Nat
  /-- The farthest distance of a repetition of three bytes. -/
  farthestShort : Nat

/-- The effort that compressed files are made with. -/
def Effort.usual : Effort where
  longest := 258
  enough := 128
  rounds := 44
  roundsWhenGood := 12
  good := 32
  farthest := 32768
  farthestShort := 8192

/-- How many bytes two places have in common, at most `most`. -/
def commonLength (data : Array UInt8) (i j : Nat) : (most : Nat) → Nat
  | 0 => 0
  | most + 1 =>
    if data.getD i 0 = data.getD j 0 then commonLength data (i + 1) (j + 1) most + 1 else 0

/-- Whether two places have two bytes in common. -/
def samePair (data : Array UInt8) (i j : Nat) : Bool :=
  data.getD i 0 == data.getD j 0 && data.getD (i + 1) 0 == data.getD (j + 1) 0

/-- Walks back over candidates for a repetition at `i` that is longer than the best one
known.  A round looks at three places and ends early where one is worth comparing. -/
def searchBack (data : Array UInt8) (i reach most : Nat) :
    (rounds left : Nat) → (best : Repetition) → (candidates : List Nat) → Repetition
  | _, _, best, [] => best
  | rounds, left, best, j :: rest =>
    let (rounds, left) := if left = 0 then (rounds - 1, 3) else (rounds, left)
    if rounds = 0 ∨ j = 0 ∨ reach < i - j then best
    else if ¬ samePair data (i + best.length - 1) (j + best.length - 1) then
      searchBack data i reach most rounds (left - 1) best rest
    else if ¬ samePair data i j then searchBack data i reach most rounds 0 best rest
    else
      let length := commonLength data i j most
      if length ≤ best.length then searchBack data i reach most rounds 0 best rest
      else if length = most then ⟨most, i - j⟩
      else searchBack data i reach most rounds 0 ⟨length, i - j⟩ rest

/-- The best repetition at `i` that is longer than `known` bytes; a distance of 0 tells that
there is none. -/
def longestRepetition (effort : Effort) (data : Array UInt8) (chains : Chains) (i known : Nat) :
    Repetition :=
  let most := min effort.longest (data.size - i)
  let reach := min i (effort.farthest - most)
  let rounds := if known < effort.good then effort.rounds else effort.roundsWhenGood
  if most ≤ known then ⟨known, 0⟩
  else
    let best := searchBack data i reach most rounds 0 ⟨known, 0⟩ (chains.candidates data i)
    if best.length = 3 ∧ effort.farthestShort ≤ best.distance then ⟨0, 0⟩ else best

/-- Cuts data from `i` on into at most `most` pieces; `waiting` is a repetition that begins
one byte before `i`. -/
def cutFrom (effort : Effort) (data : Array UInt8) :
    (most i : Nat) → (waiting : Option Repetition) → Chains → List Token
  | 0, _, _, _ => []
  | most + 1, i, waiting, chains =>
    if data.size ≤ i then []
    else
      let best := longestRepetition effort data chains i ((waiting.map (·.length)).getD 2)
      let moveOn (count : Nat) (waiting : Option Repetition) : List Token :=
        cutFrom effort data most (i + count) waiting (chains.add data i count)
      match waiting with
      | some known =>
        if known.length < best.length then
          .literal (data.getD (i - 1) 0) ::
            (if effort.enough ≤ best.length then
              .copy best.length best.distance :: moveOn best.length none
            else moveOn 1 (some best))
        else .copy known.length known.distance :: moveOn (known.length - 1) none
      | none =>
        if best.distance = 0 then .literal (data.getD i 0) :: moveOn 1 none
        else if effort.enough ≤ best.length then
          .copy best.length best.distance :: moveOn best.length none
        else moveOn 1 (some best)

/-- Cuts data into pieces. -/
def tokens (effort : Effort) (data : Array UInt8) : List Token :=
  cutFrom effort data (data.size + 1) 0 none .empty

end Provision.Deflate
