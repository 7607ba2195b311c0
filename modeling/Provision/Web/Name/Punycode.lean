/-!
# Names in ASCII

A label with characters beyond ASCII is written with letters and digits alone.  Its ASCII
characters come first; then follow numbers, one for each other character in rising order,
which say how far to go on from the one before, counting all places in all texts that the
characters so far could stand in.

The numbers are written with thirty-six digits, the lowest first.  The last digit of a number
is told by being below a threshold, which depends on its place and on the numbers before
(`bias`).
-/

namespace Provision.Web.Punycode

/-- The digits: letters, then numerals. -/
def digit (n : Nat) : Char :=
  if n < 26 then Char.ofNat ('a'.toNat + n) else Char.ofNat ('0'.toNat + (n - 26))

/-- The value of a digit. -/
def digitValue? (c : Char) : Option Nat :=
  if c.isLower then some (c.toNat - 'a'.toNat)
  else if c.isUpper then some (c.toNat - 'A'.toNat)
  else if c.isDigit then some (c.toNat - '0'.toNat + 26)
  else none

/-- The threshold at a place.  Places are counted in steps of thirty-six, from
thirty-six. -/
def threshold (bias place : Nat) : Nat :=
  if place ≤ bias then 1 else min (place - bias) 26

theorem threshold_pos (bias place : Nat) : 0 < threshold bias place := by
  unfold threshold
  split <;> omega

/-- The bias that fits numbers of the size of `step`. -/
def biasOf (step : Nat) : Nat :=
  if 455 < step then 36 + biasOf (step / 35) else 36 * step / (step + 38)
termination_by step
decreasing_by omega

/-- The bias after a number.  The first one is far larger than the ones to come, and the more
characters there are, the larger the next ones grow. -/
def nextBias (number count : Nat) (isFirst : Bool) : Nat :=
  let step := if isFirst then number / 700 else number / 2
  biasOf (step + step / count)

/-- The character before the first one that numbers speak of. -/
def firstBeyond : Nat := 0x80

/-- The bias before the first number. -/
def firstBias : Nat := 72

/-! ## Writing -/

/-- Writes a number from a place on. -/
def digits (bias place number : Nat) : List Char :=
  let least := threshold bias place
  if number < least then [digit number]
  else
    digit (least + (number - least) % (36 - least)) ::
      digits bias (place + 36) ((number - least) / (36 - least))
termination_by number
decreasing_by
  have positive := threshold_pos bias place
  have : (number - threshold bias place) / (36 - threshold bias place) ≤
      number - threshold bias place := Nat.div_le_self ..
  omega

/-- A label that is being written. -/
structure Writing where
  /-- What has been written. -/
  text : List Char
  /-- How many places have been passed since the last number. -/
  passed : Nat
  bias : Nat
  /-- How many characters have been written. -/
  count : Nat

namespace Writing

/-- Passes a character of the label while writing those that are `n`. -/
def pass (plain n : Nat) (w : Writing) (m : Nat) : Writing :=
  if m < n then { w with passed := w.passed + 1 }
  else if m = n then
    { text := w.text ++ digits w.bias 36 w.passed
      passed := 0
      bias := nextBias w.passed (w.count + 1) (w.count = plain)
      count := w.count + 1 }
  else w

/-- Writes the numbers of the characters `n :: rest` of a label; those below `least` have been
written. -/
def passAll (plain : Nat) (label : List Nat) : (least : Nat) → List Nat → Writing → Writing
  | _, [], w => w
  | least, n :: rest, w =>
    let w := { w with passed := w.passed + (n - least) * (w.count + 1) }
    let w := label.foldl (pass plain n) w
    passAll plain label (n + 1) rest { w with passed := w.passed + 1 }

end Writing

/-- Writes a label. -/
def encode (label : List Nat) : List Char :=
  let plain := label.filter (· < firstBeyond)
  let others := ((label.filter (firstBeyond ≤ ·)).mergeSort).eraseReps
  let start := plain.map Char.ofNat ++ if plain.isEmpty then [] else ['-']
  (Writing.passAll plain.length label firstBeyond others
    ⟨start, 0, firstBias, plain.length⟩).text

/-! ## Reading -/

/-- A label that is being read. -/
structure Reading where
  /-- The characters so far. -/
  label : List Nat
  /-- The character that was inserted last. -/
  current : Nat
  /-- The place to count from. -/
  origin : Nat
  bias : Nat
  /-- The place of the next digit, what it counts, and the number so far. -/
  place : Nat
  weight : Nat
  number : Nat
  isFirst : Bool

namespace Reading

/-- Before the first number. -/
def start (plain : List Nat) : Reading where
  label := plain
  current := firstBeyond
  origin := 0
  bias := firstBias
  place := 36
  weight := 1
  number := 0
  isFirst := true

/-- Inserts the character that a whole number speaks of. -/
def insert? (r : Reading) : Option Reading :=
  let count := r.label.length + 1
  let target := r.origin + r.number
  let current := r.current + target / count
  if current.isValidChar then
    some
      { label := r.label.insertIdx (target % count) current
        current
        origin := target % count + 1
        bias := nextBias r.number count r.isFirst
        place := 36
        weight := 1
        number := 0
        isFirst := false }
  else none

/-- Takes a digit. -/
def take? (r : Reading) (c : Char) : Option Reading := do
  let value ← digitValue? c
  let least := threshold r.bias r.place
  let r := { r with number := r.number + value * r.weight }
  if value < least then r.insert?
  else some { r with place := r.place + 36, weight := r.weight * (36 - least) }

end Reading

/-- Reads a label.  What stands before the last hyphen are its ASCII characters; a hyphen with
nothing before it is none. -/
def decode? (text : List Char) : Option (List Nat) := do
  let tail := (text.reverse.takeWhile (· ≠ '-')).reverse
  let plain := text.take (text.length - tail.length - 1)
  let numbers := if plain.isEmpty then text else tail
  let r ← numbers.foldlM Reading.take? (.start (plain.map Char.toNat))
  if r.place = 36 then some r.label else none

end Provision.Web.Punycode
