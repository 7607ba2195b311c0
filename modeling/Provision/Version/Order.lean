import Provision.Version.Basic

/-!
# The order of versions

Epochs are compared first.  The texts are then read from the left, the leading run
of other characters of each and the leading run of digits of each in turn:

* runs of other characters are compared character by character, letters before
  everything else, a run that ends first being the smaller one (`compareWords`);
* runs of digits are compared as numbers of any size (`compareNumerals`).

The first difference decides.  Versions that differ in no run are equivalent, also
where their texts differ: `1.02` and `1.2` are.
-/

namespace Provision.Version

/-- Whether a character of a version is something other than an ASCII letter. -/
def isMark (c : Char) : Bool :=
  !c.isAlpha

/-- Letters come before all other characters, and within a class code points decide. -/
def compareChars : Char → Char → Ordering :=
  compareLex (compareOn isMark) (compareOn Char.toNat)

/-- Compares two runs without digits. -/
def compareWords (a b : List Char) : Ordering :=
  List.compareLex compareChars a b

/-- Compares two runs of digits as numbers: without leading zeros the longer one is
larger, and of two equally long ones the first digit that differs decides. -/
def compareNumerals (a b : List Char) : Ordering :=
  let a := a.dropWhile (· == '0')
  let b := b.dropWhile (· == '0')
  (compare a.length b.length).then (List.compareLex (compareOn Char.toNat) a b)

/-- What stands before the first digit. -/
def word (text : List Char) : List Char :=
  text.takeWhile fun c => !c.isDigit

/-- What begins with the first digit. -/
def afterWord (text : List Char) : List Char :=
  text.dropWhile fun c => !c.isDigit

/-- What follows the first run of other characters and the run of digits after it. -/
def afterRuns (text : List Char) : List Char :=
  (afterWord text).dropWhile Char.isDigit

theorem length_dropWhile_le {α : Type} (p : α → Bool) (l : List α) :
    (l.dropWhile p).length ≤ l.length :=
  (List.dropWhile_suffix p).length_le

theorem length_afterRuns_le (text : List Char) : (afterRuns text).length ≤ text.length :=
  Nat.le_trans (length_dropWhile_le ..) (length_dropWhile_le ..)

/-- Something is always read from a text that is not empty. -/
theorem length_afterRuns_lt {text : List Char} (h : text ≠ []) :
    (afterRuns text).length < text.length := by
  cases text with
  | nil => contradiction
  | cons c rest =>
    by_cases hc : c.isDigit
    · have : afterRuns (c :: rest) = rest.dropWhile Char.isDigit := by
        simp [afterRuns, afterWord, hc]
      rw [this]
      exact Nat.lt_succ_of_le (length_dropWhile_le ..)
    · have : afterRuns (c :: rest) = afterRuns rest := by
        simp [afterRuns, afterWord, hc]
      rw [this]
      exact Nat.lt_succ_of_le (length_afterRuns_le rest)

/-- Compares two version texts run by run. -/
def compareTexts (a b : List Char) : Ordering :=
  if a = [] ∧ b = [] then .eq
  else
    match compareWords (word a) (word b) with
    | .eq =>
      match compareNumerals ((afterWord a).takeWhile Char.isDigit)
          ((afterWord b).takeWhile Char.isDigit) with
      | .eq => compareTexts (afterRuns a) (afterRuns b)
      | other => other
    | other => other
termination_by a.length + b.length
decreasing_by
  have h : ¬(a = [] ∧ b = []) := by assumption
  by_cases ha : a = []
  · have hb : b ≠ [] := fun hb => h ⟨ha, hb⟩
    have := length_afterRuns_lt hb
    have := length_afterRuns_le a
    omega
  · have := length_afterRuns_lt ha
    have := length_afterRuns_le b
    omega

/-- The order of versions. -/
def compare (a b : Version) : Ordering :=
  (Ord.compare a.epoch b.epoch).then (compareTexts a.text.toList b.text.toList)

instance : Ord Version := ⟨compare⟩

/-- Whether `a` is a later version than `b`. -/
def isNewer (a b : Version) : Bool :=
  (compare a b).isGT

/-- Sorts versions, leaving equivalent ones in the order they were given in. -/
def sort (versions : List Version) : List Version :=
  versions.mergeSort fun a b => (compare a b).isLE

end Provision.Version
