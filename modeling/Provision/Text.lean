/-!
# Cutting text

Keys, versions and paths are cut at separators.  Every cut is made on a list of
characters and says what stands on either side, so nothing of the text is lost:
the parts and the separator between them are the text that was cut.

* `splitFirst?` cuts at the first occurrence of a character;
* `splitLast?` cuts at the last occurrence of a word;
* `trimEnd` drops every trailing occurrence of a character.

Beside them stand a comparison that does not tell cases apart and hexadecimal digits, which
are written in lower case and read in either.
-/

namespace Provision.Text

/-- The text before the first `sep` and the text after it. -/
def splitFirst? (sep : Char) : List Char → Option (List Char × List Char)
  | [] => none
  | c :: rest =>
    if c = sep then some ([], rest)
    else (splitFirst? sep rest).map fun cut => (c :: cut.1, cut.2)

/-- The text before the last occurrence of `word` and the text after it.  Of two
occurrences that overlap the one that ends later counts. -/
def splitLast? (word : List Char) : List Char → Option (List Char × List Char)
  | [] => if word = [] then some ([], []) else none
  | c :: rest =>
    match splitLast? word rest with
    | some cut => some (c :: cut.1, cut.2)
    | none => (word.isPrefixOf? (c :: rest)).map fun after => ([], after)

/-- Whether `word` stands somewhere in the text. -/
def holds (word text : List Char) : Bool :=
  (splitLast? word text).isSome

/-- The text without the run of `c` at its end. -/
def trimEnd (c : Char) (text : List Char) : List Char :=
  (text.reverse.dropWhile (· == c)).reverse

/-- Whether two texts are the same but for the case of unaccented Latin letters. -/
def sameLetters (a b : String) : Bool :=
  a.toList.map Char.toLower = b.toList.map Char.toLower

/-- A hexadecimal digit, in lower case. -/
def hexDigit (n : Nat) : Char :=
  if n < 10 then Char.ofNat ('0'.toNat + n) else Char.ofNat ('a'.toNat + (n - 10))

/-- The value of a hexadecimal digit, in either case. -/
def hexValue? (c : Char) : Option Nat :=
  let n := c.toNat
  if '0'.toNat ≤ n ∧ n ≤ '9'.toNat then some (n - '0'.toNat)
  else if 'a'.toNat ≤ n ∧ n ≤ 'f'.toNat then some (n - 'a'.toNat + 10)
  else if 'A'.toNat ≤ n ∧ n ≤ 'F'.toNat then some (n - 'A'.toNat + 10)
  else none

theorem hexValue?_hexDigit {n : Nat} (h : n < 16) : hexValue? (hexDigit n) = some n := by
  have all : ∀ m : Fin 16, hexValue? (hexDigit m) = some m.val := by decide
  exact all ⟨n, h⟩

end Provision.Text
