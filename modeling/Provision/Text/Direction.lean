import Provision.Text.Mark

/-!
# Writing directions

Letters are written from left to right or from right to left.  Digits are always read from
left to right but stand differently in texts of the two directions, and all other characters
follow their neighbours.
-/

namespace Provision.Text

/-- How a character is written. -/
inductive Direction
  | leftToRight
  | rightToLeft
  | europeanDigit
  | arabicDigit
  /-- A mark, which is written as what it stands with. -/
  | mark
  | neutral
deriving DecidableEq, Repr

/-- Letters from right to left. -/
def rightToLeftLetters : CodePoints := .ofText
  "5be-5f4 608 60b 60d 61b-64a 66d-6d5 6e5-6e6 6ee-6ef 6fa-7f5 7fa-8c9 fbb2-fbc2 fe73
   10800-1091b 10920-10b35 10b40-10d23 10d4a-10d4f 10d6f-10d85 10e80-10ed0 10f00-10ff6
   1e800-1ed3d"

/-- Digits and other signs of numbers in texts from right to left. -/
def arabicDigits : CodePoints := .ofText
  "660-669 66b-66c 10d30-10d49 10e60-10e7e"

/-- Digits beyond ASCII that are written as those of ASCII. -/
def europeanDigits : CodePoints := .ofText
  "6f0-6f9 102e1-102fb"

/-- Signs without a direction. -/
def neutralSigns : CodePoints := .ofText
  "a1-d7 f7 2b9-2ba 2c2-2cf 2d2-2ed 2ef-2ff 375 3f6 58a-58f 606-607 609-60a 60c 60e-60f 66a
   6de 6e9 7f6-7f9 9f2-9f3 9fb af1 bf3-bfa c78-c7e e3f f3a-f3d 1390-1399 1400 169b-169c 17db
   17f0-180a 1940-1945 19de-19ff 200c-214d 218a-2335 237b-2394 2396-26ab 26ad-27ff 2900-2bff
   2ce5-2cea 2cf9-2cff 2e00-3004 3008-3020 3030 3037 303d-303f 30a0 30fb 31c0-31e5 4dc0-4dff
   a490-a4c6 a60d-a60f a673-a67f a700-a721 a788 a828-a82b a838-a839 a874-a877 ab6a-ab6b
   fbc3-fe46 10101 10140-1018c 10190-101a0 1091f 10b39-10b3f 10d6e 10d8e-10d8f 10ed1-10ed8
   11052-11065 11660-1166c 11fd5-11ff1 16fe2 1cc00-1cef0 1d1e9-1d245 1d300-1d356 1e2ff
   1eef0-1f12f 1f16d-1f16f 1f1ad 1f260-1fbfa"

/-- How a code point is written. -/
def direction (n : Nat) : Direction :=
  if n < 0x80 then
    let c := Char.ofNat n
    if c.isAlpha then .leftToRight else if c.isDigit then .europeanDigit else .neutral
  else if isNonspacingMark n then .mark
  else if rightToLeftLetters.holds n then .rightToLeft
  else if arabicDigits.holds n then .arabicDigit
  else if europeanDigits.holds n then .europeanDigit
  else if neutralSigns.holds n then .neutral
  else .leftToRight

end Provision.Text
