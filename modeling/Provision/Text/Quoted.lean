import Provision.Text.Mark
import Provision.Text.Printable

/-!
# Quoted texts in reports

A report shows a text between double quotes in such a way that each of its characters can be
told: what has no picture of its own, or would melt into the character before it, is written
by its number.
-/

namespace Provision.Text

/-- Marks that take room of their own but belong to the character before them all the same. -/
def attachedMarks : CodePoints := .ofText
  "9be 9d7 b3e b57 bbe bd7 cc0 cc2 cc7-cc8 cca-ccb cd5-cd6 d3e d57 dcf ddf 1715 1734 1b35
   1b3b 1b3d 1b43-1b44 1baa 1bf2-1bf3 302e-302f a953 a9c0 111c0 11235 1133e 1134d 11357 113b8
   113c2 113c5 113c7-113c9 113cf 114b0 114bd 115af 116b6 11930 1193d 11f41 16ff0-16ff1
   1d165-1d166 1d16d-1d172"

/-- Letters without a picture, which fill a place where one is missing. -/
def fillers : CodePoints := .ofText "115f-1160 3164 ffa0"

/-- Whether a character is shown as itself. -/
def isShown (c : Char) : Bool :=
  let n := c.toNat
  if n < 0x80 then isPrintable n
  else isPrintable n && !isNonspacingMark n && !attachedMarks.holds n && !fillers.holds n

/-- A character by its number. -/
def numbered (c : Char) : List Char :=
  "\\u\x7b".toList ++ Nat.toDigits 16 c.toNat ++ ['\x7d']

/-- How a character of a quoted text is shown. -/
def quotedChar (c : Char) : List Char :=
  if c = '"' ∨ c = '\\' then ['\\', c]
  else if c = '\n' then ['\\', 'n']
  else if c = '\r' then ['\\', 'r']
  else if c = '\t' then ['\\', 't']
  else if c.toNat = 0 then ['\\', '0']
  else if isShown c then [c]
  else numbered c

/-- A text between quotes. -/
def quote (text : String) : String :=
  "\"" ++ String.ofList (text.toList.flatMap quotedChar) ++ "\""

end Provision.Text
