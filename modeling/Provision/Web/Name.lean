import Provision.Web.Name.Label
import Provision.Web.Name.Punycode

/-!
# Names of hosts

A name may be given with any letters.  `ascii?` gives the one form of it that is used: folded,
in composed form, and each label that needs more than ASCII written with a mark in front that
says so.
-/

namespace Provision.Web.Name

/-- The start of a label that stands for one beyond ASCII. -/
def encodedMark : List Nat :=
  "xn--".toList.map Char.toNat

/-- Whether a code point is one of ASCII. -/
def isAscii (n : Nat) : Bool :=
  n < 0x80

/-- The characters of ASCII that names cannot have: controls, the blank, and those that mean
something in an address. -/
def isForbidden (n : Nat) : Bool :=
  n ≤ 0x20 || n = 0x7F ||
    ['%', '#', '/', ':', '<', '>', '?', '@', '[', '\\', ']', Char.ofNat 0x5E, '|'].any fun c =>
      n = c.toNat

/-- The label that a folded label stands for. -/
def Label.decoded? (label : Label) : Option Label :=
  match encodedMark.isPrefixOf? label with
  | some rest =>
    if rest = [] ∨ rest.getLast? = some '-'.toNat ∨ ¬ rest.all isAscii then none
    else
      match Punycode.decode? (rest.map Char.ofNat) with
      | some whole => if isProper whole ∧ ¬ whole.all isAscii then some whole else none
      | none => none
  | none => if label.all isAscii ∨ isProper label then some label else none

/-- Writes a label in ASCII. -/
def Label.text (label : Label) : List Char :=
  if label.all isAscii then label.map Char.ofNat
  else "xn--".toList ++ Punycode.encode label

/-- The form of a name in ASCII, if it is a name. -/
def ascii? (name : List Char) : Option (List Char) := do
  let spelled ← name.mapM fun c => fold? c.toNat
  let labels := (Text.compose spelled.flatten).splitOn '.'.toNat
  let decoded ← labels.mapM Label.decoded?
  if labels.any (·.any isForbidden) || decoded.any (·.any isForbidden) then none
  else if decoded.any hasRightToLeft && !decoded.all directionFits then none
  else some (['.'].intercalate (decoded.map Label.text))

end Provision.Web.Name
