import Provision.Text.Composition
import Provision.Text.Direction
import Provision.Text.Joining
import Provision.Web.Name.Folding

/-!
# The labels of a name

A label is what stands between two dots of a name.  A label with characters beyond ASCII has
rules of its own:

* it is in composed form and is spelled with the characters of names only;
* it does not start with a mark;
* what joins letters, or keeps them from joining, stands only where it is seen
  (`joinersFit`).

If some label of a name is written from right to left, all of them have a plain direction
(`directionFits`): digits at the edge of a label would change places with what stands beside
them.
-/

namespace Provision.Web.Name

open Text

/-- A label, by its code points. -/
abbrev Label := List Nat

/-- Whether the last letter of a text, given in reverse, joins the next one. -/
def joinsOn (before : List Nat) : Bool :=
  match before.dropWhile isTransparent with
  | n :: _ => joiningNext.holds n
  | [] => false

/-- Whether the first letter of a text joins the one before. -/
def joinsBack (after : List Nat) : Bool :=
  match after.dropWhile isTransparent with
  | n :: _ => joiningBefore.holds n
  | [] => false

/-- Whether each joiner, and each character that keeps letters from joining, stands where it
is seen: behind a mark that silences a vowel, or, if letters are kept from joining, between
two that would join. -/
def joinersFit (before : List Nat) : Label → Bool
  | [] => true
  | n :: rest =>
    let follows := before.head?.any fun m => combiningClass m = viramaClass
    let fits :=
      if n = joiner then follows
      else if n = nonJoiner then follows || (joinsOn before && joinsBack rest)
      else true
    fits && joinersFit (n :: before) rest

/-- Whether a label keeps the rules for characters beyond ASCII. -/
def isProper (label : Label) : Bool :=
  compose label = label && label.all (fun n => fold? n = some [n]) &&
    !label.head?.any isMark && joinersFit [] label

/-- Whether a label has characters that are written from right to left. -/
def hasRightToLeft (label : Label) : Bool :=
  label.any fun n => direction n = .rightToLeft || direction n = .arabicDigit

/-- Whether a label has a plain direction: it starts with a letter, has no letters of the other
direction and ends with a letter or a digit of its direction, marks aside. -/
def directionFits (label : Label) : Bool :=
  let directions := label.map direction
  let last := (directions.reverse.dropWhile (· = .mark)).head?
  match directions.head? with
  | none => true
  | some .leftToRight =>
    directions.all (fun d => d ≠ .rightToLeft && d ≠ .arabicDigit) &&
      (last = some .leftToRight || last = some .europeanDigit)
  | some .rightToLeft =>
    directions.all (· ≠ .leftToRight) &&
      (last = some .rightToLeft || last = some .europeanDigit || last = some .arabicDigit) &&
      !(directions.contains .europeanDigit && directions.contains .arabicDigit)
  | some _ => false

end Provision.Web.Name
