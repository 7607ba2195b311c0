import Provision.Web.Percent

/-!
# Paths of addresses

The path of an address is resolved when it is read: a segment that stands for the place it is
in is dropped, and one that stands for the place above takes the segment before it away.  A
segment that names a drive is never taken away.
-/

namespace Provision.Web.Path

/-- A piece of a path between slashes. -/
abbrev Segment := List Char

/-- The forms of a dot. -/
def dots : List Segment :=
  [".", "%2e"].map String.toList

/-- A segment in small letters. -/
def lowered (s : Segment) : Segment :=
  s.map Char.toLower

/-- Whether a segment stands for the place it is in. -/
def isHere (s : Segment) : Bool :=
  dots.contains (lowered s)

/-- Whether a segment stands for the place above. -/
def isAbove (s : Segment) : Bool :=
  dots.any fun first => dots.any fun second => lowered s = first ++ second

/-- Whether a segment names a drive. -/
def isDrive : Segment → Bool
  | [letter, mark] => letter.isAlpha && (mark = ':' || mark = '|')
  | _ => false

/-- Goes to the place above.  The segments are given in reverse. -/
def leave : List Segment → List Segment
  | [] => []
  | s :: above => if isDrive s then s :: above else above

/-- Resolves segments behind others, which are given in reverse.  A path that ends with a
segment that stands for a place ends with a slash. -/
def resolve : (before : List Segment) → List Segment → List Segment
  | before, [] => before.reverse
  | before, [s] =>
    if isAbove s then ([] :: leave before).reverse
    else if isHere s then ([] :: before).reverse
    else (s :: before).reverse
  | before, s :: rest =>
    if isAbove s then resolve (leave before) rest
    else if isHere s then resolve before rest
    else resolve (s :: before) rest

/-- Reads a path: nothing, or a slash and what follows it.  Slashes may lean to either
side. -/
def ofText (text : List Char) : List Segment :=
  let pieces := (text.drop 1).splitOnP fun c => c = '/' || c = '\\'
  resolve [] (pieces.map (Percent.encode .path))

/-- Writes a path. -/
def text (segments : List Segment) : List Char :=
  segments.flatMap fun s => '/' :: s

end Provision.Web.Path
